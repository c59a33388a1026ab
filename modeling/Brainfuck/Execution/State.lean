import Brainfuck.Code
import Brainfuck.Failure
import Brainfuck.Feed
import Brainfuck.Tape

/-!
# Machine states

A machine holds the code it runs, the tape, the index of the instruction it is at, the bytes it can
still read, and the policy. `Machine.act` carries out one instruction and says what it did.
-/

namespace Brainfuck

/-- What a machine is made with besides code and input. -/
structure MachineConfig where
  tapeSize : Nat := 30000
  policy : Policy := .strict
  feedMode : FeedMode := .words
  deriving DecidableEq

@[ext]
structure Machine where
  code : Code
  tape : Tape
  pc : Nat
  feed : Feed
  policy : Policy

/-- What one instruction did. -/
inductive Action where
  | moved (head : Nat)
  | incremented (head : Nat) (before after : UInt8)
  | decremented (head : Nat) (before after : UInt8)
  | emitted (byte : UInt8)
  | received (byte : UInt8)
  | jumpedForward (target : Nat)
  | entered
  | jumpedBack (target : Nat)
  | exited
  | passedOver (instr : Instr) (cause : Fault)

namespace Machine

/-- A machine at the start of its code. A tape without cells is refused before the code is read. -/
def load (source input : String) (config : MachineConfig) : Except Failure Machine :=
  if h : 0 < config.tapeSize then
    match Code.parse source with
    | .error u => .error (.unmatched u)
    | .ok code =>
      .ok {
        code
        tape := Tape.blank config.tapeSize h
        pc := 0
        feed := Feed.ofText config.feedMode input
        policy := config.policy }
  else .error .noTape

/-- Lets the policy decide about an instruction that cannot be carried out. -/
def meet (m : Machine) (instr : Instr) (cause : Fault) : Machine × Except Fault Action :=
  match m.policy with
  | .strict => (m, .error cause)
  | .permissive => (m, .ok (.passedOver instr cause))

/-- Carries out one instruction. A jump goes to the partner bracket; stepping past an instruction is
`advance`. After a fault the machine is as it was. -/
def act (m : Machine) : Instr → Machine × Except Fault Action
  | .right =>
    match m.tape.right? with
    | some tape =>
      let head := tape.head
      ({ m with tape }, .ok (.moved head))
    | none => m.meet .right (.outOfBounds m.pc m.tape.head '>')
  | .left =>
    match m.tape.left? with
    | some tape =>
      let head := tape.head
      ({ m with tape }, .ok (.moved head))
    | none => m.meet .left (.outOfBounds m.pc m.tape.head '<')
  | .inc =>
    let head := m.tape.head
    let before := m.tape.cell
    let after := before + 1
    ({ m with tape := m.tape.put after }, .ok (.incremented head before after))
  | .dec =>
    let head := m.tape.head
    let before := m.tape.cell
    let after := before - 1
    ({ m with tape := m.tape.put after }, .ok (.decremented head before after))
  | .put =>
    let byte := m.tape.cell
    (m, .ok (.emitted byte))
  | .get =>
    match m.feed.next? with
    | some (byte, feed) => ({ m with tape := m.tape.put byte, feed }, .ok (.received byte))
    | none => m.meet .get (.inputExhausted m.pc)
  | .opening =>
    if m.tape.cell = 0 then
      let target := m.code.partner m.pc
      ({ m with pc := target }, .ok (.jumpedForward target))
    else (m, .ok .entered)
  | .closing =>
    if m.tape.cell = 0 then (m, .ok .exited)
    else
      let target := m.code.partner m.pc
      ({ m with pc := target }, .ok (.jumpedBack target))

def advance (m : Machine) : Machine :=
  { m with pc := m.pc + 1 }

@[simp] theorem meet_fst (m : Machine) (instr : Instr) (cause : Fault) :
    (m.meet instr cause).1 = m := by
  unfold meet
  split <;> rfl

/-- No instruction changes the code. -/
@[simp] theorem code_act (m : Machine) (instr : Instr) : (m.act instr).1.code = m.code := by
  cases instr <;> simp only [act] <;> (try split) <;> simp

/-- No instruction changes the policy. -/
@[simp] theorem policy_act (m : Machine) (instr : Instr) : (m.act instr).1.policy = m.policy := by
  cases instr <;> simp only [act] <;> (try split) <;> simp

/-- No instruction changes the number of cells. -/
@[simp] theorem size_tape_act (m : Machine) (instr : Instr) :
    (m.act instr).1.tape.size = m.tape.size := by
  cases instr with
  | left =>
      simp only [act]
      split
      · next h => exact congrArg Array.size (Tape.of_left?_eq_some h).1
      · simp
  | right =>
      simp only [act]
      split
      · next h => exact congrArg Array.size (Tape.of_right?_eq_some h).1
      · simp
  | inc => simp [act]
  | dec => simp [act]
  | put => rfl
  | get =>
      simp only [act]
      split <;> simp
  | opening =>
      simp only [act]
      split <;> rfl
  | closing =>
      simp only [act]
      split <;> rfl

end Machine

end Brainfuck
