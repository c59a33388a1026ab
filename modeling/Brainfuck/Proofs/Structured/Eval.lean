import Brainfuck.Failure
import Brainfuck.Proofs.Structured.Block

/-!
# Evaluation of blocks

A store is what a program can see and leave behind.  `Eval` is its big-step evaluation over the
tree of the program: a loop evaluates its body and then itself again, as long as the cell under the
head differs from zero.  There is no index that jumps.  The number that `Eval` carries only tells a
fault where in the sequence of instructions it stands.
-/

namespace Brainfuck

structure Store where
  cells : List UInt8
  head : Nat
  input : List UInt8
  output : List UInt8
  deriving DecidableEq

namespace Store

def cell (s : Store) : UInt8 :=
  s.cells.getD s.head 0

def put (s : Store) (b : UInt8) : Store :=
  { s with cells := s.cells.set s.head b }

def initial (size : Nat) (input : List UInt8) : Store where
  cells := List.replicate size 0
  head := 0
  input
  output := []

end Store

def Atom.apply (k : Nat) (s : Store) : Atom → Except Fault Store
  | .left =>
    if s.head = 0 then .error (.outOfBounds k s.head '<')
    else .ok { s with head := s.head - 1 }
  | .right =>
    if s.head + 1 < s.cells.length then .ok { s with head := s.head + 1 }
    else .error (.outOfBounds k s.head '>')
  | .inc => .ok (s.put (s.cell + 1))
  | .dec => .ok (s.put (s.cell - 1))
  | .put => .ok { s with output := s.output ++ [s.cell] }
  | .get =>
    match s.input with
    | [] => .error (.inputExhausted k)
    | b :: bs => .ok { s.put b with input := bs }

/-- How an evaluation ends, and the store it leaves. -/
inductive Ending where
  | ended (s : Store)
  | faulted (cause : Fault) (s : Store)
  deriving DecidableEq

namespace Ending

def result : Ending → Except Failure Unit
  | ended _ => .ok ()
  | faulted cause _ => .error (.fault cause)

def store : Ending → Store
  | ended s => s
  | faulted _ s => s

theorem eq_of_result_of_store {e e' : Ending} (hresult : e.result = e'.result)
    (hstore : e.store = e'.store) : e = e' := by
  cases e with
  | ended s =>
      cases e' with
      | ended s' => rw [show s = s' from hstore]
      | faulted cause' s' => cases hresult
  | faulted cause s =>
      cases e' with
      | ended s' => cases hresult
      | faulted cause' s' =>
          obtain rfl := Failure.fault.inj (Except.error.inj hresult)
          rw [show s = s' from hstore]

end Ending

/-- From the store `s`, the block whose first instruction has index `k` evaluates to `e`. -/
inductive Eval (policy : Policy) : Nat → Block → Store → Ending → Prop where
  | done {k : Nat} {s : Store} : Eval policy k .done s (.ended s)
  | atom {k : Nat} {a : Atom} {rest : Block} {s s' : Store} {e : Ending} :
      a.apply k s = .ok s' → Eval policy (k + 1) rest s' e → Eval policy k (.atom a rest) s e
  | skip {k : Nat} {a : Atom} {rest : Block} {s : Store} {cause : Fault} {e : Ending} :
      policy = .permissive → a.apply k s = .error cause → Eval policy (k + 1) rest s e →
      Eval policy k (.atom a rest) s e
  | fault {k : Nat} {a : Atom} {rest : Block} {s : Store} {cause : Fault} :
      policy = .strict → a.apply k s = .error cause →
      Eval policy k (.atom a rest) s (.faulted cause s)
  | leave {k : Nat} {body rest : Block} {s : Store} {e : Ending} :
      s.cell = 0 → Eval policy (k + body.size + 2) rest s e →
      Eval policy k (.loop body rest) s e
  | again {k : Nat} {body rest : Block} {s s' : Store} {e : Ending} :
      s.cell ≠ 0 → Eval policy (k + 1) body s (.ended s') →
      Eval policy k (.loop body rest) s' e → Eval policy k (.loop body rest) s e
  | stuck {k : Nat} {body rest : Block} {s s' : Store} {cause : Fault} :
      s.cell ≠ 0 → Eval policy (k + 1) body s (.faulted cause s') →
      Eval policy k (.loop body rest) s (.faulted cause s')

end Brainfuck
