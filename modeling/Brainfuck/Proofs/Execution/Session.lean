import Brainfuck.Execution.Sink
import Brainfuck.Proofs.Execution.Step
import Brainfuck.Text.Numeral

/-!
# Sessions

A session is a list of calls on one machine, each with its own host, mode, controls and fuel.  A
host may refuse any write or flush and may raise its cancel flag at any check, so a session covers
every kind of failure.  A call whose fuel runs out stands where the loop checks its condition next.

`Continues` says what all calls keep and what they take from the queue.  It holds of one
instruction, and from there of a loop, a call and a session.
-/

namespace Brainfuck

structure Call where
  {σ : Type}
  host : Host σ
  mode : Mode
  control : Option Control
  start : σ
  fuel : Nat

theorem Progress.machine_close {σ : Type} (p : Progress σ) (host : Host σ) :
    (p.close host).machine = p.machine := by
  unfold close
  split <;> rfl

theorem Progress.steps_close {σ : Type} (p : Progress σ) (host : Host σ) :
    (p.close host).steps = p.steps := by
  unfold close
  split <;> rfl

theorem Progress.result_close {σ : Type} (p : Progress σ) (host : Host σ) :
    (p.close host).result = p.result := by
  unfold close
  split <;> rfl

namespace Machine

/-- The machines at which a loop of at most `fuel` turns carries out an instruction, in order. -/
def visits {σ : Type} (host : Host σ) (mode : Mode) (control : Option Control) :
    Nat → Machine → σ → Nat → List Machine
  | 0, _, _, _ => []
  | fuel + 1, m, s, steps =>
    if (m.carried? host control s steps).isSome then
      m :: match m.turn host mode control s steps with
        | (_, _, some _) => []
        | (after, s, none) => visits host mode control fuel after s (steps + 1)
    else []

def visitsOf (m : Machine) (call : Call) : List Machine :=
  match call.host.writeAll call.start call.mode.header with
  | (_, .error _) => []
  | (s, .ok ()) => visits call.host call.mode call.control call.fuel m s 0

/-- The machine that a call leaves behind, whatever it returns. -/
def afterCall (m : Machine) (call : Call) : Machine :=
  (m.run call.host call.mode call.control call.fuel call.start).machine

def after (m : Machine) (calls : List Call) : Machine :=
  calls.foldl afterCall m

def history : Machine → List Call → List Machine
  | _, [] => []
  | m, call :: calls => m.visitsOf call ++ (m.afterCall call).history calls

/-- `m` is a later state of `m₀`, which has taken the bytes `taken` from its queue since. -/
structure Continues (m₀ : Machine) (taken : List UInt8) (m : Machine) : Prop where
  code : m.code = m₀.code
  policy : m.policy = m₀.policy
  size : m.tape.size = m₀.tape.size
  pc_le : m.pc ≤ m.code.size
  feed : m₀.feed.pending = taken ++ m.feed.pending

structure Visited (m₀ m : Machine) : Prop where
  code : m.code = m₀.code
  size : m.tape.size = m₀.tape.size
  pc_lt : m.pc < m.code.size

namespace Continues

variable {m₀ m m' : Machine} {taken taken' : List UInt8}

theorem refl (h : m.pc ≤ m.code.size) : Continues m [] m :=
  ⟨rfl, rfl, rfl, h, rfl⟩

theorem trans (h : Continues m₀ taken m) (h' : Continues m taken' m') :
    Continues m₀ (taken ++ taken') m' where
  code := h'.code.trans h.code
  policy := h'.policy.trans h.policy
  size := h'.size.trans h.size
  pc_le := h'.pc_le
  feed := by rw [h.feed, h'.feed, List.append_assoc]

theorem isLinked (h : Continues m₀ taken m) (hlinked : m₀.IsLinked) : m.IsLinked := by
  rw [IsLinked, h.code]
  exact hlinked

theorem visited (h : Continues m₀ taken m) {v : Machine} (hv : Visited m v) : Visited m₀ v :=
  ⟨hv.code.trans h.code, hv.size.trans h.size, hv.pc_lt⟩

end Continues

/-! ## One instruction -/

variable {m : Machine} {instr : Instr}

theorem pc_lt_of_getElem? (h : m.code.instrs[m.pc]? = some instr) : m.pc < m.code.size :=
  (Array.getElem?_eq_some_iff.1 h).1

theorem pc_act_lt (hlinked : m.IsLinked) (h : m.code.instrs[m.pc]? = some instr) :
    (m.act instr).1.pc < m.code.size := by
  have hlt := pc_lt_of_getElem? h
  rcases m.pc_act instr with hpc | hpc
  · rw [hpc]
    exact hlt
  · rw [hpc]
    exact Code.partner_lt hlinked hlt

theorem continues_act (hlinked : m.IsLinked) (h : m.code.instrs[m.pc]? = some instr) :
    Continues m m.read?.toList (m.act instr).1 where
  code := code_act m instr
  policy := policy_act m instr
  size := size_tape_act m instr
  pc_le := by
    rw [code_act]
    exact Nat.le_of_lt (pc_act_lt hlinked h)
  feed := feed_act h

theorem continues_advance (hlinked : m.IsLinked) (h : m.code.instrs[m.pc]? = some instr) :
    Continues m m.read?.toList (m.act instr).1.advance where
  code := code_act m instr
  policy := policy_act m instr
  size := size_tape_act m instr
  pc_le := by
    rw [code_advance, code_act]
    exact pc_act_lt hlinked h
  feed := feed_act h

theorem filterMap_read?_cons (m : Machine) (later : List Machine) :
    (m :: later).filterMap read? = m.read?.toList ++ later.filterMap read? := by
  cases h : m.read? with
  | none => rw [List.filterMap_cons_none h, Option.toList_none, List.nil_append]
  | some b => rw [List.filterMap_cons_some h, Option.toList_some, List.singleton_append]

/-! ## Loops, calls, sessions -/

section Loop

variable {σ : Type} {host : Host σ} {mode : Mode} {control : Option Control}

/-- The machine after a loop continues the one before, and so do all that are visited. -/
theorem continues_loop (fuel : Nat) {m : Machine} (hlinked : m.IsLinked)
    (hpc : m.pc ≤ m.code.size) (s : σ) (steps : Nat) :
    Continues m ((visits host mode control fuel m s steps).filterMap read?)
        (loop host mode control fuel m s steps).machine ∧
      ∀ v ∈ visits host mode control fuel m s steps, Visited m v := by
  induction fuel generalizing m s steps with
  | zero => exact ⟨.refl hpc, by simp [visits]⟩
  | succ fuel ih =>
      rw [visits, loop]
      cases hcarried : m.carried? host control s steps with
      | none =>
          obtain ⟨s', result, hturn⟩ := turn_of_carried?_eq_none mode hcarried
          rw [hturn]
          exact ⟨.refl hpc, by simp⟩
      | some instr =>
          obtain ⟨hinstr, s', hturn⟩ := turn_of_carried?_eq_some mode hcarried
          have hself : Visited m m := ⟨rfl, rfl, pc_lt_of_getElem? hinstr⟩
          rw [hturn, Option.isSome_some, if_pos rfl]
          rcases m.perform_cases host mode s' steps instr with
            ⟨s'', hperform⟩ | ⟨s'', result, hperform⟩
          · have hone := continues_advance hlinked hinstr
            obtain ⟨hrest, hvisits⟩ := ih (hone.isLinked hlinked) hone.pc_le s'' (steps + 1)
            simp only [hperform]
            rw [filterMap_read?_cons]
            refine ⟨hone.trans hrest, fun v hv => ?_⟩
            rcases List.mem_cons.1 hv with rfl | hv
            · exact hself
            · exact hone.visited (hvisits v hv)
          · have hone := continues_act hlinked hinstr
            simp only [hperform]
            rw [filterMap_read?_cons, List.filterMap_nil, List.append_nil]
            refine ⟨hone, fun v hv => ?_⟩
            obtain rfl := List.mem_singleton.1 hv
            exact hself

end Loop

theorem continues_afterCall (hlinked : m.IsLinked) (hpc : m.pc ≤ m.code.size) (call : Call) :
    Continues m ((m.visitsOf call).filterMap read?) (m.afterCall call) ∧
      ∀ v ∈ m.visitsOf call, Visited m v := by
  rw [afterCall, run, Progress.machine_close, start, visitsOf]
  rcases hheader : call.host.writeAll call.start call.mode.header with ⟨s, cause | ⟨⟩⟩
  · exact ⟨.refl hpc, by simp⟩
  · exact continues_loop call.fuel hlinked hpc s 0

theorem continues_after (hlinked : m.IsLinked) (hpc : m.pc ≤ m.code.size) (calls : List Call) :
    Continues m ((m.history calls).filterMap read?) (m.after calls) ∧
      ∀ v ∈ m.history calls, Visited m v := by
  induction calls generalizing m with
  | nil => exact ⟨.refl hpc, by simp [history]⟩
  | cons call calls ih =>
      obtain ⟨hone, hvisits⟩ := continues_afterCall hlinked hpc call
      obtain ⟨hrest, hlater⟩ := ih (hone.isLinked hlinked) hone.pc_le
      rw [history, List.filterMap_append]
      refine ⟨hone.trans hrest, fun v hv => ?_⟩
      rcases List.mem_append.1 hv with hv | hv
      · exact hvisits v hv
      · exact hone.visited (hlater v hv)

/-! ## Machines in range -/

/-- Every look-up of a turn is in range, every index that it computes is one of the tape or of the
code or the index after the last, and a move to the left has a cell to go to. -/
structure InRange (m : Machine) : Prop where
  cell : m.tape.head < m.tape.cells.size
  instr : m.pc < m.code.instrs.size
  partner : m.pc < m.code.partners.size
  target : m.code.partner m.pc < m.code.instrs.size
  right : m.tape.head + 1 ≤ m.tape.cells.size
  next : m.pc + 1 ≤ m.code.instrs.size
  left : ∀ tape, m.tape.left? = some tape → tape.head + 1 = m.tape.head

theorem Visited.inRange {m₀ : Machine} (h : Visited m₀ m) (hlinked : m₀.IsLinked) : m.InRange := by
  have hlink : m.IsLinked := by
    rw [IsLinked, h.code]
    exact hlinked
  refine ⟨m.tape.head_lt, h.pc_lt, ?_, Code.partner_lt hlink h.pc_lt, m.tape.head_lt, h.pc_lt,
    fun tape hleft => (Tape.of_left?_eq_some hleft).2⟩
  rw [hlink.size]
  exact h.pc_lt

/-- Whatever the calls of a session return, the machine they leave behind has the code, the table,
the policy and the number of cells it was loaded with.  Its head is on the tape and its index within
the code or at its end.  What is gone from its queue is the front byte met by each `,` that met
one, in that order.  Wherever an instruction is carried out, everything is in range. -/
theorem session_keeps_machine_in_range {source input : String} {config : MachineConfig}
    {m₀ : Machine} (hload : load source input config = .ok m₀) (calls : List Call) :
    (m₀.after calls).tape.head < (m₀.after calls).tape.size ∧
    (m₀.after calls).tape.size = config.tapeSize ∧
    (m₀.after calls).pc ≤ (m₀.after calls).code.size ∧
    Code.parse source = .ok (m₀.after calls).code ∧
    (m₀.after calls).policy = config.policy ∧
    (Feed.ofText config.feedMode input).pending =
      (m₀.history calls).filterMap read? ++ (m₀.after calls).feed.pending ∧
    ∀ v ∈ m₀.history calls, v.InRange ∧
      (config.tapeSize < Text.wordLimit → v.tape.head + 1 < Text.wordLimit) ∧
      (source.length < Text.wordLimit →
        v.pc + 1 < Text.wordLimit ∧ v.code.partner v.pc + 1 < Text.wordLimit) := by
  have hlinked := isLinked_of_load hload
  obtain ⟨hpos, code, hparse, rfl⟩ := load_eq_ok_iff.1 hload
  obtain ⟨hafter, hvisits⟩ := continues_after hlinked (Nat.zero_le _) calls
  have hsize := hafter.size
  rw [Tape.size_blank] at hsize
  refine ⟨Tape.head_lt _, hsize, hafter.pc_le, ?_, hafter.policy, hafter.feed, fun v hv => ?_⟩
  · rw [hafter.code]
    exact hparse
  · have hvisited := hvisits v hv
    have hrange := hvisited.inRange hlinked
    have hcells := hvisited.size
    rw [Tape.size_blank] at hcells
    refine ⟨hrange, fun htape => ?_, fun hsource => ?_⟩
    · have hright := hrange.right
      rw [← hcells] at htape
      exact Nat.lt_of_le_of_lt hright htape
    · have hlength : v.code.size ≤ source.length := by
        rw [hvisited.code]
        exact Code.size_le_of_parse hparse
      have hnext := hrange.next
      have htarget := hrange.target
      simp only [Code.size] at hlength
      omega

def interrupted : List Call := [
  { host := Sink.host { capacity := some 0 }
    mode := .plain
    control := none
    start := {}
    fuel := 9 },
  { host := Sink.host {}
    mode := .table
    control := some { budget := some 1 }
    start := {}
    fuel := 9 }]

theorem interrupted_session_in_range :
    ∃ m₀, load ",.," "ab" { tapeSize := 1, feedMode := .stream } = .ok m₀ ∧
      (m₀.history interrupted).map pc = [0, 1, 1] ∧ (m₀.after interrupted).pc = 2 ∧
      (Feed.ofText .stream "ab").pending =
        (m₀.history interrupted).filterMap read? ++ (m₀.after interrupted).feed.pending ∧
      ∀ v ∈ m₀.history interrupted, v.InRange := by
  have hload : load ",.," "ab" { tapeSize := 1, feedMode := .stream } = .ok _ := rfl
  obtain ⟨_, _, _, _, _, hfeed, hvisits⟩ := session_keeps_machine_in_range hload interrupted
  exact ⟨_, hload, rfl, rfl, hfeed, fun v hv => (hvisits v hv).1⟩

end Machine

end Brainfuck
