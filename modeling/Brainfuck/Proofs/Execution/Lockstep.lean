import Brainfuck.Proofs.Execution.Transcript

/-!
# Runs in lockstep

Two machines that differ in a way that instructions do not notice run in lockstep: they complete the
same instructions, write the same, and end in the same way.  What may notice the difference is a
single kind of instruction, such as a move past the last cell, so the difference is a change `f` of
machines together with the machines `Off` at which it is noticed.  The runs stay together as long
as they avoid those.
-/

namespace Brainfuck

namespace Machine

/-- Instructions do not notice the change `f`, unless they are carried out where `Off` holds. -/
structure Lockstep (f : Machine → Machine) (Off : Machine → Prop) : Prop where
  code : ∀ m, (f m).code = m.code
  pc : ∀ m, (f m).pc = m.pc
  head : ∀ m, (f m).tape.head = m.tape.head
  cell : ∀ m, (f m).tape.cell = m.tape.cell
  advance : ∀ m, (f m).advance = f m.advance
  act : ∀ {m instr}, m.code.instrs[m.pc]? = some instr → ¬Off m →
    (f m).act instr = (f (m.act instr).1, (m.act instr).2)

theorem meet_map {f : Machine → Machine} {m : Machine} (h : (f m).policy = m.policy)
    (instr : Instr) (cause : Fault) :
    (f m).meet instr cause = (f (m.meet instr cause).1, (m.meet instr cause).2) := by
  rw [meet, meet, h]
  cases m.policy <;> rfl

def Avoids (Off : Machine → Prop) (n : Nat) (m : Machine) : Prop :=
  ∀ k < n, ∀ bytes mid, Steps k m bytes mid → ¬Off mid

namespace Avoids

variable {Off : Machine → Prop} {n : Nat} {m m' after : Machine} {bytes : List UInt8}

theorem head (h : Avoids Off (n + 1) m) : ¬Off m :=
  h 0 (Nat.succ_pos n) [] m (.refl m)

theorem tail (h : Avoids Off (n + 1) m) (hnext : m.next = .step bytes after) :
    Avoids Off n after := by
  intro k hk rest mid hsteps
  exact h (k + 1) (Nat.succ_lt_succ hk) _ mid (.head hnext hsteps)

theorem of_halted (hoff : ∀ mid, mid.policy = m.policy → Off mid → mid.Halted)
    (h : Steps n m bytes m') : Avoids Off n m := by
  intro k hk first mid hfirst hmid
  obtain ⟨i, rfl⟩ := Nat.exists_eq_add_of_lt hk
  rw [Nat.add_assoc] at h
  obtain ⟨_, _, hrest⟩ := hfirst.rest_of_add h
  have hzero := hrest.eq_zero_of_halted (hoff mid hfirst.policy_eq hmid)
  omega

end Avoids

namespace Lockstep

variable {f : Machine → Machine} {Off : Machine → Prop} {m m' after : Machine} {instr : Instr}
  {bytes : List UInt8} {n i : Nat}

theorem getElem?_instrs (h : Lockstep f Off) (m : Machine) :
    (f m).code.instrs[(f m).pc]? = m.code.instrs[m.pc]? := by
  rw [h.code, h.pc]

theorem site (h : Lockstep f Off) (m : Machine) (step : Nat) (instr : Instr) :
    (f m).site step instr = m.site step instr := by
  unfold Machine.site
  rw [h.pc, h.head, h.cell]

/-! ## One instruction -/

theorem next_of_done (h : Lockstep f Off) (hdone : m.next = .done) : (f m).next = .done := by
  apply next_of_getElem?_eq_none
  rw [h.getElem?_instrs]
  exact getElem?_eq_none_of_next_eq_done hdone

theorem next_of_step (h : Lockstep f Off) (hoff : ¬Off m) (hstep : m.next = .step bytes after) :
    (f m).next = .step bytes (f after) := by
  obtain ⟨instr, mid, action, hinstr, hact, rfl, rfl⟩ := exists_of_next_eq_step hstep
  have hact' := h.act hinstr hoff
  rw [hact] at hact'
  rw [next_of_act_eq_ok ((h.getElem?_instrs m).trans hinstr) hact', h.advance]

theorem next_of_stuck (h : Lockstep f Off) (hoff : ¬Off m) {cause : Fault}
    (hstuck : m.next = .stuck cause) : (f m).next = .stuck cause := by
  obtain ⟨instr, hinstr, hact⟩ := exists_of_next_eq_stuck hstuck
  have hact' := h.act hinstr hoff
  rw [hact] at hact'
  exact next_of_act_eq_error ((h.getElem?_instrs m).trans hinstr) hact'

theorem shown (h : Lockstep f Off) (hoff : ¬Off m) (mode : Mode) (i : Nat) :
    (f m).shown mode i = m.shown mode i := by
  unfold Machine.shown
  rw [h.getElem?_instrs]
  cases hinstr : m.code.instrs[m.pc]? with
  | none => rfl
  | some instr =>
      simp only [h.act hinstr hoff, h.site]
      obtain ⟨mid, answer⟩ := m.act instr
      cases answer <;> rfl

/-- Whatever ends a run at `m` ends the other one in the same way.  Controls that stop it do so
whether the instruction would have noticed the difference or not. -/
theorem conclude (h : Lockstep f Off) {verdict : Option Failure} {result : Except Failure Unit}
    (hoff : Off m → verdict ≠ none) (hconclude : m.next.conclude verdict = some result) :
    (f m).next.conclude verdict = some result := by
  cases verdict with
  | none =>
      have hon : ¬Off m := fun hm => hoff hm rfl
      cases hnext : m.next with
      | done => rw [h.next_of_done hnext, ← hnext, hconclude]
      | stuck cause => rw [h.next_of_stuck hon hnext, ← hnext, hconclude]
      | step bytes after =>
          rw [hnext] at hconclude
          cases hconclude
  | some failure =>
      cases hinstr : m.code.instrs[m.pc]? with
      | none =>
          have hdone := next_of_getElem?_eq_none hinstr
          rw [h.next_of_done hdone, ← hdone, hconclude]
      | some instr =>
          rw [← hconclude, conclude_of_getElem? hinstr,
            conclude_of_getElem? ((h.getElem?_instrs m).trans hinstr)]

/-! ## Runs -/

theorem steps (h : Lockstep f Off) (hsteps : Steps n m bytes m') (havoids : Avoids Off n m) :
    Steps n (f m) bytes (f m') := by
  induction hsteps with
  | refl m => exact .refl (f m)
  | head hnext _ ih => exact .head (h.next_of_step havoids.head hnext) (ih (havoids.tail hnext))

theorem transcript (h : Lockstep f Off) (hsteps : Steps n m bytes m') (havoids : Avoids Off n m)
    (mode : Mode) (i : Nat) : transcript mode i n (f m) = transcript mode i n m := by
  induction hsteps generalizing i with
  | refl => rfl
  | head hnext _ ih =>
      rw [transcript_succ hnext, transcript_succ (h.next_of_step havoids.head hnext),
        h.shown havoids.head, ih (havoids.tail hnext)]

theorem reaches (h : Lockstep f Off) {verdict : Nat → Option Failure} {fuel : Nat}
    {result : Option (Except Failure Unit)} (hreaches : Reaches verdict fuel i m n m' result)
    (havoids : Avoids Off n m) (hend : result ≠ none → Off m' → verdict (i + n) ≠ none) :
    Reaches verdict fuel i (f m) n (f m') result where
  steps := by
    obtain ⟨bytes, hsteps⟩ := hreaches.steps
    exact ⟨bytes, h.steps hsteps havoids⟩
  free := hreaches.free
  ending := by
    rcases hreaches.ending with hout | ⟨hlt, r, rfl, hconclude⟩
    · exact .inl hout
    · exact .inr ⟨hlt, r, rfl, h.conclude (hend (Option.some_ne_none r)) hconclude⟩

end Lockstep

end Machine

open Machine

/-- Calls into open outlets with the same controls, on machines that run in lockstep. -/
theorem ScheduledOutlet.report_of_lockstep {schedule : Nat → Bool} {f : Machine → Machine}
    {Off : Machine → Prop} (h : Lockstep f Off) (o o' : ScheduledOutlet schedule) {m : Machine}
    {mode : Mode} {control : Option Control} {fuel : Nat}
    (havoids : Avoids Off (o.report m mode control fuel).steps m)
    (hend : (o.report m mode control fuel).outcome ≠ none →
      Off (o.report m mode control fuel).machine →
      Control.verdict schedule (o.report m mode control fuel).steps control ≠ none) :
    (o'.report (f m) mode control fuel).outcome = (o.report m mode control fuel).outcome ∧
      (o'.report (f m) mode control fuel).steps = (o.report m mode control fuel).steps ∧
      (o'.report (f m) mode control fuel).machine = f (o.report m mode control fuel).machine ∧
      o'.output (o'.report (f m) mode control fuel) =
        o.output (o.report m mode control fuel) := by
  obtain ⟨hreaches, houtput⟩ := o.reaches m mode control fuel
  obtain ⟨bytes, hsteps⟩ := hreaches.steps
  rw [← Nat.zero_add (o.report m mode control fuel).steps] at hend
  obtain ⟨hresult, hcount, hmachine, houtput'⟩ :=
    o'.report_of_reaches (h.reaches hreaches havoids hend) mode
  rw [h.transcript hsteps havoids] at houtput'
  exact ⟨hresult, hcount, hmachine, houtput'.trans houtput.symm⟩

/-- Where one run ends with a fault, the other one has come as far.  If its instruction there can be
carried out and puts out nothing, it goes on. -/
theorem ScheduledOutlet.report_past_fault {schedule : Nat → Bool} {f : Machine → Machine}
    {Off : Machine → Prop} (h : Lockstep f Off) {o : ScheduledOutlet schedule} {m after : Machine}
    {mode : Mode} {control : Option Control} {fuel : Nat} {cause : Fault}
    (hfault : (o.report m mode control fuel).outcome = some (.error (.fault cause)))
    (havoids : Avoids Off (o.report m mode control fuel).steps m)
    (hnext : (f (o.report m mode control fuel).machine).next = .step [] after)
    (o' : ScheduledOutlet schedule) :
    let r := o.report m mode control fuel
    let p := o'.report (f m) mode control
    ((p r.steps).outcome = none ∧ (p r.steps).steps = r.steps ∧
      (p r.steps).machine = f r.machine ∧ o'.output (p r.steps) = o.output r) ∧
    (p (r.steps + 1)).outcome = none ∧ (p (r.steps + 1)).steps = r.steps + 1 ∧
      (p (r.steps + 1)).machine = after ∧
      (mode = .plain → o'.output (p (r.steps + 1)) = o.output r) := by
  obtain ⟨n, last, bytes, hcount, hmachine, hsteps, _, hfree, houtput⟩ := stuck_of_fault hfault
  rw [hcount] at havoids
  rw [hmachine] at hnext
  have hsame := h.transcript hsteps havoids mode 0
  have hfar := h.steps hsteps havoids
  simp only [hcount, hmachine, houtput]
  constructor
  · have hreaches : Reaches (fun i => Control.verdict schedule i control) n 0 (f m) n (f last)
        none := .of_steps hfar fun j hj => hfree j (Nat.lt_succ_of_lt hj)
    rw [← hsame]
    exact o'.report_of_reaches hreaches mode
  · obtain ⟨houtcome, hsteps', hafter, hwritten⟩ :=
      o'.report_of_reaches (.of_steps (hfar.trans (.one hnext)) hfree) mode
    refine ⟨houtcome, hsteps', hafter, ?_⟩
    rintro rfl
    rw [hwritten, transcript_concat hfar hnext, shown_plain hnext, hsame, List.append_nil]

end Brainfuck
