import Brainfuck.Proofs.Execution.Lockstep

/-!
# The two policies

A machine under the permissive policy does what it does under the strict one until an instruction
cannot be carried out.  There the strict run ends, and the permissive one steps past the instruction
and has changed nothing but its index.
-/

namespace Brainfuck

namespace Machine

def lenient (m : Machine) : Machine :=
  { m with policy := .permissive }

@[simp] theorem tape_lenient (m : Machine) : m.lenient.tape = m.tape := rfl

@[simp] theorem feed_lenient (m : Machine) : m.lenient.feed = m.feed := rfl

def overlook (m : Machine) (instr : Instr) :
    Machine × Except Fault Action → Machine × Except Fault Action
  | (after, .ok action) => (after.lenient, .ok action)
  | (_, .error cause) => (m.lenient, .ok (.passedOver instr cause))

variable {m m' after : Machine} {instr : Instr} {action : Action} {cause : Fault}
  {bytes : List UInt8} {n : Nat}

theorem meet_lenient (m : Machine) (instr : Instr) (cause : Fault) :
    m.lenient.meet instr cause = m.overlook instr (m.meet instr cause) := by
  rw [meet, meet]
  cases m.policy <;> rfl

theorem act_lenient (m : Machine) (instr : Instr) :
    m.lenient.act instr = m.overlook instr (m.act instr) := by
  cases instr with
  | left =>
      rw [act, act, tape_lenient]
      cases m.tape.left? with
      | some tape => rfl
      | none => exact meet_lenient m .left _
  | right =>
      rw [act, act, tape_lenient]
      cases m.tape.right? with
      | some tape => rfl
      | none => exact meet_lenient m .right _
  | get =>
      rw [act, act, feed_lenient]
      cases m.feed.next? with
      | some read => rfl
      | none => exact meet_lenient m .get _
  | inc | dec | put => rfl
  | opening | closing =>
      rw [act, act, tape_lenient]
      by_cases hzero : m.tape.cell = 0
      · rw [if_pos hzero, if_pos hzero]
        rfl
      · rw [if_neg hzero, if_neg hzero]
        rfl

theorem act_lenient_of_ok (h : m.act instr = (after, .ok action)) :
    m.lenient.act instr = (after.lenient, .ok action) := by
  rw [act_lenient, h]
  rfl

theorem act_lenient_of_error (h : m.act instr = (after, .error cause)) :
    m.lenient.act instr = (m.lenient, .ok (.passedOver instr cause)) := by
  rw [act_lenient, h]
  rfl

theorem load_lenient {source input : String} {config : MachineConfig}
    (h : load source input { config with policy := .strict } = .ok m) :
    load source input { config with policy := .permissive } = .ok m.lenient := by
  obtain ⟨hsize, code, hparse, rfl⟩ := load_eq_ok_iff.1 h
  exact load_eq_ok_iff.2 ⟨hsize, code, hparse, rfl⟩

/-! ## In lockstep -/

/-- The policies differ where an instruction cannot be carried out, and nowhere else. -/
theorem lockstep_lenient : Lockstep lenient fun m => ∃ cause, m.next = .stuck cause where
  code _ := rfl
  pc _ := rfl
  head _ := rfl
  cell _ := rfl
  advance _ := rfl
  act {m instr} hinstr hgoes := by
    rcases hact : m.act instr with ⟨after, cause | action⟩
    · exact absurd ⟨cause, next_of_act_eq_error hinstr hact⟩ hgoes
    · exact act_lenient_of_ok hact

theorem Steps.avoids_stuck (h : Steps n m bytes m') :
    Avoids (fun m => ∃ cause, m.next = .stuck cause) n m :=
  .of_halted (fun _ _ ⟨_, hstuck⟩ => halted_of_next_eq_stuck hstuck) h

theorem Steps.lenient (h : Steps n m bytes m') : Steps n m.lenient bytes m'.lenient :=
  lockstep_lenient.steps h h.avoids_stuck

theorem transcript_lenient (h : Steps n m bytes m') (mode : Mode) (i : Nat) :
    transcript mode i n m.lenient = transcript mode i n m :=
  lockstep_lenient.transcript h h.avoids_stuck mode i

theorem next_lenient_of_stuck (h : m.next = .stuck cause) :
    m.lenient.next = .step [] m.lenient.advance := by
  obtain ⟨instr, hinstr, hact⟩ := exists_of_next_eq_stuck h
  exact next_of_act_eq_ok (m := m.lenient) hinstr (act_lenient_of_error hact)

theorem shown_plain_of_stuck (h : m.next = .stuck cause) (i : Nat) :
    m.lenient.shown .plain i = [] :=
  shown_plain (next_lenient_of_stuck h) i

end Machine

open Machine

namespace ScheduledOutlet

variable {schedule : Nat → Bool} {o : ScheduledOutlet schedule} {m : Machine} {mode : Mode}
  {control : Option Control} {fuel : Nat}

theorem lenient_of_ne_fault
    (h : ∀ cause, (o.report m mode control fuel).outcome ≠ some (.error (.fault cause)))
    (o' : ScheduledOutlet schedule) :
    (o'.report m.lenient mode control fuel).outcome = (o.report m mode control fuel).outcome ∧
      (o'.report m.lenient mode control fuel).steps = (o.report m mode control fuel).steps ∧
      (o'.report m.lenient mode control fuel).machine =
        (o.report m mode control fuel).machine.lenient ∧
      o'.output (o'.report m.lenient mode control fuel) =
        o.output (o.report m mode control fuel) := by
  obtain ⟨hreaches, _⟩ := o.reaches m mode control fuel
  obtain ⟨bytes, hsteps⟩ := hreaches.steps
  refine o.report_of_lockstep lockstep_lenient o' hsteps.avoids_stuck ?_
  rintro hreturns ⟨cause, hstuck⟩
  exact o.verdict_ne_none_of_stuck hstuck hreturns (h cause)

end ScheduledOutlet

/-- Balanced code is loaded on any tape under either policy, and calls on the two machines, in the
same mode, with the same budget and the same readings of the cancel flag, compare as follows.  At no
number of turns do they differ before the strict one reports a fault, in what they return, in their
machines or in what they have written.  If the strict call does so after a number of instructions,
the permissive machine is the same after that many.  With one turn more it has moved on by one
instruction and counted it, and nothing else has changed; what the strict call has written stays the
beginning of all that the permissive call writes. -/
theorem policies_agree_up_to_fault {source : String} {config : MachineConfig}
    (hbalanced : Balanced (brackets source.toList)) (hsize : 0 < config.tapeSize)
    (input : String) :
    ∃ strict permissive,
      load source input { config with policy := .strict } = .ok strict ∧
      load source input { config with policy := .permissive } = .ok permissive ∧
      ∀ (schedule : Nat → Bool) (o o' : ScheduledOutlet schedule) (mode : Mode)
        (control : Option Control) (fuel : Nat),
        let r := o.report strict mode control fuel
        let p := o'.report permissive mode control
        ((∀ cause, r.outcome ≠ some (.error (.fault cause))) →
          (p fuel).outcome = r.outcome ∧ (p fuel).steps = r.steps ∧
          (p fuel).machine = { r.machine with policy := .permissive } ∧
          o'.output (p fuel) = o.output r) ∧
        ∀ cause, r.outcome = some (.error (.fault cause)) →
          ((p r.steps).outcome = none ∧ (p r.steps).steps = r.steps ∧
            (p r.steps).machine = { r.machine with policy := .permissive } ∧
            o'.output (p r.steps) = o.output r) ∧
          ((p (r.steps + 1)).outcome = none ∧ (p (r.steps + 1)).steps = r.steps + 1 ∧
            (p (r.steps + 1)).machine =
              { r.machine with policy := .permissive, pc := r.machine.pc + 1 } ∧
            (mode = .plain → o'.output (p (r.steps + 1)) = o.output r)) ∧
          ∀ later, r.steps ≤ later → o.output r <+: o'.output (p later) := by
  have hsize' : 0 < { config with policy := .strict }.tapeSize := hsize
  obtain ⟨m, hload⟩ := exists_load hbalanced hsize' input
  refine ⟨m, m.lenient, hload, load_lenient hload, fun schedule o o' mode control fuel => ?_⟩
  refine ⟨fun hfault => ScheduledOutlet.lenient_of_ne_fault hfault o', fun cause hfault => ?_⟩
  obtain ⟨n, after, bytes, hcount, hmachine, hsteps, hstuck, hfree, houtput⟩ :=
    ScheduledOutlet.stuck_of_fault hfault
  have hsame := transcript_lenient hsteps mode 0
  have hmore := hsteps.lenient.trans (.one (next_lenient_of_stuck hstuck))
  have hreaches : Reaches (fun i => Control.verdict schedule i control) n 0 m.lenient n
      after.lenient none :=
    .of_steps hsteps.lenient fun j hj => hfree j (Nat.lt_succ_of_lt hj)
  simp only [hcount, hmachine, houtput]
  refine ⟨?_, ?_, fun later hlater => ?_⟩
  · obtain ⟨hresult, hcount', hmachine', houtput'⟩ := o'.report_of_reaches hreaches mode
    rw [hsame] at houtput'
    exact ⟨hresult, hcount', hmachine', houtput'⟩
  · obtain ⟨hresult, hcount', hmachine', houtput'⟩ :=
      o'.report_of_reaches (.of_steps hmore hfree) mode
    refine ⟨hresult, hcount', hmachine', ?_⟩
    rintro rfl
    have hsilent : transcript .plain (0 + n) 1 after.lenient = [] := by
      rw [transcript_succ (next_lenient_of_stuck hstuck), shown_plain_of_stuck hstuck]
      rfl
    rw [houtput', transcript_add hsteps.lenient, hsame, hsilent, List.append_nil]
  · obtain ⟨hreaches', houtput'⟩ := o'.reaches m.lenient mode control later
    obtain ⟨d, hd⟩ := Nat.exists_eq_add_of_le (hreaches.count_mono hreaches' hlater)
    rw [houtput', hd, transcript_add hsteps.lenient, hsame, ← List.append_assoc]
    exact List.prefix_append _ _

/-- A read past the end in a loop: the strict call ends there, the permissive one goes on. -/
theorem read_past_end_splits_policies :
    ∃ strict permissive,
      load "+[.,-<]" "" { tapeSize := 1, policy := .strict } = .ok strict ∧
      load "+[.,-<]" "" { tapeSize := 1, policy := .permissive } = .ok permissive ∧
      let o := ScheduledOutlet.counting fun _ => false
      let control : Option Control := some { budget := some 9 }
      (o.report strict .plain control 20).outcome = some (.error (.fault (.inputExhausted 3))) ∧
      o.output (o.report strict .plain control 20) = [1] ∧
      (o.report permissive .plain control 3).machine =
        { (o.report strict .plain control 20).machine with policy := .permissive } ∧
      (o.report permissive .plain control 4).machine.pc = 4 ∧
      [1] <+: o.output (o.report permissive .plain control 20) := by
  have hbalanced : Balanced (brackets "+[.,-<]".toList) := .loop .nil .nil
  have hsize : 0 < ({ tapeSize := 1 } : MachineConfig).tapeSize := Nat.one_pos
  obtain ⟨strict, permissive, hstrict, hpermissive, hagree⟩ :=
    policies_agree_up_to_fault hbalanced hsize ""
  obtain rfl := Except.ok.inj (hstrict.symm.trans rfl)
  obtain ⟨hsame, hnext, hlater⟩ := (hagree _ (.counting fun _ => false) (.counting fun _ => false)
    .plain (some { budget := some 9 }) 20).2 (.inputExhausted 3) rfl
  refine ⟨_, permissive, hstrict, hpermissive, rfl, rfl, hsame.2.2.1, ?_, hlater 20 (by decide)⟩
  exact congrArg pc hnext.2.2.1

end Brainfuck
