import Brainfuck.Proofs.Execution.Outlet
import Brainfuck.Proofs.Execution.Stops

/-!
# Faults and good ends are final

A fault is raised by an instruction that cannot be carried out where the machine stands, and it
changes nothing.  The end of the code changes nothing either.  So a machine that has come to either
is left as it is by every later call, and calls that may carry out an instruction report the same
again.
-/

namespace Brainfuck

def Fault.Describes (m : Machine) : Fault → Prop
  | .outOfBounds ip head sign =>
    ip = m.pc ∧ head = m.tape.head ∧
      (sign = '<' ∧ m.code.instrs[ip]? = some .left ∧ head = 0 ∨
        sign = '>' ∧ m.code.instrs[ip]? = some .right ∧ head = m.tape.size - 1)
  | .inputExhausted ip =>
    ip = m.pc ∧ m.code.instrs[ip]? = some .get ∧ m.feed.pending = []

theorem Feed.next?_eq_none_iff {f : Feed} : f.next? = none ↔ f.pending = [] := by
  cases h : f.pending <;> simp [Feed.next?, h]

namespace Machine

variable {m after : Machine} {instr : Instr} {cause : Fault}

theorem describes_of_act_eq_error (hinstr : m.code.instrs[m.pc]? = some instr)
    (hact : m.act instr = (after, .error cause)) : cause.Describes m := by
  cases instr with
  | left =>
      simp only [act] at hact
      split at hact
      · cases hact
      · next hleft =>
          obtain ⟨_, rfl, _⟩ := meet_eq_error_iff.1 hact
          exact ⟨rfl, rfl, .inl ⟨rfl, hinstr, Tape.left?_eq_none_iff.1 hleft⟩⟩
  | right =>
      simp only [act] at hact
      split at hact
      · cases hact
      · next hright =>
          obtain ⟨_, rfl, _⟩ := meet_eq_error_iff.1 hact
          have hlast := Tape.right?_eq_none_iff.1 hright
          exact ⟨rfl, rfl, .inr ⟨rfl, hinstr, by omega⟩⟩
  | get =>
      simp only [act] at hact
      split at hact
      · cases hact
      · next hnext =>
          obtain ⟨_, rfl, _⟩ := meet_eq_error_iff.1 hact
          exact ⟨rfl, hinstr, Feed.next?_eq_none_iff.1 hnext⟩
  | inc | dec | put => cases hact
  | opening | closing =>
      simp only [act] at hact
      split at hact <;> cases hact

theorem of_next_eq_stuck (h : m.next = .stuck cause) :
    m.policy = .strict ∧ cause.Describes m := by
  obtain ⟨instr, hinstr, hact⟩ := exists_of_next_eq_stuck h
  exact ⟨(of_act_eq_error hact).2, describes_of_act_eq_error hinstr hact⟩

/-! ## Later calls -/

/-- No call moves a machine that can complete no more, whatever its host and its controls are. -/
theorem machine_run_of_halted {σ : Type} (h : m.Halted) (host : Host σ) (mode : Mode)
    (control : Option Control) (fuel : Nat) (s : σ) :
    (m.run host mode control fuel s).machine = m := by
  rcases exists_stop_run host mode control fuel m s with
    ⟨hmachine, _⟩ | ⟨bytes, before, hsteps, hstops⟩
  · exact hmachine
  · rw [hsteps.eq_zero_of_halted h] at hsteps
    cases hsteps
    generalize (m.run host mode control fuel s).machine = left at hstops ⊢
    generalize (m.run host mode control fuel s).result = result at hstops
    cases hstops with
    | underway => rfl
    | concluded _ _ => rfl
    | amid hinstr hact _ =>
        exact absurd h (not_halted_of_next_eq_step (next_of_act_eq_ok hinstr hact))

theorem after_of_halted (h : m.Halted) (calls : List Call) : m.after calls = m := by
  induction calls with
  | nil => rfl
  | cons call calls ih =>
      have hone : m.afterCall call = m :=
        machine_run_of_halted h call.host call.mode call.control call.fuel call.start
      rw [after, List.foldl_cons, hone]
      exact ih

theorem loop_of_done {σ : Type} (h : m.next = .done) (host : Host σ) (mode : Mode)
    (control : Option Control) (fuel : Nat) (s : σ) (i : Nat) :
    loop host mode control (fuel + 1) m s i =
      { machine := m, host := s, steps := i, result := some (.ok ()) } := by
  rw [loop, turn, getElem?_eq_none_of_next_eq_done h]

theorem loop_of_stuck {σ : Type} (h : m.next = .stuck cause) {host : Host σ}
    {control : Option Control} {s : σ} {i : Nat} (hask : (host.ask control s i).2 = none)
    (mode : Mode) (fuel : Nat) :
    loop host mode control (fuel + 1) m s i =
      { machine := m, host := (host.ask control s i).1, steps := i,
        result := some (.error (.fault cause)) } := by
  obtain ⟨instr, hinstr, hact⟩ := exists_of_next_eq_stuck h
  rw [loop, turn_eq_ask hinstr]
  rcases hpair : host.ask control s i with ⟨s', _ | failure⟩
  · simp only [perform, hact, settle]
  · rw [hpair] at hask
    cases hask

end Machine

open Machine

/-- The controls of a call, if it has any, let it carry out its first instruction: after the header
the flag is down, and the budget is for one instruction at least. -/
def OpenOutlet.Admits (o : OpenOutlet) (mode : Mode) (control : Option Control) : Prop :=
  ∀ c, control = some c →
    (o.host.poll (o.host.writeAll o.start mode.header).1).2 = false ∧ c.budget ≠ some 0

/-- A call returns `result`, leaves the machine as it was, and writes the header of its mode and
nothing else. -/
structure OpenOutlet.Idles (o : OpenOutlet) (m : Machine) (mode : Mode) (control : Option Control)
    (fuel : Nat) (result : Except Failure Unit) : Prop where
  outcome : (o.report m mode control fuel).outcome = some result
  machine : (o.report m mode control fuel).machine = m
  output : o.output (o.report m mode control fuel) = mode.header.flatten

namespace OpenOutlet.Idles

variable {m : Machine} {fuel : Nat}

theorem of_done (h : m.next = .done) (o : OpenOutlet) (mode : Mode) (control : Option Control)
    (hfuel : 0 < fuel) : o.Idles m mode control fuel (.ok ()) := by
  obtain ⟨fuel, rfl⟩ := Nat.exists_eq_succ_of_ne_zero (Nat.ne_of_gt hfuel)
  obtain ⟨s, _, hheader, hreport⟩ := o.exists_report_eq_loop m mode control
  obtain ⟨houtcome, hmachine, _, hwritten⟩ := hreport (fuel + 1)
  rw [loop_of_done h] at houtcome hmachine hwritten
  exact ⟨houtcome, hmachine, o.output_eq (hwritten.trans hheader)⟩

theorem of_stuck {cause : Fault} {control : Option Control} (h : m.next = .stuck cause)
    (o : OpenOutlet) (mode : Mode) (hadmits : o.Admits mode control) (hfuel : 0 < fuel) :
    o.Idles m mode control fuel (.error (.fault cause)) := by
  obtain ⟨fuel, rfl⟩ := Nat.exists_eq_succ_of_ne_zero (Nat.ne_of_gt hfuel)
  obtain ⟨s, hstart, hheader, hreport⟩ := o.exists_report_eq_loop m mode control
  obtain ⟨houtcome, hmachine, _, hwritten⟩ := hreport (fuel + 1)
  rw [OpenOutlet.Admits, hstart] at hadmits
  have hgo : (o.host.ask control s 0).2 = none := by
    rw [Host.ask_snd]
    exact Control.verdict_zero_eq_none hadmits
  have hsame := o.accepting.honest.toTallies.ask control s 0
  rw [loop_of_stuck h hgo] at houtcome hmachine hwritten
  exact ⟨houtcome, hmachine, o.output_eq ((hwritten.trans hsame).trans hheader)⟩

end OpenOutlet.Idles

/-- A run that ends at a fault leaves the machine before the instruction that cannot be carried
out, as the completed instructions have left it, under the strict policy; and the fault says what
it is.  From then on no session changes the machine, and every call whose flag is down and whose
budget, if it has one, allows an instruction reports the same fault.  After a good end the machine
is at the end of its code, no session changes it, and every call ends well.  Such calls write
nothing but their header.  Under the permissive policy no call of any session reports a fault, and
under neither policy does one report what loading refuses. -/
theorem faults_and_ends_are_final {source input : String} {config : MachineConfig} {m₀ : Machine}
    (hload : load source input config = .ok m₀) (calls : List Call) :
    let m := m₀.after calls
    (∀ (o : OpenOutlet) (mode : Mode) (control : Option Control) (fuel : Nat),
      let r := o.report m mode control fuel
      (∀ cause, r.outcome = some (.error (.fault cause)) →
        config.policy = .strict ∧ cause.Describes r.machine ∧
        (o.report m .plain none r.steps).steps = r.steps ∧
        (o.report m .plain none r.steps).machine = r.machine ∧
        ∀ later : List Call, r.machine.after later = r.machine ∧
          ∀ (o' : OpenOutlet) (mode' : Mode) (control' : Option Control) (fuel' : Nat),
            o'.Admits mode' control' → 0 < fuel' →
            o'.Idles (r.machine.after later) mode' control' fuel' (.error (.fault cause))) ∧
      (r.outcome = some (.ok ()) →
        r.machine.pc = r.machine.code.size ∧
        ∀ later : List Call, r.machine.after later = r.machine ∧
          ∀ (o' : OpenOutlet) (mode' : Mode) (control' : Option Control) (fuel' : Nat), 0 < fuel' →
            o'.Idles (r.machine.after later) mode' control' fuel' (.ok ()))) ∧
    ∀ call : Call,
      let r := m.run call.host call.mode call.control call.fuel call.start
      (config.policy = .permissive → ∀ cause, r.outcome ≠ some (.error (.fault cause))) ∧
      (∀ culprit, r.outcome ≠ some (.error (.unmatched culprit))) ∧
      r.outcome ≠ some (.error .noTape) := by
  intro m
  obtain ⟨hcontinues, _⟩ :=
    continues_after (isLinked_of_load hload) (pc_le_of_load hload) calls
  have hlinked := hcontinues.isLinked (isLinked_of_load hload)
  have hpolicy : m.policy = config.policy := by
    rw [hcontinues.policy, policy_of_load hload]
  refine ⟨fun o mode control fuel => ⟨fun cause hfault => ?_, fun hok => ?_⟩, fun call => ?_⟩
  · obtain ⟨bytes, hsteps, hstuck⟩ := exists_stuck_of_outcome hfault
    obtain ⟨hstrict, hdescribes⟩ := of_next_eq_stuck hstuck
    obtain ⟨hcount, hmachine, _⟩ := o.report_of_steps hsteps
    rw [hsteps.policy_eq, hpolicy] at hstrict
    have hhalted : (o.report m mode control fuel).machine.Halted :=
      halted_of_next_eq_stuck hstuck
    refine ⟨hstrict, hdescribes, hcount, hmachine, fun later => ?_⟩
    rw [after_of_halted hhalted]
    exact ⟨rfl, fun o' mode' control' fuel' hadmits hfuel =>
      .of_stuck hstuck o' mode' hadmits hfuel⟩
  · obtain ⟨bytes, hsteps, hdone⟩ := exists_done_of_outcome hok
    have hle := (continues_afterCall hlinked hcontinues.pc_le
      { host := o.host, mode, control, start := o.start, fuel }).1.pc_le
    have hhalted : (o.report m mode control fuel).machine.Halted := halted_of_next_eq_done hdone
    refine ⟨Nat.le_antisymm hle (size_le_of_next_eq_done hdone), fun later => ?_⟩
    rw [after_of_halted hhalted]
    exact ⟨rfl, fun o' mode' control' _ hfuel => .of_done hdone o' mode' control' hfuel⟩
  · refine ⟨fun hpermissive cause hfault => ?_, fun culprit hculprit => ?_, fun hnoTape => ?_⟩
    · obtain ⟨bytes, hsteps, hstuck⟩ := exists_stuck_of_outcome hfault
      have hstrict := (of_next_eq_stuck hstuck).1
      rw [hsteps.policy_eq, hpolicy, hpermissive] at hstrict
      cases hstrict
    · rcases failure_cases hculprit with ⟨_, _, h⟩ | h | ⟨_, h⟩ | ⟨_, _, h, _⟩ <;> cases h
    · rcases failure_cases hnoTape with ⟨_, _, h⟩ | h | ⟨_, h⟩ | ⟨_, _, h, _⟩ <;> cases h

theorem fault_outlasts_interruptions :
    ∃ m₀, load "+.<" "" { tapeSize := 2 } = .ok m₀ ∧
      let m := (Sink.openOutlet.report m₀ .plain none 9).machine
      (Sink.openOutlet.report m₀ .plain none 9).outcome =
        some (.error (.fault (.outOfBounds 2 0 '<'))) ∧
      Fault.Describes m (.outOfBounds 2 0 '<') ∧ m.after interrupted = m ∧
      (ScheduledOutlet.counting fun _ => false).Idles (m.after interrupted) .table
        (some { budget := some 1 }) 1 (.error (.fault (.outOfBounds 2 0 '<'))) := by
  have hload : load "+.<" "" { tapeSize := 2 } = .ok _ := rfl
  obtain ⟨_, hdescribes, _, _, hlater⟩ :=
    ((faults_and_ends_are_final hload []).1 Sink.openOutlet .plain none 9).1
      (.outOfBounds 2 0 '<') rfl
  obtain ⟨hsame, hidles⟩ := hlater interrupted
  refine ⟨_, hload, rfl, hdescribes, hsame, ?_⟩
  apply hidles (ScheduledOutlet.counting fun _ => false).toOpenOutlet .table
  · intro control hcontrol
    obtain rfl := Option.some.inj hcontrol
    exact ⟨rfl, by simp⟩
  · exact Nat.one_pos

end Brainfuck
