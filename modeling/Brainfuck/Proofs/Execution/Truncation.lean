import Brainfuck.Proofs.Execution.Outlet
import Mathlib.Data.ENat.Lattice
import Mathlib.Order.CompletePartialOrder

/-!
# Controlled runs cut runs short

The duration of a run is the number of instructions that it completes without controls, infinite if
it goes on for ever.  A controlled run completes the least of the duration, the number of checks
before the cancel flag is up, and the budget.  Which of the three it is decides the result, and
where two of them meet, the end of the code comes before the controls, the flag before the budget,
and both before a fault.
-/

namespace Brainfuck

open Machine

/-- The number of instructions that a plain run without controls completes. -/
noncomputable def OpenOutlet.duration (o : OpenOutlet) (m : Machine) : ℕ∞ :=
  ⨆ fuel : ℕ, ((o.report m .plain none fuel).steps : ℕ∞)

def Control.limit (control : Control) : ℕ∞ :=
  match control.budget with
  | none => ⊤
  | some limit => limit

/-! ## Durations -/

namespace OpenOutlet

variable {o : OpenOutlet} {m m' : Machine} {n : ℕ} {bytes : List UInt8}

theorem le_duration_iff : n ≤ o.duration m ↔ ∃ bytes m', Steps n m bytes m' := by
  constructor
  · intro hle
    by_contra hnot
    cases n with
    | zero => exact hnot ⟨[], m, .refl m⟩
    | succ n =>
        have hbound : o.duration m ≤ n := by
          refine iSup_le fun fuel => ?_
          rw [Nat.cast_le]
          by_contra hlt
          obtain ⟨i, hi⟩ := Nat.exists_eq_add_of_le (Nat.not_le.1 hlt)
          have hsteps := (o.course_free m fuel).steps
          rw [hi] at hsteps
          exact hnot hsteps.exists_first
        have hsucc := Nat.cast_le.1 (hle.trans hbound)
        omega
  · rintro ⟨bytes, m', hsteps⟩
    have hcount := (o.report_of_steps hsteps).1
    calc (n : ℕ∞) = ((o.report m .plain none n).steps : ℕ∞) := by rw [hcount]
      _ ≤ o.duration m := le_iSup (fun fuel => ((o.report m .plain none fuel).steps : ℕ∞)) n

theorem duration_eq_iff (h : Steps n m bytes m') : o.duration m = n ↔ m'.Halted := by
  constructor
  · intro hduration
    by_contra hnot
    obtain ⟨next, after, hnext⟩ := exists_step_of_not_halted hnot
    have hmore : ((n + 1 : ℕ) : ℕ∞) ≤ o.duration m :=
      le_duration_iff.2 ⟨_, after, h.trans (.one hnext)⟩
    rw [hduration] at hmore
    have hsucc := Nat.cast_le.1 hmore
    omega
  · intro hhalted
    refine le_antisymm (iSup_le fun fuel => ?_) (le_duration_iff.2 ⟨bytes, m', h⟩)
    obtain ⟨i, _, hn, _⟩ := (o.course_free m fuel).steps.rest_of_halted h hhalted
    rw [Nat.cast_le]
    omega

theorem duration_of_outcome {fuel : ℕ} {result : Except Failure Unit}
    (h : (o.report m .plain none fuel).outcome = some result) :
    o.duration m = (o.report m .plain none fuel).steps := by
  have hcourse := o.course_free m fuel
  have hconclude := (hcourse.of_result o.accepting h).2
  rw [Next.conclude_none] at hconclude
  exact (duration_eq_iff hcourse.steps).2 ⟨result, hconclude⟩

end OpenOutlet

/-! ## Verdicts of a flag that goes up once -/

def raisedFrom (k : ℕ∞) (i : ℕ) : Bool :=
  decide (k ≤ i)

namespace Control

variable {k : ℕ∞} {control : Control} {i limit : ℕ}

theorem limit_of_budget (h : control.budget = some limit) : control.limit = limit := by
  rw [Control.limit, h]

theorem verdict_of_flag (h : k ≤ i) :
    verdict (raisedFrom k) i (some control) = some .canceled := by
  simp [verdict, raisedFrom, h]

theorem verdict_of_limit (hflag : i < k) (hbudget : control.budget = some limit)
    (hlimit : limit ≤ i) :
    verdict (raisedFrom k) i (some control) = some (.stepLimit limit) := by
  simp [verdict, raisedFrom, hflag, hbudget, hlimit]

theorem verdict_eq_none (hflag : i < k) (hlimit : i < control.limit) :
    verdict (raisedFrom k) i (some control) = none := by
  have hdown : ¬k ≤ i := not_le.2 hflag
  cases hbudget : control.budget with
  | none => simp [verdict, raisedFrom, hdown, hbudget]
  | some limit =>
      rw [limit_of_budget hbudget, Nat.cast_lt] at hlimit
      simp [verdict, raisedFrom, hdown, hbudget, hlimit]

theorem verdict_cases (k : ℕ∞) (control : Control) (i : ℕ) :
    (k ≤ i ∧ verdict (raisedFrom k) i (some control) = some .canceled) ∨
      (∃ limit, i < k ∧ control.budget = some limit ∧ limit ≤ i ∧
        verdict (raisedFrom k) i (some control) = some (.stepLimit limit)) ∨
      (i < k ∧ i < control.limit ∧ verdict (raisedFrom k) i (some control) = none) := by
  rcases le_or_gt k i with hflag | hflag
  · exact .inl ⟨hflag, verdict_of_flag hflag⟩
  · rcases le_or_gt control.limit i with hlimit | hlimit
    · cases hbudget : control.budget with
      | none =>
          rw [Control.limit, hbudget] at hlimit
          exact absurd (top_le_iff.1 hlimit) (ENat.natCast_ne_top i)
      | some limit =>
          rw [limit_of_budget hbudget, Nat.cast_le] at hlimit
          exact .inr (.inl ⟨limit, hflag, rfl, hlimit, verdict_of_limit hflag hbudget hlimit⟩)
    · exact .inr (.inr ⟨hflag, hlimit, verdict_eq_none hflag hlimit⟩)

theorem lt_of_verdict_eq_none (h : verdict (raisedFrom k) i (some control) = none) :
    i < k ∧ i < control.limit := by
  rcases verdict_cases k control i with
    ⟨_, hverdict⟩ | ⟨limit, _, _, _, hverdict⟩ | ⟨hflag, hlimit, _⟩
  · exact absurd (hverdict.symm.trans h) (Option.some_ne_none _)
  · exact absurd (hverdict.symm.trans h) (Option.some_ne_none _)
  · exact ⟨hflag, hlimit⟩

end Control

/-! ## Controlled runs -/

theorem natCast_le_of_forall_lt {n : ℕ} {k : ℕ∞} (h : ∀ j < n, (j : ℕ∞) < k) : n ≤ k := by
  cases n with
  | zero => exact bot_le
  | succ n =>
      rw [Nat.cast_succ]
      exact Order.add_one_le_of_lt (h n (Nat.lt_succ_self n))

section Controlled

variable {k : ℕ∞} (free : OpenOutlet) (outlet : ScheduledOutlet (raisedFrom k)) {m : Machine}
  {control : Control} {fuel n : ℕ}

theorem course_controlled (m : Machine) (control : Control) (fuel : ℕ) :
    Course outlet.host outlet.written
      (fun i => Control.verdict (raisedFrom k) i (some control)) fuel 0 m outlet.start
      (outlet.report m .plain (some control) fuel).summary
      (outlet.report m .plain (some control) fuel).steps
      (outlet.output (outlet.report m .plain (some control) fuel)) :=
  outlet.toOutlet.course (.of_scheduled outlet.scheduled control) outlet.ready m fuel

theorem steps_controlled_le (m : Machine) (control : Control) (fuel : ℕ) :
    (outlet.report m .plain (some control) fuel).steps ≤
      min (free.duration m) (min k control.limit) := by
  have hcourse := course_controlled outlet m control fuel
  have hfree : ∀ j < (outlet.report m .plain (some control) fuel).steps,
      (j : ℕ∞) < k ∧ (j : ℕ∞) < control.limit := by
    intro j hj
    have hnone := hcourse.free j hj
    rw [Nat.zero_add] at hnone
    exact Control.lt_of_verdict_eq_none hnone
  exact le_min (OpenOutlet.le_duration_iff.2 ⟨_, _, hcourse.steps⟩)
    (le_min (natCast_le_of_forall_lt fun j hj => (hfree j hj).1)
      (natCast_le_of_forall_lt fun j hj => (hfree j hj).2))

/-- A controlled run that returns was ended by the code, the flag or the budget, so it has completed
no less than the least of the three. -/
theorem controlled_of_outcome {result : Except Failure Unit}
    (h : (outlet.report m .plain (some control) fuel).outcome = some result) :
    ((outlet.report m .plain (some control) fuel).steps : ℕ∞) =
        min (free.duration m) (min k control.limit) ∧
      (outlet.report m .plain (some control) fuel).machine.next.conclude
        (Control.verdict (raisedFrom k) (outlet.report m .plain (some control) fuel).steps
          (some control)) = some result := by
  have hcourse := course_controlled outlet m control fuel
  have hconclude := (hcourse.of_result outlet.accepting h).2
  refine ⟨le_antisymm (steps_controlled_le free outlet m control fuel) ?_, hconclude⟩
  rw [min_le_iff, min_le_iff]
  -- which of the three is reached is what the controls say after the last instruction
  rcases Control.verdict_cases k control (outlet.report m .plain (some control) fuel).steps with
    ⟨hflag, _⟩ | ⟨limit, _, hbudget, hlimit, _⟩ | ⟨_, _, hverdict⟩
  · exact .inr (.inl hflag)
  · rw [Control.limit_of_budget hbudget]
    exact .inr (.inr (Nat.cast_le.2 hlimit))
  · rw [hverdict, Next.conclude_none] at hconclude
    exact .inl ((free.duration_eq_iff hcourse.steps).2 ⟨result, hconclude⟩).le

theorem exists_outcome_controlled (hcut : min (free.duration m) (min k control.limit) = n)
    (hfuel : n < fuel) :
    ∃ result, (outlet.report m .plain (some control) fuel).outcome = some result := by
  have hle := steps_controlled_le free outlet m control fuel
  rw [hcut, Nat.cast_le] at hle
  rcases (course_controlled outlet m control fuel).ending with ⟨hcount, _⟩ | ⟨_, result, hresult, _⟩
  · omega
  · exact ⟨result, hresult⟩

section Result

variable {bytes : List UInt8} {m' : Machine}
  (hcut : min (free.duration m) (min k control.limit) = n) (hsteps : Steps n m bytes m')

include hcut

/-- A run that neither comes to the end of its code nor faults is ended by the flag or by the
budget, whichever comes first. -/
theorem conclude_cases {result : Except Failure Unit}
    (hresult : m'.next.conclude (Control.verdict (raisedFrom k) n (some control)) =
      some result) :
    result = .ok () ∨ (∃ cause, result = .error (.fault cause)) ∨
      (k ≤ control.limit ∧ result = .error .canceled) ∨
      ∃ limit, control.budget = some limit ∧ (limit : ℕ∞) < k ∧
        result = .error (.stepLimit limit) := by
  have hle := hcut.ge
  rw [le_min_iff, le_min_iff] at hle
  rcases Control.verdict_cases k control n with
    ⟨hflag, hverdict⟩ | ⟨limit, hflag, hbudget, hlimit, hverdict⟩ | ⟨_, _, hverdict⟩
  · rw [hverdict] at hresult
    rcases Next.of_conclude_some hresult with ⟨_, hok⟩ | ⟨_, hstopped⟩
    · exact .inl hok
    · exact .inr (.inr (.inl ⟨hflag.trans hle.2.2, hstopped⟩))
  · rw [hverdict] at hresult
    rcases Next.of_conclude_some hresult with ⟨_, hok⟩ | ⟨_, hstopped⟩
    · exact .inl hok
    · have hlt : (limit : ℕ∞) < k := (Nat.cast_le.2 hlimit).trans_lt hflag
      exact .inr (.inr (.inr ⟨limit, hbudget, hlt, hstopped⟩))
  · rw [hverdict, Next.conclude_none] at hresult
    rcases Next.ok_or_fault hresult with hok | hfault
    · exact .inl hok
    · exact .inr (.inl hfault)

include hsteps

theorem conclude_eq_ok_iff :
    m'.next.conclude (Control.verdict (raisedFrom k) n (some control)) = some (.ok ()) ↔
      (∃ f, (free.report m .plain none f).outcome = some (.ok ())) ∧
        free.duration m ≤ k ∧ free.duration m ≤ control.limit := by
  constructor
  · intro hok
    have hdone : m'.next.result? = some (.ok ()) := by
      rw [Next.eq_done_of_conclude hok]
      rfl
    have hduration := (free.duration_eq_iff hsteps).2 ⟨_, hdone⟩
    have hle := hcut.ge
    rw [le_min_iff, le_min_iff] at hle
    rw [hduration]
    exact ⟨free.exists_outcome_iff.2 ⟨n, bytes, m', hsteps, hdone⟩, hle.2⟩
  · rintro ⟨hends, hk, hlimit⟩
    obtain ⟨t, rest, last, hlast, hok⟩ := free.exists_outcome_iff.1 hends
    have hduration := (free.duration_eq_iff hlast).2 ⟨_, hok⟩
    rw [min_eq_left (le_min hk hlimit), hduration, Nat.cast_inj] at hcut
    subst hcut
    obtain ⟨rfl, _⟩ := hlast.unique hsteps
    rw [← Next.conclude_none] at hok
    rw [Next.eq_done_of_conclude hok]
    rfl

theorem conclude_eq_fault_iff (cause : Fault) :
    m'.next.conclude (Control.verdict (raisedFrom k) n (some control)) =
        some (.error (.fault cause)) ↔
      (∃ f, (free.report m .plain none f).outcome = some (.error (.fault cause))) ∧
        free.duration m < k ∧ free.duration m < control.limit := by
  constructor
  · intro hfault
    have hverdict := Next.eq_none_of_conclude_fault hfault (Control.verdict_ne_fault _ _ _ _)
    rw [hverdict, Next.conclude_none] at hfault
    rw [(free.duration_eq_iff hsteps).2 ⟨_, hfault⟩]
    exact ⟨free.exists_outcome_iff.2 ⟨n, bytes, m', hsteps, hfault⟩,
      Control.lt_of_verdict_eq_none hverdict⟩
  · rintro ⟨hends, hk, hlimit⟩
    obtain ⟨t, rest, last, hlast, hfault⟩ := free.exists_outcome_iff.1 hends
    have hduration := (free.duration_eq_iff hlast).2 ⟨_, hfault⟩
    rw [hduration] at hk hlimit
    rw [hduration, min_eq_left (le_min hk.le hlimit.le), Nat.cast_inj] at hcut
    subst hcut
    obtain ⟨rfl, _⟩ := hlast.unique hsteps
    rw [Control.verdict_eq_none hk hlimit, Next.conclude_none]
    exact hfault

end Result

/-- A run under controls is the run without them, cut off after the least of three numbers: that of
the instructions it completes, that of the checks before the flag is up, and the budget.  It returns
exactly if one of them is finite. -/
theorem controlled_run_truncates (m : Machine) (k : ℕ∞) (control : Control) (free : OpenOutlet)
    (outlet : ScheduledOutlet (raisedFrom k)) :
    let T := free.duration m
    let run := free.report m .plain none
    let cut := outlet.report m .plain (some control)
    ((∃ fuel result, (cut fuel).outcome = some result) ↔ min T (min k control.limit) ≠ ⊤) ∧
    ∀ n : ℕ, min T (min k control.limit) = n → ∀ fuel > n,
      (cut fuel).steps = n ∧ (run n).steps = n ∧ (cut fuel).machine = (run n).machine ∧
      outlet.output (cut fuel) = free.output (run n) ∧
      ((cut fuel).outcome = some (.ok ()) ↔
        (∃ f, (run f).outcome = some (.ok ())) ∧ T ≤ k ∧ T ≤ control.limit) ∧
      (∀ cause, (cut fuel).outcome = some (.error (.fault cause)) ↔
        (∃ f, (run f).outcome = some (.error (.fault cause))) ∧ T < k ∧ T < control.limit) ∧
      ((cut fuel).outcome = some (.ok ()) ∨
        (∃ cause, (cut fuel).outcome = some (.error (.fault cause))) ∨
        k ≤ control.limit ∧ (cut fuel).outcome = some (.error .canceled) ∨
        ∃ limit, control.budget = some limit ∧ (limit : ℕ∞) < k ∧
          (cut fuel).outcome = some (.error (.stepLimit limit))) := by
  intro T run cut
  constructor
  · constructor
    · rintro ⟨fuel, result, houtcome⟩
      rw [← (controlled_of_outcome free outlet houtcome).1]
      exact ENat.natCast_ne_top _
    · intro hfinite
      obtain ⟨n, hn⟩ := ENat.ne_top_iff_exists.1 hfinite
      exact ⟨n + 1, exists_outcome_controlled free outlet hn.symm (Nat.lt_succ_self n)⟩
  · intro n hcut fuel hfuel
    obtain ⟨result, houtcome⟩ := exists_outcome_controlled free outlet hcut hfuel
    obtain ⟨hcount, hconclude⟩ := controlled_of_outcome free outlet houtcome
    rw [hcut, Nat.cast_inj] at hcount
    have hsteps := (course_controlled outlet m control fuel).steps
    rw [hcount] at hsteps hconclude
    obtain ⟨hruns, hmachine, houtput⟩ := free.report_of_steps hsteps
    have hresult : (cut fuel).outcome =
        (cut fuel).machine.next.conclude (Control.verdict (raisedFrom k) n (some control)) :=
      houtcome.trans hconclude.symm
    refine ⟨hcount, hruns, hmachine.symm, houtput.symm, ?_, fun cause => ?_, ?_⟩
    · rw [hresult]
      exact conclude_eq_ok_iff free hcut hsteps
    · rw [hresult]
      exact conclude_eq_fault_iff free hcut hsteps cause
    · simp only [cut, houtcome, Option.some.injEq]
      exact conclude_cases free hcut hconclude

end Controlled

/-- Where the end of the code, the flag and the budget meet, the end of the code comes first. -/
theorem truncated_at_end_of_code :
    ∃ m, load ",." "\x02" { tapeSize := 1, feedMode := .stream } = .ok m ∧
      Sink.openOutlet.duration m = (2 : ℕ) ∧
      ((ScheduledOutlet.counting (raisedFrom (2 : ℕ))).report m .plain
        (some { budget := some 2 }) 3).outcome = some (.ok ()) := by
  obtain ⟨m, hload, hreturns, hcount⟩ :
      ∃ m, load ",." "\x02" { tapeSize := 1, feedMode := .stream } = .ok m ∧
        (Sink.openOutlet.report m .plain none 3).outcome = some (.ok ()) ∧
        (Sink.openOutlet.report m .plain none 3).steps = 2 := ⟨_, rfl, rfl, rfl⟩
  have hduration := OpenOutlet.duration_of_outcome hreturns
  rw [hcount] at hduration
  have hcut : min (Sink.openOutlet.duration m) (min ((2 : ℕ) : ℕ∞)
      (Control.limit { budget := some 2 })) = (2 : ℕ) := by
    rw [hduration, Control.limit, min_self, min_self]
  obtain ⟨_, _, _, _, hok, _⟩ := (controlled_run_truncates m (2 : ℕ) { budget := some 2 }
    Sink.openOutlet (.counting _)).2 2 hcut 3 (Nat.lt_succ_self 2)
  exact ⟨m, hload, hduration, hok.2 ⟨⟨3, hreturns⟩, hduration.le, hduration.le⟩⟩

end Brainfuck
