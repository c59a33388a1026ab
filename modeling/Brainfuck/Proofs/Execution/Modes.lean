import Brainfuck.Proofs.Execution.Transcript

/-!
# The two modes of a run

A run that writes the step table and one that writes the bytes of `.` differ in what their sinks
take and in nothing else.  Into sinks that take everything, a loop of either comes to where the
verdicts of its controls let its machine come, so two loops that start from the same machine under
the same verdicts stay together.
-/

namespace Brainfuck

namespace Machine

section Loop

variable {σ τ : Type} {host : Host σ} {host' : Host τ} {control : Option Control}
  {verdict : Nat → Option Failure} {seen : Nat → σ → Prop} {seen' : Nat → τ → Prop}
  {written : σ → List UInt8} {written' : τ → List UInt8}

/-- Loops in any two modes, into any two sinks that take everything, stay together as long as they
get the same verdicts. -/
theorem loop_agrees (hhost : host.Accepting written) (hhost' : host'.Accepting written')
    (hchecked : host.Checked control verdict seen)
    (hchecked' : host'.Checked control verdict seen') (mode mode' : Mode) (fuel : Nat) {i : Nat}
    {s : σ} {s' : τ} (hseen : seen i s) (hseen' : seen' i s') (m : Machine) :
    (loop host mode control fuel m s i).result = (loop host' mode' control fuel m s' i).result ∧
      (loop host mode control fuel m s i).machine =
        (loop host' mode' control fuel m s' i).machine := by
  obtain ⟨_, _, hreaches, _⟩ := exists_reaches_loop hhost hchecked mode fuel hseen m
  obtain ⟨_, _, hreaches', _⟩ := exists_reaches_loop hhost' hchecked' mode' fuel hseen' m
  obtain ⟨_, hmachine, hresult⟩ := hreaches.unique hreaches'
  exact ⟨hresult, hmachine⟩

end Loop

theorem exists_run_eq_loop {σ : Type} {host : Host σ} {control : Option Control}
    {verdict : Nat → Option Failure} {seen : Nat → σ → Prop} {written : σ → List UInt8}
    (hhost : host.Accepting written) (hchecked : host.Checked control verdict seen) {s : σ}
    (hseen : seen 0 s) (m : Machine) (mode : Mode) :
    ∃ s', seen 0 s' ∧ ∀ fuel,
      (m.run host mode control fuel s).outcome = (loop host mode control fuel m s' 0).result ∧
      (m.run host mode control fuel s).machine = (loop host mode control fuel m s' 0).machine := by
  obtain ⟨s', hwrite, _⟩ := hhost.writeAll s mode.header
  have hseen' := hchecked.writeAll hseen mode.header
  rw [hwrite] at hseen'
  refine ⟨s', hseen', fun fuel => ?_⟩
  rw [run, start, hwrite]
  obtain ⟨houtcome, hmachine, _⟩ := close_of_accepting hhost (loop host mode control fuel m s' 0)
  exact ⟨houtcome, hmachine⟩

theorem exists_returns_iff (o : OpenOutlet) (mode : Mode) {m m' : Machine}
    {result : Except Failure Unit} :
    (∃ s, m.Returns o.host mode none o.start result m' s) ↔
      ∃ n bytes, Steps n m bytes m' ∧ m'.next.result? = some result := by
  constructor
  · rintro ⟨_, fuel, houtcome, rfl, _⟩
    obtain ⟨hreaches, _⟩ := o.reaches (.free o.host) trivial m mode fuel
    obtain ⟨bytes, hsteps⟩ := hreaches.steps
    have hresult := hreaches.conclude_of_result houtcome
    rw [Next.conclude_none] at hresult
    exact ⟨_, bytes, hsteps, hresult⟩
  · rintro ⟨n, bytes, hsteps, hresult⟩
    have hconclude : m'.next.conclude none = some result := by rw [Next.conclude_none, hresult]
    obtain ⟨hreaches, _⟩ := o.reaches (.free o.host) trivial m mode (n + 1)
    obtain ⟨_, hmachine, houtcome⟩ :=
      hreaches.unique (.of_conclude hsteps (fun _ _ => rfl) hconclude (Nat.lt_succ_self n))
    exact ⟨_, n + 1, houtcome, hmachine, rfl⟩

variable {schedule : Nat → Bool}

/-- A run that writes the step table and a plain run, from the same machine, under the same budget
and the same readings of the cancel flag, either both never return, or both return the same result
and leave the same machine behind; and at no number of turns do they differ. -/
theorem table_run_agrees_with_plain_run (m : Machine) (control : Option Control)
    (table plain : ScheduledOutlet schedule) :
    (∀ fuel,
      (table.report m .table control fuel).outcome = (plain.report m .plain control fuel).outcome ∧
      (table.report m .table control fuel).machine =
        (plain.report m .plain control fuel).machine) ∧
    ((∀ fuel, (table.report m .table control fuel).outcome = none) ∧
        (∀ fuel, (plain.report m .plain control fuel).outcome = none) ∨
      ∃ result after s s', m.Returns table.host .table control table.start result after s ∧
        m.Returns plain.host .plain control plain.start result after s') := by
  obtain ⟨seen, hchecked, hseen⟩ := table.exists_checked control
  obtain ⟨seen', hchecked', hseen'⟩ := plain.exists_checked control
  obtain ⟨s, hone, hrun⟩ := exists_run_eq_loop table.accepting hchecked hseen m .table
  obtain ⟨s', hone', hrun'⟩ := exists_run_eq_loop plain.accepting hchecked' hseen' m .plain
  have hsame : ∀ fuel,
      (table.report m .table control fuel).outcome = (plain.report m .plain control fuel).outcome ∧
      (table.report m .table control fuel).machine =
        (plain.report m .plain control fuel).machine := by
    intro fuel
    obtain ⟨hresult, hmachine⟩ := loop_agrees table.accepting plain.accepting hchecked hchecked'
      .table .plain fuel hone hone' m
    exact ⟨(hrun fuel).1.trans (hresult.trans (hrun' fuel).1.symm),
      (hrun fuel).2.trans (hmachine.trans (hrun' fuel).2.symm)⟩
  refine ⟨hsame, ?_⟩
  by_cases hreturns : ∃ fuel result, (plain.report m .plain control fuel).outcome = some result
  · obtain ⟨fuel, result, houtcome⟩ := hreturns
    obtain ⟨hresult, hmachine⟩ := hsame fuel
    exact .inr ⟨result, _, _, _, ⟨fuel, hresult.trans houtcome, hmachine, rfl⟩,
      ⟨fuel, houtcome, rfl, rfl⟩⟩
  · have hnone : ∀ fuel, (plain.report m .plain control fuel).outcome = none := by
      intro fuel
      rw [Option.eq_none_iff_forall_ne_some]
      exact fun result houtcome => hreturns ⟨fuel, result, houtcome⟩
    exact .inl ⟨fun fuel => (hsame fuel).1.trans (hnone fuel), hnone⟩

end Machine

end Brainfuck
