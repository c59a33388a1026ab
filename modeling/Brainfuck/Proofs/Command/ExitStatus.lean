import Brainfuck.Proofs.Command.Resolution
import Brainfuck.Proofs.Command.Sequential
import Brainfuck.Proofs.Execution.Uninterrupted

/-!
# Exit status and output

A call of `run` can fail in several ways at once, and the first that is looked at decides: how the
code is given, then the texts, then the settings, then the brackets, and only then the machine runs.
`Stopped` has a case for each but the last, and in none of them anything has been put out.  Where a
machine runs, the status and the output are those of its run, and any other call of the machine with
the same budget would have come to the same, into whatever outlet.
-/

namespace Brainfuck

open Machine

/-! ## Requests -/

namespace RunRequest

/-- The code is given in neither of the two ways, or in both. -/
def Misused (r : RunRequest) : Prop :=
  r.file.isSome = true ↔ r.code ≠ []

def mode (r : RunRequest) : Mode :=
  if r.table then .table else .plain

end RunRequest

namespace World

variable {w : World} {r : RunRequest} {source source' input input' : String} {s s' : Settings}
  {m m' : Machine} {fuel : Nat} {o : Outcome}

theorem misused_of_hasCode_eq_false (h : hasCode r.file r.code = false) : r.Misused := by
  simp only [hasCode, Bool.or_eq_false_iff, Bool.not_eq_false', List.isEmpty_iff] at h
  simp [RunRequest.Misused, h]

theorem CodeOf.not_misused (h : w.CodeOf r.file r.code source) : ¬r.Misused := by
  generalize hfile : r.file = file at h
  generalize hparts : r.code = parts at h
  cases h with
  | parts hne => simpa [RunRequest.Misused, hfile, hparts] using hne
  | file => simp [RunRequest.Misused, hfile, hparts]

theorem of_readCode_eq_error (h : w.readCode r.file r.code = .error o) :
    (r.Misused ∧ o.status = 2 ∨ ¬r.Misused ∧ o.status = 1) ∧ o.stdout = [] := by
  cases hfile : r.file with
  | none =>
      rw [hfile] at h
      cases h
  | some path =>
      cases hparts : r.code with
      | nil =>
          rw [hfile, hparts] at h
          simp only [readCode, List.isEmpty_nil, if_true] at h
          split at h
          · cases h
          · obtain rfl := Except.error.inj h
            exact ⟨.inr ⟨by simp [RunRequest.Misused, hfile, hparts], rfl⟩, rfl⟩
      | cons part parts =>
          rw [hfile, hparts] at h
          obtain rfl := Except.error.inj h
          exact ⟨.inl ⟨by simp [RunRequest.Misused, hfile, hparts], rfl⟩, rfl⟩

theorem of_readInput_eq_error {text file : Option String} (h : w.readInput text file = .error o) :
    o.status = 1 ∧ o.stdout = [] := by
  unfold readInput at h
  split at h
  · cases h
  · cases h
  · split at h
    · cases h
    · obtain rfl := Except.error.inj h
      exact ⟨rfl, rfl⟩

/-! ## How far a call gets -/

structure Launches (w : World) (r : RunRequest) (source input : String) (s : Settings)
    (m : Machine) : Prop where
  reads : w.Reads r source input
  accepted : ¬w.RefusesSettings r.flags
  resolved : w.Resolves r.flags s
  balanced : Balanced (brackets source.toList)
  loaded : load source input
    { tapeSize := s.tapeSize, policy := s.policy, feedMode := s.feedMode } = .ok m

/-- Why a call of `run` that does not ask for help comes to an outcome without running a machine, in
the order in which things are looked at. -/
inductive Stopped (w : World) (r : RunRequest) (o : Outcome) : Prop
  | misused (h : r.Misused) (hstatus : o.status = 2) (hstdout : o.stdout = [])
  | unread (hused : ¬r.Misused) (h : ∀ source input, ¬w.Reads r source input)
      (hstatus : o.status = 1) (hstdout : o.stdout = [])
  | refused {source input : String} (hreads : w.Reads r source input)
      (h : w.RefusesSettings r.flags) (hstatus : o.status = 2) (hstdout : o.stdout = [])
  | unbalanced {source input : String} (hreads : w.Reads r source input)
      (haccepted : ¬w.RefusesSettings r.flags) (h : ¬Balanced (brackets source.toList))
      (hstatus : o.status = 1) (hstdout : o.stdout = [])

inductive Fate (w : World) (r : RunRequest) : Prop
  | stopped {o : Outcome} (h : w.Stopped r o) (hrun : ∀ fuel, w.run fuel r = some o)
  | launched {source input : String} {p : Prepared}
      (h : w.Launches r source input p.settings p.machine) (hmode : p.mode = r.mode)
      (hprepare : w.prepare r = .ok p) (hrun : ∀ fuel, w.run fuel r = p.run w fuel)

theorem Reads.unique (h : w.Reads r source input) (h' : w.Reads r source' input') :
    source = source' ∧ input = input' :=
  ⟨Except.ok.inj (h.readCode.symm.trans h'.readCode),
    Except.ok.inj (h.readInput.symm.trans h'.readInput)⟩

theorem Launches.settings (h : w.Launches r source input s m) :
    (w.settings r.flags).2 = .ok s :=
  settings_eq_ok_iff.2 ⟨h.accepted, h.resolved⟩

theorem Launches.unique (h : w.Launches r source input s m)
    (h' : w.Launches r source' input' s' m') : s = s' ∧ m = m' := by
  obtain ⟨rfl, rfl⟩ := h.reads.unique h'.reads
  obtain rfl := Except.ok.inj (h.settings.symm.trans h'.settings)
  exact ⟨rfl, Except.ok.inj (h.loaded.symm.trans h'.loaded)⟩

theorem Reads.fate (h : w.Reads r source input) : w.Fate r := by
  cases hsettings : (w.settings r.flags).2 with
  | error e =>
      have hprepare := h.prepare_of_settings_eq_error hsettings
      have hrefused := exists_settings_eq_error_iff.1 ⟨e, hsettings⟩
      exact .stopped (.refused h hrefused rfl rfl) (h.run_of_prepare_eq_error hprepare)
  | ok s =>
      obtain ⟨haccepted, hresolved⟩ := settings_eq_ok_iff.1 hsettings
      cases hbrackets : checkBrackets source with
      | error u =>
          have hprepare := h.prepare_of_unmatched hsettings hbrackets
          have hunbalanced : ¬Balanced (brackets source.toList) := by
            intro hbalanced
            cases hbrackets.symm.trans ((checkBrackets_eq_ok_iff source).2 hbalanced)
          exact .stopped (.unbalanced h haccepted hunbalanced rfl rfl)
            (h.run_of_prepare_eq_error hprepare)
      | ok =>
          obtain ⟨m, hload, hprepare⟩ := h.exists_prepare hsettings hbrackets
          have hbalanced := (checkBrackets_eq_ok_iff source).1 hbrackets
          exact .launched ⟨h, haccepted, hresolved, hbalanced, hload⟩ rfl hprepare
            (h.run_of_prepare_eq_ok hprepare)

theorem fate (w : World) (hhelp : r.help = false) : w.Fate r := by
  cases hgiven : hasCode r.file r.code with
  | false =>
      have hrun (fuel : Nat) :
          w.run fuel r = some { status := 2, message := runUsageText w.program } := by
        simp [run, hhelp, hgiven]
      exact .stopped (.misused (misused_of_hasCode_eq_false hgiven) rfl rfl) hrun
  | true =>
      have hrefused {o : Outcome} (hprepare : w.prepare r = .error o) (fuel : Nat) :
          w.run fuel r = some o := by
        simp [run, hhelp, hgiven, hprepare]
      cases hcode : w.readCode r.file r.code with
      | error o =>
          have hprepare : w.prepare r = .error o := by
            simp only [prepare, hcode, bind, Except.bind]
          refine .stopped ?_ (hrefused hprepare)
          obtain ⟨⟨hmisused, hstatus⟩ | ⟨hused, hstatus⟩, hstdout⟩ := of_readCode_eq_error hcode
          · exact .misused hmisused hstatus hstdout
          · refine .unread hused (fun source input h => ?_) hstatus hstdout
            cases hcode.symm.trans h.readCode
      | ok source =>
          have hsource := (readCode_eq_ok_iff hgiven).1 hcode
          cases hinput : (w.afterReading r.file).readInput r.input r.inputFile with
          | error o =>
              have hprepare : w.prepare r = .error o := by
                simp only [prepare, hcode, hinput, bind, Except.bind]
              refine .stopped ?_ (hrefused hprepare)
              obtain ⟨hstatus, hstdout⟩ := of_readInput_eq_error hinput
              refine .unread hsource.not_misused (fun source input h => ?_) hstatus hstdout
              cases hinput.symm.trans h.readInput
          | ok input => exact Reads.fate ⟨hhelp, hsource, readInput_eq_ok_iff.1 hinput⟩

/-! ## Runs that nobody interrupts -/

/-- No timeout and no interrupt raises the cancel flag before the run has read it for the last time.
-/
def Undisturbed (w : World) (r : RunRequest) (fuel : Nat) : Prop :=
  ∀ p, w.prepare r = .ok p → ∀ n, p.alarm w = some n →
    let report := p.machine.run (Console.host w.stdout (p.alarm w)) p.mode (some p.control) fuel {}
    report.host.checks ≤ n

theorem undisturbed_of_quiet (hexpiry : ∀ ms, w.expiry ms = none) (hinterrupt : w.interrupt = none)
    (r : RunRequest) (fuel : Nat) : w.Undisturbed r fuel := by
  intro p _ n halarm
  have hdeadline : p.deadline w = none := by
    cases htime : p.settings.timeoutMs with
    | none => rw [Prepared.deadline, htime]; rfl
    | some ms => rw [Prepared.deadline, htime]; exact hexpiry ms
  rw [Prepared.alarm, hdeadline, hinterrupt] at halarm
  cases halarm

/-- A run that has ended undisturbed was not canceled, and its outcome is what it has returned and
written. -/
theorem Undisturbed.exists_result (hundisturbed : w.Undisturbed r fuel)
    (hdevice : w.stdout.refusal = none) {p : Prepared} (hprepare : w.prepare r = .ok p)
    (hrun : p.run w fuel = some o) :
    let outlet := Console.outlet (p.alarm w)
    let report := outlet.report p.machine p.mode (some p.control) fuel
    ∃ result, report.outcome = some result ∧ result ≠ .error .canceled ∧
      (o.status = 0 ∧ result = .ok () ∨ o.status = 1 ∧ result ≠ .ok ()) ∧
      o.stdout = outlet.output report := by
  intro outlet report
  have hquiet := hundisturbed p hprepare
  rw [Device.eq_of_refusal_eq_none hdevice] at hquiet
  rw [Prepared.run, Device.eq_of_refusal_eq_none hdevice] at hrun
  obtain ⟨result, houtcome⟩ := Prepared.exists_outcome_of_conclude hrun
  have hreport : report.outcome = some result := houtcome
  rw [Prepared.conclude_eq_exit _ _ _ houtcome] at hrun
  obtain rfl := Option.some.inj hrun
  refine ⟨result, hreport, ?_, ?_, ?_⟩
  · -- A canceled run has counted the check at which the flag was up.
    rintro rfl
    have hcanceled : report.result = some (.error .canceled) := by
      rcases Report.result_of_outcome_eq_error hreport with hresult | ⟨_, _, hio⟩
      · exact hresult
      · cases hio
    obtain ⟨n, halarm, hlt⟩ := (Option.any_eq_true _ _).1 (lt_checks_of_canceled_run hcanceled)
    exact absurd (of_decide_eq_true hlt) (Nat.not_lt.2 (hquiet n halarm))
  · cases result with
    | ok => exact .inl ⟨rfl, rfl⟩
    | error failure =>
        refine .inr ⟨rfl, ?_⟩
        rintro ⟨⟩
  · have hempty := Console.buffer_eq_empty_of_outcome houtcome
    calc
      report.host.sent.toList = report.host.written :=
        (Console.written_of_buffer_eq_empty hempty).symm
      _ = outlet.output report := (outlet.output_eq (List.nil_append _).symm).symm

/-! ## The contract -/

def libraryCall (outlet : ScheduledOutlet fun _ => false) (r : RunRequest) (s : Settings)
    (m : Machine) (k : Nat) : Report outlet.σ :=
  outlet.report m r.mode (some { budget := s.maxSteps }) k

structure Contract (w : World) (r : RunRequest) (outlet : ScheduledOutlet fun _ => false)
    (o : Outcome) : Prop where
  /-- The code is given wrongly, or the texts are read and the settings are refused. -/
  status_eq_two_iff : o.status = 2 ↔
    r.Misused ∨ (∃ source input, w.Reads r source input) ∧ w.RefusesSettings r.flags
  /-- A machine is launched, and the library call returns no error. -/
  status_eq_zero_iff : o.status = 0 ↔
    ∃ source input s m, w.Launches r source input s m ∧
      ∃ k, (libraryCall outlet r s m k).outcome = some (.ok ())
  status_eq_one_of_ne : o.status ≠ 0 → o.status ≠ 2 → o.status = 1
  stdout_eq_nil : (¬∃ source input s m, w.Launches r source input s m) → o.stdout = []
  /-- The library call returns, and whatever it returns, its output is all that is put out. -/
  stdout_eq_output : ∀ source input s m, w.Launches r source input s m →
    (∃ k, (libraryCall outlet r s m k).outcome ≠ none) ∧
    ∀ k, (libraryCall outlet r s m k).outcome ≠ none →
      o.stdout = outlet.output (libraryCall outlet r s m k)

namespace Stopped

theorem status_and_stdout (h : w.Stopped r o) :
    (o.status = 1 ∨ o.status = 2) ∧ o.stdout = [] := by
  cases h with
  | misused _ hstatus hstdout => exact ⟨.inr hstatus, hstdout⟩
  | unread _ _ hstatus hstdout => exact ⟨.inl hstatus, hstdout⟩
  | refused _ _ hstatus hstdout => exact ⟨.inr hstatus, hstdout⟩
  | unbalanced _ _ _ hstatus hstdout => exact ⟨.inl hstatus, hstdout⟩

theorem not_launches (h : w.Stopped r o) : ¬∃ source input s m, w.Launches r source input s m := by
  rintro ⟨source, input, s, m, hlaunches⟩
  cases h with
  | misused hmisused => exact hlaunches.reads.code.not_misused hmisused
  | unread _ hunread => exact hunread source input hlaunches.reads
  | refused _ hrefused => exact hlaunches.accepted hrefused
  | unbalanced hreads _ hunbalanced =>
      obtain ⟨rfl, _⟩ := hreads.unique hlaunches.reads
      exact hunbalanced hlaunches.balanced

theorem status_eq_two_iff (h : w.Stopped r o) :
    o.status = 2 ↔
      r.Misused ∨ (∃ source input, w.Reads r source input) ∧ w.RefusesSettings r.flags := by
  cases h with
  | misused hmisused hstatus => exact iff_of_true hstatus (.inl hmisused)
  | unread hused hunread hstatus =>
      refine iff_of_false (by omega) ?_
      rintro (hmisused | ⟨⟨source, input, hreads⟩, _⟩)
      · exact hused hmisused
      · exact hunread source input hreads
  | refused hreads hrefused hstatus =>
      exact iff_of_true hstatus (.inr ⟨⟨_, _, hreads⟩, hrefused⟩)
  | unbalanced hreads haccepted _ hstatus =>
      refine iff_of_false (by omega) ?_
      rintro (hmisused | ⟨_, hrefused⟩)
      · exact hreads.code.not_misused hmisused
      · exact haccepted hrefused

theorem contract (h : w.Stopped r o) (outlet : ScheduledOutlet fun _ => false) :
    w.Contract r outlet o where
  status_eq_two_iff := h.status_eq_two_iff
  status_eq_zero_iff := by
    obtain ⟨hstatus, _⟩ := h.status_and_stdout
    refine iff_of_false (by omega) ?_
    rintro ⟨source, input, s, m, hlaunches, _⟩
    exact h.not_launches ⟨source, input, s, m, hlaunches⟩
  status_eq_one_of_ne _ htwo := h.status_and_stdout.1.resolve_right htwo
  stdout_eq_nil _ := h.status_and_stdout.2
  stdout_eq_output source input s m hlaunches :=
    absurd ⟨source, input, s, m, hlaunches⟩ h.not_launches

end Stopped

/-- A launched run that nobody interrupts keeps to the contract, because every call of its machine
with a flag that is never raised ends in the same way. -/
theorem Launches.contract {p : Prepared} (h : w.Launches r source input p.settings p.machine)
    (hmode : p.mode = r.mode) (hprepare : w.prepare r = .ok p)
    (hdevice : w.stdout.refusal = none) (hundisturbed : w.Undisturbed r fuel)
    (hrun : p.run w fuel = some o) (outlet : ScheduledOutlet fun _ => false) :
    w.Contract r outlet o := by
  obtain ⟨result, houtcome, hresult, hstatus, hstdout⟩ :=
    hundisturbed.exists_result hdevice hprepare hrun
  rw [hmode] at houtcome hstdout
  obtain ⟨hsame, hagree⟩ := ScheduledOutlet.report_of_ne_canceled _ houtcome hresult outlet
  have hends : (libraryCall outlet r p.settings p.machine fuel).outcome = some result := hsame
  constructor
  · refine iff_of_false (by omega) ?_
    rintro (hmisused | ⟨_, hrefused⟩)
    · exact h.reads.code.not_misused hmisused
    · exact h.accepted hrefused
  · constructor
    · intro hzero
      obtain ⟨_, rfl⟩ | ⟨hone, _⟩ := hstatus
      · exact ⟨source, input, p.settings, p.machine, h, fuel, hends⟩
      · omega
    · rintro ⟨_, _, _, _, h', k, hok⟩
      obtain ⟨rfl, rfl⟩ := h.unique h'
      obtain ⟨hzero, _⟩ | ⟨_, hfailed⟩ := hstatus
      · exact hzero
      · exact absurd (hagree k _ hok).1.symm hfailed
  · intro hzero _
    obtain ⟨hstatus, _⟩ | ⟨hstatus, _⟩ := hstatus
    · exact absurd hstatus hzero
    · exact hstatus
  · intro hnone
    exact absurd ⟨source, input, p.settings, p.machine, h⟩ hnone
  · intro _ _ _ _ h'
    obtain ⟨rfl, rfl⟩ := h.unique h'
    refine ⟨⟨fuel, by rw [hends]; exact Option.some_ne_none result⟩, fun k hk => ?_⟩
    obtain ⟨result', hresult'⟩ := Option.ne_none_iff_exists'.1 hk
    exact hstdout.trans (hagree k result' hresult').2.symm

theorem exists_outcome_of_libraryCall {p : Prepared} (hmode : p.mode = r.mode)
    (hdevice : w.stdout.refusal = none) {outlet : ScheduledOutlet fun _ => false} {k : Nat}
    (h : (libraryCall outlet r p.settings p.machine k).outcome ≠ none) :
    ∃ o, p.run w k = some o := by
  obtain ⟨result, hresult⟩ := Option.ne_none_iff_exists'.1 h
  rw [libraryCall, ← hmode] at hresult
  obtain ⟨result', houtcome⟩ :=
    ScheduledOutlet.exists_outcome_of_down hresult (Console.outlet (p.alarm w))
  rw [Prepared.run, Device.eq_of_refusal_eq_none hdevice]
  exact ⟨_, p.conclude_eq_exit _ _ houtcome⟩

/-- A call of `run` that does not ask for help and whose output is taken.  If it launches no
machine, or one whose library call ends, then it ends as well.  If it ends and nobody has
interrupted it, then it exits 2 if the code is given in neither of its two ways or in both, or if
the texts can be read and the settings are refused; it exits 0 if it launches a machine that the
library runs without an error; in all other cases it exits 1.  Without a machine nothing is put out,
and with one what the library call writes and no more, even if it fails. -/
theorem exit_status_and_output (hhelp : r.help = false) (hdevice : w.stdout.refusal = none)
    (outlet : ScheduledOutlet fun _ => false) :
    ((∀ source input s m, w.Launches r source input s m →
        ∃ k, (libraryCall outlet r s m k).outcome ≠ none) → ∃ fuel o, w.run fuel r = some o) ∧
    ∀ fuel o, w.Undisturbed r fuel → w.run fuel r = some o → w.Contract r outlet o := by
  cases w.fate hhelp with
  | stopped hstopped hrun =>
      refine ⟨fun _ => ⟨0, _, hrun 0⟩, fun fuel o _ ho => ?_⟩
      obtain rfl := Option.some.inj ((hrun fuel).symm.trans ho)
      exact hstopped.contract outlet
  | launched h hmode hprepare hrun =>
      constructor
      · intro hends
        obtain ⟨k, hk⟩ := hends _ _ _ _ h
        obtain ⟨o, ho⟩ := exists_outcome_of_libraryCall hmode hdevice hk
        exact ⟨k, o, (hrun k).trans ho⟩
      · intro fuel o hundisturbed ho
        exact h.contract hmode hprepare hdevice hundisturbed ((hrun fuel).symm.trans ho) outlet

/-- Where the code comes from the standard input nothing is left there to read.  What was put out
before `,` finds that out stays put out, and the status is 1. -/
theorem output_before_fault_stays :
    let w : World :=
      { args := []
        environment := fun _ => none
        lookup := fun _ => .absent ""
        stdin := [0x2B, 0x2E, 0x2C] }
    let r : RunRequest := { file := some "-", inputFile := some "-" }
    let outlet := ScheduledOutlet.counting fun _ => false
    ∃ o m, r.help = false ∧ w.stdout.refusal = none ∧ w.Undisturbed r 4 ∧ w.run 4 r = some o ∧
      w.Launches r "+.," "" {} m ∧ o.status = 1 ∧
      (libraryCall outlet r {} m 4).outcome = some (.error (.fault (.inputExhausted 2))) ∧
      o.stdout = outlet.output (libraryCall outlet r {} m 4) ∧ o.stdout = [1] := by
  intro w r outlet
  have hundisturbed : w.Undisturbed r 4 := undisturbed_of_quiet (fun _ => rfl) rfl r 4
  have hreads : w.Reads r "+.," "" := ⟨rfl, .file (.stdin rfl), .drained rfl⟩
  obtain ⟨haccepted, hresolved⟩ :=
    settings_eq_ok_iff.1 (show (w.settings r.flags).2 = .ok {} from rfl)
  have hbalanced : Balanced (brackets "+.,".toList) := (checkBrackets_eq_ok_iff "+.,").1 rfl
  have hlaunches : w.Launches r "+.," "" {} _ := ⟨hreads, haccepted, hresolved, hbalanced, rfl⟩
  obtain ⟨o, hrun, hstatus, hstdout⟩ :
      ∃ o, w.run 4 r = some o ∧ o.status = 1 ∧ o.stdout = [1] := by
    subst w r
    exact ⟨_, rfl, rfl, rfl⟩
  have hcontract := (exit_status_and_output rfl rfl outlet).2 4 o hundisturbed hrun
  have hcall :=
    (hcontract.stdout_eq_output _ _ _ _ hlaunches).2 4 (Option.isSome_iff_ne_none.1 rfl)
  exact ⟨o, _, rfl, rfl, hundisturbed, hrun, hlaunches, hstatus, rfl, hcall, hstdout⟩

end World

end Brainfuck
