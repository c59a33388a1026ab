import Brainfuck.Proofs.Command.Interleaving
import Brainfuck.Proofs.Command.Preparation
import Brainfuck.Proofs.Execution.Stops

/-!
# The threads as one run

The threads and a run that carries out its turns one after the other come to the same outcomes.  All
that the order of the threads decides is at which check the worker first reads the flag as up, and
whether that was for a timeout; a world can be given in which the flag goes up right then and for
that reason.  In the other direction the flag goes up before the worker does anything, and the
worker reads it as up from the check on that the world has set for it.
-/

namespace Brainfuck

open Machine

/-! ## Canceled runs -/

section Canceled

variable {device : Device} {alarm : Option Nat} {mode : Mode} {control : Control} {m : Machine}
  {c : Console} {i fuel : Nat}

theorem perform_ne_canceled (host : Host Console) (instr : Instr) :
    (m.perform host mode c i instr).2.2 ≠ some (.error .canceled) := by
  rcases hact : m.act instr with ⟨after, cause | action⟩
  · rw [perform, hact, settle]
    intro h
    cases h
  · rw [perform_eq_writeAll _ _ _ _ hact]
    intro h
    split at h <;> cases h

theorem lt_checks_of_canceled_turn {m' : Machine} {c' : Console}
    (h : m.turn (Console.host device alarm) mode (some control) c i =
      (m', c', some (.error .canceled))) :
    alarm.any (· < c'.checks) = true := by
  cases hinstr : m.code.instrs[m.pc]? with
  | none =>
      rw [turn, hinstr] at h
      cases h
  | some instr =>
      rw [turn_eq_ask hinstr, Host.ask_some] at h
      cases hverdict : Control.verdict (fun _ => ((Console.host device alarm).poll c).2) i
          (some control) with
      | none =>
          rw [hverdict] at h
          exact absurd (congrArg (fun turn => turn.2.2) h) (perform_ne_canceled _ instr)
      | some failure =>
          rw [hverdict] at h
          cases h
          have hraised : alarm.any (· ≤ c.checks) = true := Control.eq_true_of_verdict hverdict
          simpa only [Console.host, Console.poll, Nat.lt_succ_iff] using hraised

theorem lt_checks_of_canceled_loop
    (h : (loop (Console.host device alarm) mode (some control) fuel m c i).result =
      some (.error .canceled)) :
    alarm.any (· < (loop (Console.host device alarm) mode (some control) fuel m c i).host.checks) =
      true := by
  induction fuel generalizing m c i with
  | zero => cases h
  | succ fuel ih =>
      rw [loop] at h ⊢
      rcases hturn : m.turn (Console.host device alarm) mode (some control) c i with
        ⟨m', c', _ | result⟩
      · rw [hturn] at h
        exact ih h
      · rw [hturn] at h
        obtain rfl : result = .error .canceled := Option.some.inj h
        exact lt_checks_of_canceled_turn hturn

theorem lt_checks_of_canceled_run
    (h : (m.run (Console.host device alarm) mode (some control) fuel c).result =
      some (.error .canceled)) :
    alarm.any (· < (m.run (Console.host device alarm) mode (some control) fuel c).host.checks) =
      true := by
  rw [run, Progress.result_close, start] at h
  rw [run, start]
  rcases hheader : (Console.host device alarm).writeAll c mode.header with ⟨c₁, cause | ⟨⟩⟩
  · rw [hheader] at h
    cases h
  · rw [hheader] at h
    have hchecks := lt_checks_of_canceled_loop h
    simp only [Progress.close, h]
    rwa [← Console.checks_flush device] at hchecks

end Canceled

/-! ## Ended workers -/

def alarmAt (raised : Bool) (n : Nat) : Option Nat :=
  if raised then some n else none

theorem isRaised_alarmAt_of_lt (raised : Bool) {n j : Nat} (h : j < n) :
    Console.isRaised (alarmAt raised n) j = false := by
  cases raised <;> simp [Console.isRaised, alarmAt, h]

theorem isRaised_alarmAt_self (raised : Bool) (n : Nat) :
    Console.isRaised (alarmAt raised n) n = raised := by
  cases raised <;> simp [Console.isRaised, alarmAt]

variable {p : Prepared}

/-- A run into a console of its own ends like the worker, if its flag goes up at the check at which
the worker has read it as up. -/
theorem Ended.exists_run {c : Console} {flag : Bool} {result : Except Failure Unit}
    (h : Ended p c flag result) (hempty : c.buffer = #[]) :
    ∃ n raised, (result = .error .canceled → raised = true) ∧
      (p.machine.run (Console.host {} (alarmAt raised n)) p.mode (some p.control) (n + 1)
        {}).outcome = some result ∧
      (p.machine.run (Console.host {} (alarmAt raised n)) p.mode (some p.control) (n + 1)
        {}).host.sent.toList = c.sent.toList := by
  obtain ⟨m, n, raised, ⟨⟨bytes, hsteps⟩, hfree, hwritten⟩, _, hresult⟩ := h
  have hbefore : ∀ j < n, Control.verdict (Console.isRaised (alarmAt raised n)) (0 + j)
      (some p.control) = none := by
    intro j hj
    rw [Nat.zero_add]
    simpa only [Control.verdict, isRaised_alarmAt_of_lt raised hj] using hfree j hj
  have hend : m.next.conclude (Control.verdict (Console.isRaised (alarmAt raised n)) (0 + n)
      (some p.control)) = some result := by
    rw [Nat.zero_add]
    simpa only [Control.verdict, isRaised_alarmAt_self] using hresult
  have hreaches : Reaches
      (fun j => Control.verdict (Console.isRaised (alarmAt raised n)) j (some p.control)) (n + 1) 0
      p.machine n m (some result) := .of_conclude hsteps hbefore hend (Nat.lt_succ_self n)
  obtain ⟨houtcome, _, _, houtput⟩ := ScheduledOutlet.report_of_reaches hreaches
    (Console.outlet (alarmAt raised n)) p.mode
  refine ⟨n, raised, ?_, houtcome, ?_⟩
  · rintro rfl
    rcases Next.of_conclude_error hresult with hverdict | ⟨_, cause, hfault, _⟩
    · exact Control.eq_true_of_verdict hverdict
    · cases hfault
  · have hflushed := Console.buffer_eq_empty_of_outcome houtcome
    rw [Console.written_of_buffer_eq_empty hempty] at hwritten
    rw [hwritten, ← houtput]
    exact (Console.written_of_buffer_eq_empty hflushed).symm

/-! ## Finished runs -/

def Threads.outcome? (p : Prepared) (program : String) (s : Threads) : Option Outcome :=
  match s.main with
  | .finished expired received =>
    some
      { status := (p.exit program expired received).1
        stdout := s.console.sent.toList
        message := (p.exit program expired received).2 }
  | _ => none

theorem Threads.exists_finished_of_outcome {s : Threads} {program : String} {o : Outcome}
    (h : s.outcome? p program = some o) :
    ∃ expired received, s.main = .finished expired received ∧
      o =
        { status := (p.exit program expired received).1
          stdout := s.console.sent.toList
          message := (p.exit program expired received).2 } := by
  cases hmain : s.main with
  | finished expired received =>
      rw [outcome?, hmain] at h
      exact ⟨expired, received, rfl, (Option.some.inj h).symm⟩
  | _ =>
      rw [outcome?, hmain] at h
      cases h

namespace Threads

theorem Step.timeout_of_expired {s s' : Threads} {move : Move} (hstep : Step p s move s')
    (h : s.main = .timing ∨ s.main.expired = true → p.settings.timeoutMs.isSome = true) :
    s'.main = .timing ∨ s'.main.expired = true → p.settings.timeoutMs.isSome = true := by
  cases hstep with
  | expired hmain => exact fun _ => h (.inl hmain)
  | raised hmain => exact fun _ => h (.inr (by rw [hmain]; rfl))
  | received hwaiting hchannel =>
      exact fun hafter => h (.inr (hafter.resolve_left Waiter.noConfusion))
  | disconnected hwaiting hempty hgone =>
      exact fun hafter => h (.inr (hafter.resolve_left Waiter.noConfusion))
  | _ => exact h

theorem Run.timeout_of_expired {moves : List Move} {s : Threads} (h : Run p moves s) :
    s.main = .timing ∨ s.main.expired = true → p.settings.timeoutMs.isSome = true := by
  induction h with
  | start =>
      intro hmain
      cases htimeout : p.settings.timeoutMs.isSome with
      | true => rfl
      | false =>
          rw [Prepared.threads, htimeout] at hmain
          rcases hmain with hmain | hmain <;> cases hmain
  | step _ hstep ih => exact hstep.timeout_of_expired ih

end Threads

/-- The world in which the flag goes up at check number `n`, for a timeout or an interrupt, or
never. -/
def World.raisingAt (program : String) (raised expired : Bool) (n : Nat) : World where
  program
  args := []
  environment _ := none
  lookup _ := .absent ""
  expiry _ := alarmAt (raised && expired) n
  interrupt := alarmAt (raised && !expired) n

section RaisingAt

variable (program : String) (raised : Bool) {expired : Bool} (n : Nat)

theorem Prepared.deadline_raisingAt
    (htimeout : expired = true → p.settings.timeoutMs.isSome = true) :
    p.deadline (.raisingAt program raised expired n) = alarmAt (raised && expired) n := by
  cases expired with
  | false => cases raised <;> cases htime : p.settings.timeoutMs <;>
      simp [deadline, World.raisingAt, alarmAt, htime]
  | true =>
      obtain ⟨limit, hlimit⟩ := Option.isSome_iff_exists.1 (htimeout rfl)
      simp [deadline, World.raisingAt, hlimit]

theorem Prepared.alarm_raisingAt
    (htimeout : expired = true → p.settings.timeoutMs.isSome = true) :
    p.alarm (.raisingAt program raised expired n) = alarmAt raised n := by
  rw [alarm, deadline_raisingAt program raised n htimeout]
  cases raised <;> cases expired <;> rfl

end RaisingAt

theorem Prepared.exit_congr {program : String} {expired expired' : Bool}
    {result : Except Failure Unit} (h : result = .error .canceled → expired = expired') :
    p.exit program expired (some result) = p.exit program expired' (some result) := by
  cases result with
  | ok => rfl
  | error failure =>
      cases failure with
      | canceled => rw [h rfl]
      | _ => rfl

/-- What the threads come to is what some run comes to that carries out its turns one after the
other. -/
theorem Threads.Run.exists_sequential {moves : List Move} {s : Threads} (h : Run p moves s)
    {program : String} {o : Outcome} (ho : s.outcome? p program = some o) :
    ∃ (w : World) (fuel : Nat), w.program = program ∧ w.stdout.refusal = none ∧
      (p.run w fuel).map Outcome.unlogged = some o := by
  obtain ⟨expired, received, hfinished, rfl⟩ := Threads.exists_finished_of_outcome ho
  obtain ⟨result, rfl, _, hhas, _, hsent⟩ := h.exists_result hfinished
  obtain ⟨_, ⟨flag, hended⟩, hempty, _⟩ := h.exists_sending_of_finished hhas hsent
  obtain ⟨n, raised, hraised, houtcome, hstdout⟩ := hended.exists_run hempty
  have htimeout : expired = true → p.settings.timeoutMs.isSome = true := by
    intro hexpired
    refine h.timeout_of_expired (.inr ?_)
    rw [hfinished]
    exact hexpired
  -- the world's timeout counts as passed only after the check at which the flag goes up, and a
  -- canceled run has made that check
  have hexpired (hcanceled : result = .error .canceled) :
      p.isExpired (.raisingAt program raised expired n)
        (p.machine.run (Console.host {} (alarmAt raised n)) p.mode (some p.control) (n + 1)
          {}).host.checks = expired := by
    obtain rfl := hraised hcanceled
    rw [Prepared.isExpired, Prepared.deadline_raisingAt program true n htimeout]
    cases expired with
    | false => rfl
    | true =>
        rw [hcanceled] at houtcome
        rcases Report.result_of_outcome_eq_error houtcome with hloop | ⟨ip, cause, hio⟩
        · exact lt_checks_of_canceled_run hloop
        · cases hio
  refine ⟨.raisingAt program raised expired n, n + 1, rfl, rfl, ?_⟩
  rw [Prepared.run, Prepared.alarm_raisingAt program raised n htimeout]
  have hconclude := p.conclude_eq_exit program (p.isExpired (.raisingAt program raised expired n)
    (p.machine.run (Console.host {} (alarmAt raised n)) p.mode (some p.control) (n + 1)
      {}).host.checks) houtcome
  rw [hstdout, Prepared.exit_congr hexpired] at hconclude
  exact congrArg (Option.map Outcome.unlogged) hconclude

/-! ## Runs as moves of the threads -/

namespace Threads.Run

variable {p : Prepared} {moves : List Move} {s : Threads} {alarm : Option Nat} {fuel i : Nat}
  {m : Machine} {c : Console} {result : Except Failure Unit}

/-- A worker that reads a raised flag as late as it likes can do any turn. -/
theorem exists_turn (h : Run p moves { s with worker := .looking m i, console := c })
    (hflag : s.flag = true) {turn : Machine × Console × Option (Except Failure Unit)}
    (hturn : m.turn (Console.host {} alarm) p.mode (some p.control) c i = turn) :
    ∃ moves', Run p moves' { s with worker := .turned turn.1 i turn.2.2, console := turn.2.1 } := by
  rw [← Console.turn_hostAt] at hturn
  rcases Worker.work_looking_cases p (Console.isRaised alarm c.checks) c m i with
    ⟨c', result, hwork, hend⟩ | ⟨c', instr, hwork, hperform⟩
  · rw [hend] at hturn
    subst hturn
    exact ⟨_, h.step (.worked (fun _ => hflag) hwork)⟩
  · have hcarried := Worker.work_carrying p _ c' m i instr (hperform.symm.trans hturn)
    exact ⟨_, (h.step (.worked (fun _ => hflag) hwork)).step (.worked (fun _ => hflag) hcarried)⟩

theorem exists_loop (h : Run p moves { s with worker := .looking m i, console := c })
    (hflag : s.flag = true)
    (hresult : (loop (Console.host {} alarm) p.mode (some p.control) fuel m c i).result =
      some result) :
    let progress := loop (Console.host {} alarm) p.mode (some p.control) fuel m c i
    ∃ moves', Run p moves'
      { s with
        worker := .closing progress.machine progress.steps result
        console := progress.host } := by
  intro progress
  induction fuel generalizing moves m c i with
  | zero => cases hresult
  | succ fuel ih =>
      subst progress
      rw [loop] at hresult ⊢
      rcases hturn : m.turn (Console.host {} alarm) p.mode (some p.control) c i with
        ⟨m', c', _ | result'⟩
      · obtain ⟨moves', hrun⟩ := h.exists_turn hflag hturn
        rw [hturn] at hresult
        exact ih hrun hresult
      · obtain ⟨moves', hrun⟩ := h.exists_turn hflag hturn
        rw [hturn] at hresult
        obtain rfl : result' = result := Option.some.inj hresult
        exact ⟨moves', hrun⟩

theorem exists_reporting (h : Run p moves s) (hopening : s.worker = .opening)
    (hconsole : s.console = {}) (hflag : s.flag = true)
    (houtcome : (p.machine.run (Console.host {} alarm) p.mode (some p.control) fuel {}).outcome =
      some result) :
    let report := p.machine.run (Console.host {} alarm) p.mode (some p.control) fuel {}
    ∃ moves', Run p moves' { s with worker := .reporting result, console := report.host } := by
  intro report
  have hdown : false = true → s.flag = true := fun h => absurd h Bool.false_ne_true
  have haccepting := Console.accepting_host (rfl : ({} : Device).refusal = none) alarm
  obtain ⟨c₁, hheader, _⟩ := haccepting.writeAll {} p.mode.header
  have hopened : Worker.opening.work p false {} = some (.looking p.machine 0, c₁) := by
    have hheader' : (Console.hostAt false).writeAll {} p.mode.header = (c₁, .ok ()) :=
      (Console.writeAll_hostAt alarm false {} p.mode.header).trans hheader
    simp only [Worker.work, hheader']
  have hrun : p.machine.run (Console.host {} alarm) p.mode (some p.control) fuel {} =
      (loop (Console.host {} alarm) p.mode (some p.control) fuel p.machine c₁ 0).close
        (Console.host {} alarm) := by
    simp only [Machine.run, Machine.start, hheader]
  subst report
  rw [hrun] at houtcome ⊢
  generalize hprogress : loop (Console.host {} alarm) p.mode (some p.control) fuel p.machine c₁ 0 =
    progress at houtcome ⊢
  have hresult : progress.result = some result :=
    (close_of_accepting haccepting progress).1.symm.trans houtcome
  have hlooking : Run p _ { s with worker := .looking p.machine 0, console := c₁ } :=
    h.step (.worked hdown (by rw [hopening, hconsole]; exact hopened))
  obtain ⟨moves', hclosing⟩ := hlooking.exists_loop hflag (hprogress ▸ hresult)
  rw [hprogress] at hclosing
  have hclosed := Worker.work_closing p false hresult
  rw [Console.close_hostAt alarm, houtcome, Option.map_some] at hclosed
  exact ⟨_, hclosing.step (.worked hdown hclosed)⟩

theorem exists_flagged (expired : Bool)
    (htimeout : expired = true → p.settings.timeoutMs.isSome = true) :
    ∃ moves s, Run p moves s ∧ s.worker = .opening ∧ s.console = {} ∧ s.channel = [] ∧
      s.flag = true ∧ s.main.isWaiting = true ∧ s.main.expired = expired := by
  cases expired with
  | false =>
      have hrun := ((Run.start : Run p _ _).step (.interrupted _)).step (.handled rfl)
      exact ⟨_, _, hrun, rfl, rfl, rfl, rfl, p.main_threads⟩
  | true =>
      have htiming : p.threads.main = .timing := by simp [Prepared.threads, htimeout rfl]
      have hrun := ((Run.start : Run p _ _).step (.expired htiming)).step (.raised rfl)
      exact ⟨_, _, hrun, rfl, rfl, rfl, rfl, rfl, rfl⟩

end Threads.Run

theorem Prepared.exists_outcome_of_conclude {p : Prepared} {program : String} {expired : Bool}
    {report : Report Console} {o : Outcome} (h : p.conclude program expired report = some o) :
    ∃ result, report.outcome = some result := by
  unfold conclude at h
  split at h
  · next hresult houtcome => exact ⟨_, houtcome⟩
  · cases h

theorem Prepared.timeout_of_isExpired {p : Prepared} {w : World} {checks : Nat}
    (h : p.isExpired w checks = true) : p.settings.timeoutMs.isSome = true := by
  cases htime : p.settings.timeoutMs with
  | some limit => rfl
  | none =>
      rw [isExpired, deadline, htime] at h
      cases h

theorem Prepared.exists_threads_run (p : Prepared) {w : World} (hdevice : w.stdout.refusal = none)
    {fuel : Nat} {o : Outcome} (h : p.run w fuel = some o) :
    ∃ moves s, Threads.Run p moves s ∧ s.outcome? p w.program = some o.unlogged := by
  rw [Prepared.run, Device.eq_of_refusal_eq_none hdevice] at h
  generalize hreport : p.machine.run (Console.host {} (p.alarm w)) p.mode (some p.control) fuel {} =
    report at h
  obtain ⟨result, houtcome⟩ := exists_outcome_of_conclude h
  rw [conclude_eq_exit _ _ _ houtcome] at h
  obtain ⟨moves, s, hrun, hopening, hconsole, hchannel, hflag, hwaiting, hexpired⟩ :=
    Threads.Run.exists_flagged (p.isExpired w report.host.checks) timeout_of_isExpired
  obtain ⟨moves', hreporting⟩ := hrun.exists_reporting hopening hconsole hflag (hreport ▸ houtcome)
  have hsent := hreporting.step (.sent rfl)
  have hreceived := hsent.step (.received hwaiting (by rw [hchannel]; rfl))
  refine ⟨_, _, hreceived, ?_⟩
  rw [← Option.some.inj h, Threads.outcome?, hreport]
  simp only [Outcome.unlogged, hexpired]

/-- The outcomes of the threads are those of the runs that carry out their turns one after the
other. -/
theorem Threads.finishes_iff_runs (p : Prepared) (program : String) (o : Outcome) :
    (∃ moves s, Run p moves s ∧ s.outcome? p program = some o) ↔
      ∃ (w : World) (fuel : Nat), w.program = program ∧ w.stdout.refusal = none ∧
        (p.run w fuel).map Outcome.unlogged = some o := by
  constructor
  · rintro ⟨moves, s, hrun, ho⟩
    exact hrun.exists_sequential ho
  · rintro ⟨w, fuel, rfl, hdevice, ho⟩
    obtain ⟨o', hrun, rfl⟩ := Option.map_eq_some_iff.1 ho
    exact p.exists_threads_run hdevice hrun

end Brainfuck
