import Brainfuck.Proofs.Command.Complaints
import Brainfuck.Proofs.Command.Worker

/-!
# Every interleaving of the threads

Whatever the order of the moves is, one result is sent, after a flush, and nothing is written after
that.  So the main thread never finds the channel abandoned, and when it has received a result, all
that was written has gone out.  What it then says is decided by the result and by whether the
timeout passed while it waited, not by who was first to raise the flag.
-/

namespace Brainfuck

open Machine

namespace Waiter

/-- What the main thread has received, or that it has received nothing at the end. -/
def received : Waiter → List (Option (Except Failure Unit))
  | finished _ received => [received]
  | _ => []

theorem received_of_isWaiting {main : Waiter} (h : main.isWaiting = true) : main.received = [] := by
  cases main with
  | finished expired received => cases h
  | _ => rfl

end Waiter

namespace Threads

variable {p : Prepared} {s s' : Threads} {move : Move} {moves : List Move}

/-! ## Moves and what they leave behind -/

structure Recorded (moves : List Move) (s : Threads) : Prop where
  expired : s.main.expired = true ↔ .expired ∈ moves
  interrupted : s.interrupted = true ↔ .interrupted ∈ moves
  sent : (moves.filterMap Move.sent?).length = s.worker.hasSent.toNat
  ledger : moves.filterMap Move.received? ++ s.channel = moves.filterMap Move.sent?
  received : s.main.received = (moves.filterMap Move.received?).map some
  connected : .disconnected ∉ moves

theorem recorded_threads (p : Prepared) : Recorded [] p.threads := by
  obtain ⟨hwaiting, hexpired⟩ := p.main_threads
  exact ⟨by simp [hexpired], by simp [Prepared.threads], rfl, rfl,
    Waiter.received_of_isWaiting hwaiting, List.not_mem_nil⟩

theorem Recorded.channel_ne_nil (h : Recorded moves s) (hwaiting : s.main.isWaiting = true)
    (hgone : s.worker = .gone) : s.channel ≠ [] := by
  intro hempty
  have hreceived := h.received
  rw [Waiter.received_of_isWaiting hwaiting] at hreceived
  have hsent := h.sent
  rw [← h.ledger, hempty, List.map_eq_nil_iff.1 hreceived.symm, hgone] at hsent
  cases hsent

theorem Recorded.quiet (h : Recorded moves s) (hsent : move.sent? = none)
    (hreceived : move.received? = none)
    (hmove : move ≠ .expired ∧ move ≠ .interrupted ∧ move ≠ .disconnected)
    (hmain : s'.main.expired = s.main.expired ∧ s'.main.received = s.main.received)
    (hinterrupted : s'.interrupted = s.interrupted) (hchannel : s'.channel = s.channel)
    (hworker : s'.worker.hasSent = s.worker.hasSent) : Recorded (moves ++ [move]) s' where
  expired := by simp [hmain.1, h.expired, hmove.1.symm]
  interrupted := by simp [hinterrupted, h.interrupted, hmove.2.1.symm]
  sent := by simp [hsent, h.sent, hworker]
  ledger := by simp [hsent, hreceived, h.ledger, hchannel]
  received := by simp [hreceived, h.received, hmain.2]
  connected := by simp [h.connected, hmove.2.2.symm]

theorem Recorded.step (h : Recorded moves s) (hstep : Step p s move s') :
    Recorded (moves ++ [move]) s' := by
  cases hstep with
  | worked hflag hwork =>
      obtain ⟨hbefore, hafter⟩ := Worker.hasSent_of_work hwork
      exact h.quiet rfl rfl (by simp) ⟨rfl, rfl⟩ rfl rfl (hafter.trans hbefore.symm)
  | sent hworker =>
      have hsent := h.sent
      rw [hworker] at hsent
      exact {
        expired := by simp [h.expired]
        interrupted := by simp [h.interrupted]
        sent := by simp [hsent, Move.sent?, Worker.hasSent]
        ledger := by simp [Move.sent?, Move.received?, ← h.ledger]
        received := by simp [Move.received?, h.received]
        connected := by simp [h.connected] }
  | left hworker =>
      exact h.quiet rfl rfl (by simp) ⟨rfl, rfl⟩ rfl rfl (by rw [hworker]; rfl)
  | interrupted =>
      exact {
        expired := by simp [h.expired]
        interrupted := by simp
        sent := by simp [h.sent, Move.sent?]
        ledger := by simp [Move.sent?, Move.received?, h.ledger, List.filterMap_cons]
        received := by simp [Move.received?, h.received]
        connected := by simp [h.connected] }
  | handled hinterrupted => exact h.quiet rfl rfl (by simp) ⟨rfl, rfl⟩ rfl rfl rfl
  | expired hmain =>
      have hreceived := h.received
      rw [hmain] at hreceived
      exact {
        expired := by simp [Waiter.expired]
        interrupted := by simp [h.interrupted]
        sent := by simp [h.sent, Move.sent?]
        ledger := by simp [Move.sent?, Move.received?, h.ledger, List.filterMap_cons]
        received := by simpa [Move.received?, Waiter.received] using hreceived
        connected := by simp [h.connected] }
  | raised hmain =>
      exact h.quiet rfl rfl (by simp) (by rw [hmain]; exact ⟨rfl, rfl⟩) rfl rfl rfl
  | received hwaiting hchannel =>
      have hreceived := h.received
      rw [Waiter.received_of_isWaiting hwaiting] at hreceived
      have hledger := h.ledger
      rw [hchannel] at hledger
      exact {
        expired := h.expired.trans (by simp)
        interrupted := by simp [h.interrupted]
        sent := by simp [h.sent, Move.sent?]
        ledger := by simp [Move.sent?, Move.received?, ← hledger]
        received := by simp [Move.received?, Waiter.received, List.map_eq_nil_iff.1 hreceived.symm]
        connected := by simp [h.connected] }
  | disconnected hwaiting hempty hgone => exact absurd hempty (h.channel_ne_nil hwaiting hgone)

theorem Run.recorded (h : Run p moves s) : Recorded moves s := by
  induction h with
  | start => exact recorded_threads p
  | step _ hstep ih => exact ih.step hstep

/-! ## The flag and the worker -/

theorem Step.reason_of_flag (hstep : Step p s move s')
    (h : s.flag = true → s.interrupted = true ∨ s.main.expired = true) :
    s'.flag = true → s'.interrupted = true ∨ s'.main.expired = true := by
  cases hstep with
  | interrupted => exact fun _ => .inl rfl
  | handled hinterrupted => exact fun _ => .inl hinterrupted
  | expired hmain => exact fun _ => .inr rfl
  | raised hmain => exact fun _ => .inr rfl
  | _ => exact h

theorem Run.reason_of_flag (h : Run p moves s) :
    s.flag = true → s.interrupted = true ∨ s.main.expired = true := by
  induction h with
  | start => exact fun hflag => absurd hflag Bool.false_ne_true
  | step _ hstep ih => exact hstep.reason_of_flag ih

theorem Step.sound (hstep : Step p s move s') (h : s.worker.Sound p s.console s.flag) :
    s'.worker.Sound p s'.console s'.flag := by
  cases hstep with
  | worked hflag hwork => exact Worker.Sound.work h hflag hwork
  | sent hworker => exact trivial
  | left hworker => exact trivial
  | handled hinterrupted => exact h.mono fun _ => rfl
  | raised hmain => exact h.mono fun _ => rfl
  | _ => exact h

theorem Run.sound (h : Run p moves s) : s.worker.Sound p s.console s.flag := by
  induction h with
  | start => exact rfl
  | step _ hstep ih => exact hstep.sound ih

/-! ## The moment of sending -/

theorem Step.console_of_hasSent (hstep : Step p s move s') (h : s.worker.hasSent = true) :
    s'.console = s.console ∧ ∀ raised, move ≠ .worked raised := by
  cases hstep with
  | worked hflag hwork =>
      rw [(Worker.hasSent_of_work hwork).1] at h
      cases h
  | _ => exact ⟨rfl, fun _ => Move.noConfusion⟩

theorem Step.sent_of_hasSent (hstep : Step p s move s') (hbefore : s.worker.hasSent = false)
    (hafter : s'.worker.hasSent = true) :
    ∃ result, move = .sent result ∧ s.worker = .reporting result ∧ s'.console = s.console := by
  cases hstep with
  | worked hflag hwork =>
      rw [(Worker.hasSent_of_work hwork).2] at hafter
      cases hafter
  | sent hworker => exact ⟨_, rfl, hworker, rfl⟩
  | left hworker =>
      rw [hworker] at hbefore
      cases hbefore
  | _ =>
      rw [hbefore] at hafter
      cases hafter

theorem Run.exists_sending (h : Run p moves s) (hsent : s.worker.hasSent = true) :
    ∃ before after result t, moves = before ++ .sent result :: after ∧ Run p before t ∧
      t.worker = .reporting result ∧ s.console = t.console ∧
      ∀ raised, .worked raised ∉ after := by
  induction h with
  | start => cases hsent
  | @step moves s s' move hrun hstep ih =>
      -- either this very move sends the result, or it was sent before and nothing was written since
      cases hbefore : s.worker.hasSent with
      | false =>
          obtain ⟨result, rfl, hworker, hconsole⟩ := hstep.sent_of_hasSent hbefore hsent
          exact ⟨moves, [], result, s, rfl, hrun, hworker, hconsole, fun _ => List.not_mem_nil⟩
      | true =>
          obtain ⟨before, after, result, t, hmoves, hrun', hworker, hconsole, hquiet⟩ := ih hbefore
          obtain ⟨hsame, hmove⟩ := hstep.console_of_hasSent hbefore
          refine ⟨before, after ++ [move], result, t, ?_, hrun', hworker, hsame.trans hconsole, ?_⟩
          · rw [hmoves, List.append_assoc, List.cons_append]
          · intro raised hmem
            rcases List.mem_append.1 hmem with hold | hnew
            · exact hquiet raised hold
            · exact hmove raised (List.mem_singleton.1 hnew).symm

theorem Run.exists_result (h : Run p moves s) {expired : Bool}
    {received : Option (Except Failure Unit)} (hfinished : s.main = .finished expired received) :
    ∃ result, received = some result ∧ s.channel = [] ∧ s.worker.hasSent = true ∧
      moves.filterMap Move.received? = [result] ∧ moves.filterMap Move.sent? = [result] := by
  have hrecorded := h.recorded
  have hreceived : [received] = (moves.filterMap Move.received?).map some := by
    rw [← hrecorded.received, hfinished]
    rfl
  obtain ⟨result, hone, hresult⟩ := List.map_eq_singleton_iff.1 hreceived.symm
  have hledger := hrecorded.ledger
  have hsent := hrecorded.sent
  rw [hone] at hledger
  rw [← hledger, List.length_append, List.length_singleton] at hsent
  have hbound := Bool.toNat_le s.worker.hasSent
  have hchannel : s.channel = [] := List.eq_nil_of_length_eq_zero (by omega)
  rw [hchannel, List.append_nil] at hledger
  refine ⟨result, hresult.symm, hchannel, ?_, hone, hledger.symm⟩
  cases hworker : s.worker.hasSent with
  | true => rfl
  | false =>
      rw [hworker, Bool.toNat_false] at hsent
      omega

/-! ## The end of a run -/

/-- The run has come by the moment before the one result was sent.  Everything was flushed by then
and the console is still as it was, and whoever canceled the worker had a reason. -/
theorem Run.exists_sending_of_finished (h : Run p moves s) {result : Except Failure Unit}
    (hhas : s.worker.hasSent = true) (hsent : moves.filterMap Move.sent? = [result]) :
    (∃ before after t, moves = before ++ .sent result :: after ∧ Run p before t ∧
      t.worker = .reporting result ∧ t.console.buffer = #[] ∧ s.console = t.console ∧
      ∀ raised, .worked raised ∉ after) ∧
    (∃ flag, Ended p s.console flag result) ∧ s.console.buffer = #[] ∧
    (result = .error .canceled → .interrupted ∈ moves ∨ .expired ∈ moves) := by
  obtain ⟨before, after, result', t, hmoves, hrun, hworker, hconsole, hquiet⟩ :=
    h.exists_sending hhas
  obtain rfl : result' = result := by
    have hmem : result' ∈ moves.filterMap Move.sent? :=
      List.mem_filterMap.2 ⟨.sent result', by simp [hmoves], rfl⟩
    rw [hsent] at hmem
    exact List.mem_singleton.1 hmem
  have hsound := hrun.sound
  rw [hworker] at hsound
  obtain ⟨hended, hempty⟩ := hsound
  rw [hconsole]
  refine ⟨⟨before, after, t, hmoves, hrun, hworker, hempty, rfl, hquiet⟩, ⟨t.flag, hended⟩, hempty,
    ?_⟩
  rintro rfl
  rcases hrun.reason_of_flag hended.flag_of_canceled with hinterrupted | hexpired
  · exact .inl (by simp [hmoves, hrun.recorded.interrupted.1 hinterrupted])
  · exact .inr (by simp [hmoves, hrun.recorded.expired.1 hexpired])

end Threads

/-! ## What the main thread says -/

namespace Prepared

variable {p : Prepared} {program : String} {expired : Bool} {result : Except Failure Unit}

theorem exit_fst_eq_zero_iff : (p.exit program expired (some result)).1 = 0 ↔ result = .ok () := by
  cases result <;> simp [exit]

theorem exit_snd_eq_timeoutText_iff :
    (p.exit program expired (some result)).2 = timeoutText (p.settings.timeoutMs.getD 0) ↔
      expired = true ∧ result = .error .canceled := by
  cases result with
  | error failure => simp [exit, complain_eq_timeoutText_iff]
  | ok =>
      have hne := timeoutText_ne_empty (p.settings.timeoutMs.getD 0)
      simp [exit, hne.symm]

theorem exit_snd_eq_cancelText_iff :
    (p.exit program expired (some result)).2 = cancelText ↔
      expired = false ∧ result = .error .canceled := by
  cases result with
  | error failure => simp [exit, complain_eq_cancelText_iff]
  | ok => simp [exit, cancelText]

end Prepared

namespace Threads

/-- In every run in which the main thread finishes, it has received the one result that was sent,
after a flush and with nothing written since.  What has gone out is what an uncontrolled run puts
out with some number of instructions, and all of it if the exit status is 0; and the status and the
message are decided by the result and by whether the timeout passed during the wait. -/
theorem finished_run_is_safe (p : Prepared) (program : String) (o : OpenOutlet) {moves : List Move}
    {s : Threads} (h : Run p moves s) {expired : Bool} {received : Option (Except Failure Unit)}
    (hfinished : s.main = .finished expired received) :
    let stdout := s.console.sent.toList
    let status := (p.exit program expired received).1
    let message := (p.exit program expired received).2
    let free (fuel : Nat) := o.report p.machine p.mode none fuel
    ∃ result, received = some result ∧
      (moves.filterMap Move.received? = [result] ∧ moves.filterMap Move.sent? = [result] ∧
        .disconnected ∉ moves ∧ s.channel = []) ∧
      (∃ before after t, moves = before ++ .sent result :: after ∧ Run p before t ∧
        t.worker = .reporting result ∧ t.console.buffer = #[] ∧ s.console = t.console ∧
        ∀ raised, .worked raised ∉ after) ∧
      (∃ n, stdout = o.output (free n) ∧ (∀ fuel ≥ n, stdout <+: o.output (free fuel)) ∧
        (status = 0 → ∀ fuel > n,
          (free fuel).outcome = some (.ok ()) ∧ o.output (free fuel) = stdout)) ∧
      (status = 0 ↔ result = .ok ()) ∧
      (message = timeoutText (p.settings.timeoutMs.getD 0) ↔
        .expired ∈ moves ∧ result = .error .canceled) ∧
      (message = cancelText → .interrupted ∈ moves ∧ .expired ∉ moves) := by
  obtain ⟨result, rfl, hchannel, hhas, hreceived, hsent⟩ := h.exists_result hfinished
  obtain ⟨hsending, ⟨flag, hended⟩, hempty, hreason⟩ := h.exists_sending_of_finished hhas hsent
  obtain ⟨n, houtput, hprefix, hall⟩ := hended.exists_free_output hempty o
  have hexpired : expired = true ↔ .expired ∈ moves := by
    have hrecorded := h.recorded.expired
    rwa [hfinished] at hrecorded
  refine ⟨result, rfl, ⟨hreceived, hsent, h.recorded.connected, hchannel⟩, hsending,
    ⟨n, houtput, hprefix, fun hzero => hall (Prepared.exit_fst_eq_zero_iff.1 hzero)⟩,
    Prepared.exit_fst_eq_zero_iff,
    Prepared.exit_snd_eq_timeoutText_iff.trans (and_congr_left' hexpired), fun hmessage => ?_⟩
  · obtain ⟨hwait, hcanceled⟩ := Prepared.exit_snd_eq_cancelText_iff.1 hmessage
    have hnot : .expired ∉ moves := by
      rw [← hexpired, hwait]
      exact Bool.false_ne_true
    exact ⟨(hreason hcanceled).resolve_right hnot, hnot⟩

/-- The user interrupts, the timeout passes and the flag goes up before the first check, but the
worker reads it as down and comes to the end of its code. -/
theorem late_flag_changes_nothing :
    let p : Prepared :=
      { source := "."
        settings := { timeoutMs := some 5 }
        machine :=
          { code := Code.ofInstrs [.put]
            tape := Tape.blank 1 Nat.one_pos
            pc := 0
            feed := Feed.ofText .words ""
            policy := .strict }
        mode := .plain
        log := [] }
    ∃ moves s, Run p moves s ∧ .interrupted ∈ moves ∧ .expired ∈ moves ∧
      s.main = .finished true (some (.ok ())) ∧ s.console.sent.toList = [0] ∧
      ∃ n, ∀ fuel > n, (Sink.openOutlet.report p.machine p.mode none fuel).outcome = some (.ok ()) ∧
        Sink.openOutlet.output (Sink.openOutlet.report p.machine p.mode none fuel) = [0] := by
  intro p
  have hdown {s : Threads} : false = true → s.flag = true := fun h => absurd h Bool.false_ne_true
  have hopened : Run p _ _ := .step .start (.worked hdown rfl)
  have hinterrupted := hopened.step (.interrupted _)
  have hexpired := hinterrupted.step (.expired rfl)
  have hraised := hexpired.step (.raised rfl)
  have hlooked := hraised.step (.worked hdown rfl)
  have hcarried := hlooked.step (.worked hdown rfl)
  have hended := hcarried.step (.worked hdown rfl)
  have hflushed := hended.step (.worked hdown rfl)
  have hsent := hflushed.step (.sent rfl)
  obtain ⟨moves, s, hrun, hinterrupt, htimeout, hmain, hstdout⟩ : ∃ moves s, Run p moves s ∧
      .interrupted ∈ moves ∧ .expired ∈ moves ∧ s.main = .finished true (some (.ok ())) ∧
      s.console.sent.toList = [0] := by
    refine ⟨_, _, hsent.step (.received rfl rfl), ?_, ?_, rfl, ?_⟩
    · simp
    · simp
    · rfl
  obtain ⟨result, _, _, _, ⟨n, _, _, hall⟩, _⟩ :=
    finished_run_is_safe p "bf" Sink.openOutlet hrun hmain
  rw [hstdout] at hall
  exact ⟨moves, s, hrun, hinterrupt, htimeout, hmain, hstdout, n, hall rfl⟩

end Threads

end Brainfuck
