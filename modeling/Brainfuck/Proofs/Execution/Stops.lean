import Brainfuck.Proofs.Execution.Controls
import Brainfuck.Proofs.Execution.Session

/-!
# How a call stops

Whatever its host, its mode and its controls are, a call completes some instructions of its machine
and then stops: before the next one, or amid it, with its effect done and the step past it not.
Nothing is assumed of the host here.  It may refuse what it likes, and its cancel flag may go up and
down.
-/

namespace Brainfuck

variable {σ : Type}

/-! ## Outcomes and results -/

theorem Report.result_of_outcome_eq_ok {r : Report σ} (h : r.outcome = some (.ok ())) :
    r.result = some (.ok ()) := by
  unfold outcome at h
  split at h
  · cases h
  · exact h

theorem Report.outcome_eq_error_cases {r : Report σ} {failure : Failure}
    (h : r.outcome = some (.error failure)) :
    r.result = some (.error failure) ∨ ∃ cause, r.result = some (.ok ()) ∧
      r.flushed = .error cause ∧ failure = .io r.machine.pc cause := by
  unfold outcome at h
  split at h
  · next cause hresult hflushed =>
      exact .inr ⟨cause, hresult, hflushed, (Except.error.inj (Option.some.inj h)).symm⟩
  · exact .inl h

theorem Report.result_of_outcome_eq_error {r : Report σ} {failure : Failure}
    (h : r.outcome = some (.error failure)) :
    r.result = some (.error failure) ∨ ∃ ip cause, failure = .io ip cause := by
  rcases Report.outcome_eq_error_cases h with hresult | ⟨cause, _, _, hio⟩
  · exact .inl hresult
  · exact .inr ⟨_, cause, hio⟩

namespace Machine

/-! ## Loops and runs -/

/-- A call has completed `n` instructions and stands at `before`.  This is the machine it leaves,
and its result if it has one. -/
inductive Stops (host : Host σ) (mode : Mode) (control : Option Control) (n : Nat)
    (before : Machine) : Machine → Option (Except Failure Unit) → Prop where
  | underway : Stops host mode control n before before none
  | concluded (flag : Bool) {result : Except Failure Unit} :
      before.next.conclude (Control.verdict (fun _ => flag) n control) = some result →
      Stops host mode control n before before (some result)
  | amid {instr : Instr} {after : Machine} {action : Action} {s s' : σ} {cause : String} :
      before.code.instrs[before.pc]? = some instr → before.act instr = (after, .ok action) →
      host.writeAll s (mode.pieces (before.site n instr) action) = (s', .error cause) →
      Stops host mode control n before after (some (.error (.io before.pc cause)))

theorem exists_stop_loop (host : Host σ) (mode : Mode) (control : Option Control) (fuel : Nat)
    (m : Machine) (s : σ) (i : Nat) :
    ∃ n bytes before, Steps n m bytes before ∧
      (loop host mode control fuel m s i).steps = i + n ∧
      Stops host mode control (i + n) before (loop host mode control fuel m s i).machine
        (loop host mode control fuel m s i).result := by
  induction fuel generalizing m s i with
  | zero => exact ⟨0, [], m, .refl m, rfl, .underway⟩
  | succ fuel ih =>
      rw [loop]
      have hturn := turn_inv host mode control s i m
      generalize m.turn host mode control s i = outcome at hturn ⊢
      cases hturn with
      | concluded hconclude _ =>
          rw [Host.ask_snd] at hconclude
          exact ⟨0, [], m, .refl m, rfl, .concluded _ hconclude⟩
      | refused _ hinstr hact hwrite =>
          exact ⟨0, [], m, .refl m, rfl, .amid hinstr hact hwrite⟩
      | @completed _ after _ s' _ hinstr hact _ =>
          obtain ⟨n, bytes, before, hsteps, hcount, hstops⟩ := ih after.advance s' (i + 1)
          rw [Nat.add_assoc, Nat.add_comm 1 n] at hcount hstops
          exact ⟨n + 1, _, before, .head (next_of_act_eq_ok hinstr hact) hsteps, hcount, hstops⟩

/-- How a call stops: at its header, which is refused before the first instruction, or after some
instructions. -/
theorem exists_stop_run (host : Host σ) (mode : Mode) (control : Option Control) (fuel : Nat)
    (m : Machine) (s : σ) :
    ((m.run host mode control fuel s).machine = m ∧ (m.run host mode control fuel s).steps = 0 ∧
      ∃ s' cause, host.writeAll s mode.header = (s', .error cause) ∧
        (m.run host mode control fuel s).result = some (.error (.io 0 cause))) ∨
    ∃ bytes before, Steps (m.run host mode control fuel s).steps m bytes before ∧
      Stops host mode control (m.run host mode control fuel s).steps before
        (m.run host mode control fuel s).machine (m.run host mode control fuel s).result := by
  rw [run, Progress.machine_close, Progress.steps_close, Progress.result_close, start]
  rcases hheader : host.writeAll s mode.header with ⟨s', cause | ⟨⟩⟩
  · exact .inl ⟨rfl, rfl, s', cause, rfl, rfl⟩
  · obtain ⟨n, bytes, before, hsteps, hsteps', hstops⟩ :=
      exists_stop_loop host mode control fuel m s' 0
    rw [Nat.zero_add] at hsteps' hstops
    simp only [hsteps']
    exact .inr ⟨bytes, before, hsteps, hstops⟩

/-! ## What the result says -/

variable {host : Host σ} {mode : Mode} {control : Option Control} {fuel : Nat} {s : σ}
  {m : Machine}

theorem exists_done_of_result (h : (m.run host mode control fuel s).result = some (.ok ())) :
    ∃ bytes, Steps (m.run host mode control fuel s).steps m bytes
        (m.run host mode control fuel s).machine ∧
      (m.run host mode control fuel s).machine.next = .done := by
  rcases exists_stop_run host mode control fuel m s with
    ⟨_, _, s', cause, _, hrefused⟩ | ⟨bytes, before, hsteps, hstops⟩
  · rw [h] at hrefused
    cases hrefused
  · rw [h] at hstops
    generalize (m.run host mode control fuel s).machine = left at hstops ⊢
    cases hstops with
    | concluded flag hconclude => exact ⟨bytes, hsteps, Next.eq_done_of_conclude hconclude⟩

theorem exists_done_of_outcome (h : (m.run host mode control fuel s).outcome = some (.ok ())) :
    ∃ bytes, Steps (m.run host mode control fuel s).steps m bytes
        (m.run host mode control fuel s).machine ∧
      (m.run host mode control fuel s).machine.next = .done :=
  exists_done_of_result (Report.result_of_outcome_eq_ok h)

/-- Everything that a run can report besides a good end.  Only a fault blames an instruction, and
it is one that cannot be carried out where the run has left the machine. -/
theorem failure_cases {failure : Failure}
    (h : (m.run host mode control fuel s).outcome = some (.error failure)) :
    (∃ ip cause, failure = .io ip cause) ∨ failure = .canceled ∨
      (∃ limit, failure = .stepLimit limit) ∨
      ∃ cause bytes, failure = .fault cause ∧
        Steps (m.run host mode control fuel s).steps m bytes
          (m.run host mode control fuel s).machine ∧
        (m.run host mode control fuel s).machine.next = .stuck cause := by
  rcases Report.result_of_outcome_eq_error h with hresult | ⟨ip, cause, rfl⟩
  · rcases exists_stop_run host mode control fuel m s with
      ⟨_, _, s', cause, _, hrefused⟩ | ⟨bytes, before, hsteps, hstops⟩
    · rw [hresult] at hrefused
      cases hrefused
      exact .inl ⟨0, cause, rfl⟩
    · rw [hresult] at hstops
      generalize (m.run host mode control fuel s).machine = left at hstops ⊢
      cases hstops with
      | concluded flag hconclude =>
          rcases Next.of_conclude_error hconclude with hverdict | ⟨_, cause, rfl, hstuck⟩
          · rcases Control.verdict_eq_some hverdict with rfl | ⟨limit, rfl⟩
            · exact .inr (.inl rfl)
            · exact .inr (.inr (.inl ⟨limit, rfl⟩))
          · exact .inr (.inr (.inr ⟨cause, bytes, rfl, hsteps, hstuck⟩))
      | amid _ _ _ => exact .inl ⟨_, _, rfl⟩
  · exact .inl ⟨ip, cause, rfl⟩

theorem exists_stuck_of_outcome {cause : Fault}
    (h : (m.run host mode control fuel s).outcome = some (.error (.fault cause))) :
    ∃ bytes, Steps (m.run host mode control fuel s).steps m bytes
        (m.run host mode control fuel s).machine ∧
      (m.run host mode control fuel s).machine.next = .stuck cause := by
  rcases failure_cases h with
    ⟨_, _, hio⟩ | hcanceled | ⟨_, hlimit⟩ | ⟨cause', bytes, hfault, hsteps, hstuck⟩
  · cases hio
  · cases hcanceled
  · cases hlimit
  · obtain rfl := Failure.fault.inj hfault
    exact ⟨bytes, hsteps, hstuck⟩

end Machine

end Brainfuck
