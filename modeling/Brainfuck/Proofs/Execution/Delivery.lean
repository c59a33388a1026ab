import Brainfuck.Proofs.Execution.Outlet

/-!
# Delivery through failing sinks

A run whose sink refuses a byte stops at the `.` that has not put it out yet, and a flush comes
after everything else.  So a run may be attempted any number of times, and what the sinks have taken
in all is what the run puts out, each byte once and in order.
-/

namespace Brainfuck

/-- A plain run without controls, into a sink that may fail at any byte and at the flush. -/
structure Attempt extends Outlet where
  fuel : Nat

def Attempt.toPlainCall (a : Attempt) : PlainCall where
  toOutlet := a.toOutlet
  control := none
  fuel := a.fuel

open Machine

variable {m : Machine} {t : Nat}

theorem Attempt.course (a : Attempt) (m : Machine) :
    Course a.host a.written (fun _ => none) a.fuel 0 m a.start (a.toPlainCall.reportOn m).summary
      (a.toPlainCall.reportOn m).steps (a.toPlainCall.outputOn m) :=
  a.toOutlet.course (.free a.host) trivial m a.fuel

theorem Attempt.exists_steps (a : Attempt) (h : m.HaltsAfter t) (hfuel : t < a.fuel) :
    ∃ n result, Steps n m (a.toPlainCall.outputOn m) (a.toPlainCall.reportOn m).machine ∧
      a.toPlainCall.resultOn m = some result ∧
      Ends a.host none (a.toPlainCall.reportOn m).machine result := by
  have hcourse := a.course m
  rcases hcourse.ending with ⟨hcount, _⟩ | ⟨_, result, hresult, hends⟩
  · obtain ⟨i, ht, _⟩ := h.rest hcourse.steps
    omega
  · exact ⟨_, result, hcourse.steps, hresult, hends⟩

/-- What a sequence of attempts hands over is what the instructions they complete put out. -/
theorem exists_steps_of_attempts (attempts : List Attempt) (h : m.HaltsAfter t)
    (hfuel : ∀ a ∈ attempts, t < a.fuel) :
    ∃ n, Steps n m (m.outputOf (attempts.map Attempt.toPlainCall))
      (m.afterPlain (attempts.map Attempt.toPlainCall)) := by
  induction attempts generalizing m t with
  | nil => exact ⟨0, .refl m⟩
  | cons a attempts ih =>
      obtain ⟨n, _, hone, _, _⟩ := a.exists_steps h (hfuel a List.mem_cons_self)
      obtain ⟨i, rfl, hrest⟩ := h.rest hone
      obtain ⟨n', hsteps⟩ := ih hrest fun a' ha' =>
        Nat.lt_of_le_of_lt (Nat.le_add_left i n) (hfuel a' (List.mem_cons_of_mem a ha'))
      exact ⟨n + n', hone.trans hsteps⟩

/-- How a run without controls can end on the way of one that leads to `final` with `result`: as
that one does, at a `.` whose byte is refused, or at the flush after everything. -/
theorem Machine.Ends.cases_of_steps {σ : Type} {host : Host σ} {after final : Machine} {n : Nat}
    {rest bytes : List UInt8} {result ending : Except Failure Unit}
    (h : Ends host none after ending)
    (hsteps : Steps n m rest after) (hfinal : Steps t m bytes final)
    (hresult : final.next.result? = some result) :
    ending = result ∧ after = final ∨
      ∃ cause, ending = .error (.io after.pc cause) ∧
        (after.code.instrs[after.pc]? = some .put ∨ result = .ok () ∧ after = final) := by
  cases h with
  | concluded hconclude =>
      rw [Next.conclude_none] at hconclude
      obtain ⟨rfl, _⟩ := hsteps.eq_of_halted ⟨_, hconclude⟩ hfinal ⟨_, hresult⟩
      exact .inl ⟨Option.some.inj (hconclude.symm.trans hresult), rfl⟩
  | @refused _ _ cause _ hinstr _ => exact .inr ⟨cause, rfl, .inl hinstr⟩
  | @unflushed _ _ cause hdone _ =>
      have hok : after.next.result? = some (.ok ()) := by
        rw [hdone]
        rfl
      obtain ⟨rfl, _⟩ := hsteps.eq_of_halted ⟨_, hok⟩ hfinal ⟨_, hresult⟩
      exact .inr ⟨cause, rfl, .inr ⟨Option.some.inj (hresult.symm.trans hok), rfl⟩⟩

theorem Machine.of_turn_eq_io {σ : Type} {host : Host σ} {s s' : σ} {i ip : Nat} {after : Machine}
    {cause : String}
    (h : m.turn host .plain none s i = (after, s', some (.error (.io ip cause)))) :
    after = m ∧ ip = m.pc := by
  have htallies : host.Tallies fun _ => [] := ⟨fun _ => rfl, fun _ => rfl, fun _ _ => rfl⟩
  have hturn := turn_cases (i := i) (s := s) htallies (.free host) trivial m .plain
  rw [h] at hturn
  cases hturn with
  | concluded hconclude =>
      rw [Next.conclude_none] at hconclude
      rcases Next.ok_or_fault hconclude with hok | ⟨cause', hfault⟩
      · cases hok
      · cases hfault
  | refused _ _ hact _ hwrite =>
      obtain ⟨byte, rfl, _⟩ := Host.writeAll_eq_error hwrite
      obtain ⟨_, rfl, _⟩ := of_act_eq_emitted hact
      exact ⟨rfl, rfl⟩

/-- What an outlet refuses changes nothing about a machine: neither the byte of a `.` nor the flush
does. -/
structure Outlet.RefusesSafely (o : Outlet) : Prop where
  byte : ∀ (m after : Machine) (s s' : o.σ) (i ip : Nat) (cause : String),
    m.turn o.host .plain none s i = (after, s', some (.error (.io ip cause))) →
      after = m ∧ ip = m.pc
  flush : ∀ (m : Machine) (s : o.σ) (fuel : Nat),
    (m.run o.host .plain none fuel s).machine = (m.start o.host .plain none fuel s).machine

theorem Outlet.refusesSafely (o : Outlet) : o.RefusesSafely where
  byte _ _ _ _ _ _ _ h := of_turn_eq_io h
  flush _ _ _ := Progress.machine_close _ _

/-- Plain runs of one machine, into sinks that fail wherever they like, and one more into a sink
that takes everything, are together the run that no sink has interrupted: the same bytes, each once
and in order, the same result, and the same machine left behind.  On the way every attempt returns,
and leaves the machine at a point that the uninterrupted run comes by.  If its sink has refused a
byte, it is at the `.` that has yet to put that byte out; if only the flush was refused, it is
where the uninterrupted run ends.  Neither refusal changes anything about the machine. -/
theorem interrupted_runs_deliver_once (m : Machine) (whole last : OpenOutlet)
    (attempts : List Attempt) {fuel : Nat} {result : Except Failure Unit}
    (hreturns : (whole.report m .plain none fuel).outcome = some result)
    (hfuel : ∀ a ∈ attempts, fuel ≤ a.fuel) :
    let final := (whole.report m .plain none fuel).machine
    let rest := last.report (m.afterPlain (attempts.map Attempt.toPlainCall)) .plain none fuel
    rest.outcome = some result ∧ rest.machine = final ∧
      m.outputOf (attempts.map Attempt.toPlainCall) ++ last.output rest =
        whole.output (whole.report m .plain none fuel) ∧
      (∀ a ∈ attempts, a.RefusesSafely) ∧
      ∀ front a back, attempts = front ++ a :: back →
        let before := m.afterPlain (front.map Attempt.toPlainCall)
        let after := (a.toPlainCall.reportOn before).machine
        whole.Passes m (m.outputOf ((front ++ [a]).map Attempt.toPlainCall)) after ∧
          (a.toPlainCall.resultOn before = some result ∧ after = final ∨
            ∃ cause, a.toPlainCall.resultOn before = some (.error (.io after.pc cause)) ∧
              (after.code.instrs[after.pc]? = some .put ∨ result = .ok () ∧ after = final)) := by
  intro final rest
  obtain ⟨t, hlt, hfinal, hresult⟩ := whole.exists_steps_of_outcome hreturns
  have hhalts : m.HaltsAfter t := ⟨_, _, hfinal, result, hresult⟩
  have henough : ∀ a ∈ attempts, t < a.fuel := fun a ha => Nat.lt_of_lt_of_le hlt (hfuel a ha)
  -- whatever the attempts have completed, the last run has the rest of the whole left to do
  obtain ⟨n, hsteps⟩ := exists_steps_of_attempts attempts hhalts henough
  obtain ⟨i, tail, rfl, houtput, htail⟩ := hsteps.rest_of_halted hfinal ⟨result, hresult⟩
  obtain ⟨hlast, hmachine, hrest⟩ := last.report_of_halted htail hresult (by omega : i < fuel)
  refine ⟨hlast, hmachine, by rw [houtput, hrest], fun a _ => a.refusesSafely, ?_⟩
  rintro front a back rfl
  intro before after
  obtain ⟨k, hbefore⟩ := exists_steps_of_attempts front hhalts fun a' ha' =>
    henough a' (List.mem_append_left _ ha')
  obtain ⟨j, hj, hleft⟩ := hhalts.rest hbefore
  have hmem : a ∈ front ++ a :: back := List.mem_append_right front List.mem_cons_self
  obtain ⟨l, ending, hone, hending, hends⟩ :=
    a.exists_steps hleft (Nat.lt_of_le_of_lt (by omega) (henough a hmem))
  have hafter := hbefore.trans hone
  refine ⟨?_, ?_⟩
  · rw [List.map_append, List.map_singleton, outputOf_concat]
    exact whole.passes_of_steps hafter
  · rcases hends.cases_of_steps hafter hfinal hresult with ⟨rfl, hsame⟩ | ⟨cause, rfl, hwhere⟩
    · exact .inl ⟨hending, hsame⟩
    · exact .inr ⟨cause, hending, hwhere⟩

def failures : List Attempt := [
  { Sink.outlet { capacity := some 0 } with fuel := 12 },
  { Sink.outlet { capacity := some 1 } with fuel := 12 },
  { Sink.outlet { flushRefusal := some "full" } with fuel := 12 }]

theorem countdown_delivered_once :
    ∃ m, load ",[.-]" "\x02" { tapeSize := 1, feedMode := .stream } = .ok m ∧
      (Sink.openOutlet.report m .plain none 12).outcome = some (.ok ()) ∧
      m.outputOf (failures.map Attempt.toPlainCall) ++
          Sink.openOutlet.output (Sink.openOutlet.report
            (m.afterPlain (failures.map Attempt.toPlainCall)) .plain none 12) = [2, 1] := by
  have hload : load ",[.-]" "\x02" { tapeSize := 1, feedMode := .stream } = .ok _ := rfl
  refine ⟨_, hload, rfl, ?_⟩
  have hfuel : ∀ a ∈ failures, 12 ≤ a.fuel := by simp [failures]
  exact (interrupted_runs_deliver_once _ Sink.openOutlet Sink.openOutlet failures rfl hfuel).2.2.1

end Brainfuck
