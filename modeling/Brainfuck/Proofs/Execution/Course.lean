import Brainfuck.Proofs.Execution.Controls

/-!
# The course of a plain run

A plain run goes along the sequence of completed instructions of its machine until something ends
it.  `Course` says how far it has come, what its sink has taken, and how it ended if it has; it
holds of every loop whose sink takes a byte over or refuses it, under any controls.
-/

namespace Brainfuck

variable {σ : Type}

theorem Host.writeAll_eq_error {host : Host σ} {site : Site} {action : Action} {s s' : σ}
    {cause : String}
    (h : host.writeAll s (Mode.plain.pieces site action) = (s', .error cause)) :
    ∃ byte, action = .emitted byte ∧ host.write s [byte] = (s', .error cause) := by
  cases action with
  | emitted byte =>
      rcases hone : host.write s [byte] with ⟨s₁, cause' | ⟨⟩⟩
      · have hsame : s₁ = s' ∧ cause' = cause := by
          simpa [Host.writeAll, Mode.pieces, hone] using h
        obtain ⟨rfl, rfl⟩ := hsame
        exact ⟨byte, rfl, hone⟩
      · simp [Host.writeAll, Mode.pieces, hone] at h
  | _ => cases h

namespace Host.Honest

variable {host : Host σ} {written : σ → List UInt8} {site : Site} {action : Action} {s s' : σ}

theorem writeAll_eq_ok (h : host.Honest written)
    (hwrite : host.writeAll s (Mode.plain.pieces site action) = (s', .ok ())) :
    written s' = written s ++ action.bytes := by
  cases action with
  | emitted byte =>
      rcases hone : host.write s [byte] with ⟨s₁, cause | ⟨⟩⟩
      · simp [Host.writeAll, Mode.pieces, hone] at hwrite
      · have hsame : s₁ = s' := by
          simpa [Host.writeAll, Mode.pieces, hone] using hwrite
        rw [← hsame]
        exact h.take hone
  | _ =>
      obtain ⟨rfl, _⟩ := Prod.mk.inj hwrite
      exact (List.append_nil _).symm

end Host.Honest

namespace Machine

variable {m after : Machine} {instr : Instr}

theorem of_act_eq_emitted {byte : UInt8} (h : m.act instr = (after, .ok (.emitted byte))) :
    instr = .put ∧ after = m ∧ byte = m.tape.cell := by
  have hmeet {instr' : Instr} {cause : Fault} :
      m.meet instr' cause ≠ (after, .ok (.emitted byte)) := by
    intro h
    unfold meet at h
    split at h <;> cases h
  cases instr with
  | put =>
      obtain ⟨rfl, hbyte⟩ := Prod.mk.inj h
      cases hbyte
      exact ⟨rfl, rfl, rfl⟩
  | inc | dec => cases h
  | left | right | get =>
      simp only [act] at h
      split at h
      · cases h
      · exact absurd h hmeet
  | opening | closing =>
      simp only [act] at h
      split at h <;> cases h

inductive Ends (host : Host σ) (verdict : Option Failure) (m : Machine) :
    Except Failure Unit → Prop where
  | concluded {result : Except Failure Unit} :
      m.next.conclude verdict = some result → Ends host verdict m result
  | refused {s s' : σ} {cause : String} :
      verdict = none → m.code.instrs[m.pc]? = some .put →
      host.write s [m.tape.cell] = (s', .error cause) →
      Ends host verdict m (.error (.io m.pc cause))
  | unflushed {s s' : σ} {cause : String} :
      m.next = .done → host.flush s = (s', .error cause) →
      Ends host verdict m (.error (.io m.pc cause))

theorem Ends.next_eq_done {host : Host σ} {verdict : Option Failure}
    (h : Ends host verdict m (.ok ())) : m.next = .done := by
  cases h with
  | concluded hconclude => exact Next.eq_done_of_conclude hconclude

/-- A run that started with `m` and `s` before instruction number `i` stands at `p`.  It has
completed `n` instructions, which put out `bytes`, and its controls let it. -/
structure Course (host : Host σ) (written : σ → List UInt8) (verdict : Nat → Option Failure)
    (fuel i : Nat) (m : Machine) (s : σ) (p : Progress σ) (n : Nat) (bytes : List UInt8) :
    Prop where
  steps : Steps n m bytes p.machine
  count : p.steps = i + n
  written : written p.host = written s ++ bytes
  free : ∀ j < n, verdict (i + j) = none
  ending : n = fuel ∧ p.result = none ∨
    n < fuel ∧ ∃ result, p.result = some result ∧ Ends host (verdict (i + n)) p.machine result

namespace Course

variable {host : Host σ} {written : σ → List UInt8} {verdict : Nat → Option Failure}
  {fuel i n : Nat} {m after : Machine} {s s' : σ} {p : Progress σ} {bytes rest : List UInt8}

theorem unstarted (m : Machine) (s : σ) :
    Course host written verdict 0 i m s { machine := m, host := s, steps := i, result := none }
      0 [] where
  steps := .refl m
  count := rfl
  written := (List.append_nil _).symm
  free _ hj := absurd hj (Nat.not_lt_zero _)
  ending := .inl ⟨rfl, rfl⟩

theorem ended {result : Except Failure Unit} (hwritten : written s' = written s)
    (hends : Ends host (verdict i) m result) :
    Course host written verdict (fuel + 1) i m s
      { machine := m, host := s', steps := i, result := some result } 0 [] where
  steps := .refl m
  count := rfl
  written := by rw [hwritten, List.append_nil]
  free _ hj := absurd hj (Nat.not_lt_zero _)
  ending := .inr ⟨Nat.succ_pos fuel, result, rfl, hends⟩

theorem cons (hnext : m.next = .step bytes after) (hverdict : verdict i = none)
    (hwritten : written s' = written s ++ bytes)
    (h : Course host written verdict fuel (i + 1) after s' p n rest) :
    Course host written verdict (fuel + 1) i m s p (n + 1) (bytes ++ rest) where
  steps := .head hnext h.steps
  count := by rw [h.count, Nat.add_right_comm, Nat.add_assoc]
  written := by rw [h.written, hwritten, List.append_assoc]
  free j hj := by
    cases j with
    | zero => exact hverdict
    | succ j =>
        have hfree := h.free j (Nat.lt_of_succ_lt_succ hj)
        rwa [Nat.add_right_comm] at hfree
  ending := by
    have hend := h.ending
    rw [Nat.add_right_comm] at hend
    rcases hend with ⟨rfl, hnone⟩ | ⟨hlt, hend⟩
    · exact .inl ⟨rfl, hnone⟩
    · exact .inr ⟨Nat.succ_lt_succ hlt, hend⟩

end Course

variable {host : Host σ} {control : Option Control} {verdict : Nat → Option Failure}
  {seen : Nat → σ → Prop} {written : σ → List UInt8}

theorem exists_course_loop (hhost : host.Honest written)
    (hchecked : host.Checked control verdict seen) (fuel : Nat) {i : Nat} {s : σ}
    (hseen : seen i s) (m : Machine) :
    ∃ n bytes, Course host written verdict fuel i m s (loop host .plain control fuel m s i)
      n bytes := by
  induction fuel generalizing m s i with
  | zero => exact ⟨0, [], .unstarted m s⟩
  | succ fuel ih =>
      rw [loop]
      have hturn := turn_cases hhost.toTallies hchecked hseen m .plain
      generalize m.turn host .plain control s i = outcome at hturn
      cases hturn with
      | concluded hconclude hwritten => exact ⟨0, [], .ended hwritten (.concluded hconclude)⟩
      | refused hverdict hinstr hact hsame hwrite =>
          obtain ⟨byte, rfl, hrefused⟩ := Host.writeAll_eq_error hwrite
          obtain ⟨rfl, rfl, rfl⟩ := of_act_eq_emitted hact
          have hwritten := (hhost.refuse hrefused).trans hsame
          exact ⟨0, [], .ended hwritten (.refused hverdict hinstr hrefused)⟩
      | completed hverdict hinstr hact hsame hwrite hseen' =>
          obtain ⟨n, rest, hcourse⟩ := ih hseen' _
          have hwritten := hhost.writeAll_eq_ok hwrite
          rw [hsame] at hwritten
          exact ⟨n + 1, _, .cons (next_of_act_eq_ok hinstr hact) hverdict hwritten hcourse⟩

end Machine

/-! ## Whole runs -/

/-- A report as its caller sees it: the flush has its part in the result. -/
def Report.summary (r : Report σ) : Progress σ :=
  { r.toProgress with result := r.outcome }

namespace Machine

variable {host : Host σ} {verdict : Nat → Option Failure} {written : σ → List UInt8}

/-- The flush after a run hands over nothing, and shows only if the run came to the end of its
code. -/
theorem course_close (hhost : host.Tallies written) {fuel i n : Nat} {m : Machine} {s : σ}
    {p : Progress σ} {bytes : List UInt8}
    (h : Course host written verdict fuel i m s p n bytes) :
    Course host written verdict fuel i m s (p.close host).summary n bytes := by
  obtain ⟨after, s', count, result⟩ := p
  cases result with
  | none => exact h
  | some result =>
      obtain ⟨hlt, result', hresult, hends⟩ :=
        h.ending.resolve_left fun hnone => by cases hnone.2
      obtain rfl := Option.some.inj hresult
      have hflush := hhost.flush s'
      rcases hflushed : host.flush s' with ⟨s'', flushed⟩
      rw [hflushed] at hflush
      have hwritten := hflush.trans h.written
      simp only [Progress.close, hflushed]
      rcases result with failure | ⟨⟩
      · exact ⟨h.steps, h.count, hwritten, h.free, .inr ⟨hlt, _, rfl, hends⟩⟩
      · rcases flushed with cause | ⟨⟩
        · exact ⟨h.steps, h.count, hwritten, h.free,
            .inr ⟨hlt, _, rfl, .unflushed hends.next_eq_done hflushed⟩⟩
        · exact ⟨h.steps, h.count, hwritten, h.free, .inr ⟨hlt, _, rfl, hends⟩⟩

theorem close_of_accepting (hhost : host.Accepting written) (p : Progress σ) :
    (p.close host).outcome = p.result ∧ (p.close host).machine = p.machine ∧
      written (p.close host).host = written p.host := by
  obtain ⟨machine, s, steps, result⟩ := p
  cases result with
  | none => exact ⟨rfl, rfl, rfl⟩
  | some result =>
      obtain ⟨s', hflush, hwritten⟩ := hhost.flush s
      simp only [Progress.close, hflush]
      refine ⟨?_, trivial, hwritten⟩
      cases result <;> rfl

/-- The course of a plain run, from the first instruction to the flush. -/
theorem exists_course_run (hhost : host.Honest written) {control : Option Control}
    {seen : Nat → σ → Prop} (hchecked : host.Checked control verdict seen) {s : σ}
    (hseen : seen 0 s) (m : Machine) (fuel : Nat) :
    ∃ n bytes, Course host written verdict fuel 0 m s (m.run host .plain control fuel s).summary
      n bytes := by
  obtain ⟨n, bytes, hcourse⟩ := exists_course_loop hhost hchecked fuel hseen m
  exact ⟨n, bytes, course_close hhost.toTallies hcourse⟩

theorem Ends.conclude_of_accepting {verdict : Option Failure} {m : Machine}
    {result : Except Failure Unit} (h : Ends host verdict m result)
    (hhost : host.Accepting written) : m.next.conclude verdict = some result := by
  cases h with
  | concluded hconclude => exact hconclude
  | @refused s _ _ _ _ hwrite =>
      obtain ⟨s', hwrite', _⟩ := hhost.write s [m.tape.cell]
      rw [hwrite] at hwrite'
      cases hwrite'
  | @unflushed s _ _ _ hflush =>
      obtain ⟨s', hflush', _⟩ := hhost.flush s
      rw [hflush] at hflush'
      cases hflush'

theorem Course.of_result (hhost : host.Accepting written) {fuel n : Nat} {m : Machine} {s : σ}
    {p : Progress σ} {bytes : List UInt8} {result : Except Failure Unit}
    (h : Course host written verdict fuel 0 m s p n bytes) (hresult : p.result = some result) :
    n < fuel ∧ p.machine.next.conclude (verdict n) = some result := by
  rcases h.ending with ⟨_, hnone⟩ | ⟨hlt, result', hresult', hends⟩
  · exact absurd (hresult.symm.trans hnone) (Option.some_ne_none result)
  · obtain rfl := Option.some.inj (hresult.symm.trans hresult')
    rw [Nat.zero_add] at hends
    exact ⟨hlt, hends.conclude_of_accepting hhost⟩

/-! ## Plain runs without controls -/

section Returns

variable {m m' : Machine} {n fuel : Nat} {bytes : List UInt8} {result : Except Failure Unit}

theorem exists_steps_of_outcome (hhost : host.Accepting written) {s : σ}
    (h : (m.run host .plain none fuel s).outcome = some result) :
    ∃ n bytes, n < fuel ∧ Steps n m bytes (m.run host .plain none fuel s).machine ∧
      written (m.run host .plain none fuel s).host = written s ++ bytes ∧
      (m.run host .plain none fuel s).machine.next.result? = some result := by
  obtain ⟨n, bytes, hcourse⟩ :=
    exists_course_run hhost.honest (.free host) (s := s) trivial m fuel
  obtain ⟨hlt, hconclude⟩ := hcourse.of_result hhost h
  rw [Next.conclude_none] at hconclude
  exact ⟨n, bytes, hlt, hcourse.steps, hcourse.written, hconclude⟩

/-- With the fuel for it, a run goes through every sequence of completed instructions that comes to
an end, and returns. -/
theorem run_of_halted (hhost : host.Accepting written) (h : Steps n m bytes m')
    (hresult : m'.next.result? = some result) (hfuel : n < fuel) (s : σ) :
    (m.run host .plain none fuel s).outcome = some result ∧
      (m.run host .plain none fuel s).machine = m' ∧
      written (m.run host .plain none fuel s).host = written s ++ bytes := by
  have hhalted : m'.Halted := ⟨result, hresult⟩
  obtain ⟨k, rest, hcourse⟩ :=
    exists_course_run hhost.honest (.free host) (s := s) trivial m fuel
  rcases hcourse.ending with ⟨rfl, _⟩ | ⟨_, result', houtcome, _⟩
  · obtain ⟨j, _, hn, _, _⟩ := hcourse.steps.rest_of_halted h hhalted
    omega
  · have hconclude := (hcourse.of_result hhost houtcome).2
    rw [Next.conclude_none] at hconclude
    obtain ⟨hmachine, rfl⟩ := h.eq_of_halted hhalted hcourse.steps ⟨result', hconclude⟩
    subst hmachine
    obtain rfl := Option.some.inj (hresult.symm.trans hconclude)
    exact ⟨houtcome, rfl, hcourse.written⟩

/-- A call returns, given enough fuel, with this result, machine and host state. -/
def Returns {σ : Type} (m : Machine) (host : Host σ) (mode : Mode) (control : Option Control)
    (s : σ) (result : Except Failure Unit) (after : Machine) (s' : σ) : Prop :=
  ∃ fuel, (m.run host mode control fuel s).outcome = some result ∧
    (m.run host mode control fuel s).machine = after ∧
    (m.run host mode control fuel s).host = s'

/-- The calls that return are the sequences of completed instructions that come to a result. -/
theorem returns_iff (hhost : host.Accepting written) {s : σ} :
    (∃ s', m.Returns host .plain none s result m' s' ∧ written s' = written s ++ bytes) ↔
      ∃ n, Steps n m bytes m' ∧ m'.next.result? = some result := by
  constructor
  · rintro ⟨s', ⟨fuel, houtcome, rfl, rfl⟩, hwritten⟩
    obtain ⟨n, bytes', _, hsteps, hbytes, hresult⟩ := exists_steps_of_outcome hhost houtcome
    rw [hbytes] at hwritten
    obtain rfl := List.append_cancel_left hwritten
    exact ⟨n, hsteps, hresult⟩
  · rintro ⟨n, hsteps, hresult⟩
    obtain ⟨houtcome, hmachine, hwritten⟩ :=
      run_of_halted hhost hsteps hresult (Nat.lt_succ_self n) s
    exact ⟨_, ⟨n + 1, houtcome, hmachine, rfl⟩, hwritten⟩

theorem not_returns_iff (hhost : host.Accepting written) (m : Machine) (s : σ) :
    (∀ fuel, (m.run host .plain none fuel s).outcome = none) ↔ ¬∃ n, m.HaltsAfter n := by
  constructor
  · rintro hnone ⟨n, bytes, m', hsteps, result, hresult⟩
    have houtcome := (run_of_halted hhost hsteps hresult (Nat.lt_succ_self n) s).1
    rw [hnone] at houtcome
    cases houtcome
  · intro hgoes fuel
    cases houtcome : (m.run host .plain none fuel s).outcome with
    | none => rfl
    | some result =>
        obtain ⟨n, bytes, _, hsteps, _, hresult⟩ := exists_steps_of_outcome hhost houtcome
        exact absurd ⟨n, bytes, _, hsteps, result, hresult⟩ hgoes

end Returns

end Machine

end Brainfuck
