import Brainfuck.Proofs.Command.Threads

/-!
# The worker

The worker goes along the completed instructions of its machine, and what it has written is what
they show.  It comes to a result at the end of the code, at a fault, at a budget, or because it has
read the flag as up; and when it is about to send the result there is nothing left in the buffer.
-/

namespace Brainfuck

open Machine

variable {p : Prepared}

theorem Control.eq_true_of_verdict {control : Control} {raised : Bool} {i : Nat}
    (h : Control.verdict (fun _ => raised) i (some control) = some .canceled) : raised = true := by
  cases raised with
  | true => rfl
  | false =>
      obtain ⟨limit, _, hlimit⟩ := Option.bind_eq_some_iff.1 h
      split at hlimit <;> cases hlimit

/-- The worker has completed `i` instructions, each of them allowed by the budget, and stands at
`m`.  It has written what they show. -/
structure Underway (p : Prepared) (c : Console) (m : Machine) (i : Nat) : Prop where
  steps : ∃ bytes, Steps i p.machine bytes m
  free : ∀ j < i, Control.verdict (fun _ => false) j (some p.control) = none
  written : c.written = p.mode.header.flatten ++ transcript p.mode 0 i p.machine

/-- The worker has come to `result`, and read the flag as up only if it is. -/
def Ended (p : Prepared) (c : Console) (flag : Bool) (result : Except Failure Unit) : Prop :=
  ∃ m i raised, Underway p c m i ∧ (raised = true → flag = true) ∧
    m.next.conclude (Control.verdict (fun _ => raised) i (some p.control)) = some result

theorem Ended.mono {c : Console} {flag flag' : Bool} {result : Except Failure Unit}
    (h : Ended p c flag result) (hflag : flag = true → flag' = true) : Ended p c flag' result := by
  obtain ⟨m, i, raised, hunderway, hraised, hresult⟩ := h
  exact ⟨m, i, raised, hunderway, fun h => hflag (hraised h), hresult⟩

/-- With its console flushed, an ended worker has put out what the uncontrolled run puts out up to
some instruction, and all of it if it has come to the end of the code. -/
theorem Ended.exists_free_output {c : Console} {flag : Bool} {result : Except Failure Unit}
    (h : Ended p c flag result) (hempty : c.buffer = #[]) (o : OpenOutlet) :
    ∃ n, c.sent.toList = o.output (o.report p.machine p.mode none n) ∧
      (∀ fuel ≥ n, c.sent.toList <+: o.output (o.report p.machine p.mode none fuel)) ∧
      (result = .ok () → ∀ fuel > n,
        (o.report p.machine p.mode none fuel).outcome = some (.ok ()) ∧
          o.output (o.report p.machine p.mode none fuel) = c.sent.toList) := by
  obtain ⟨m, n, raised, ⟨⟨bytes, hsteps⟩, _, hwritten⟩, _, hresult⟩ := h
  have hsent : c.sent.toList = p.mode.header.flatten ++ transcript p.mode 0 n p.machine := by
    rw [← hwritten, Console.written_of_buffer_eq_empty hempty]
  rw [hsent]
  refine ⟨n, (o.output_of_steps hsteps p.mode).symm,
    fun fuel hfuel => o.transcript_prefix_output hsteps p.mode hfuel, ?_⟩
  rintro rfl fuel hfuel
  have hdone : m.next.result? = some (.ok ()) := by
    rw [Next.eq_done_of_conclude hresult]
    rfl
  exact o.report_of_result hsteps hdone p.mode hfuel

theorem Ended.flag_of_canceled {c : Console} {flag : Bool} (h : Ended p c flag (.error .canceled)) :
    flag = true := by
  obtain ⟨m, i, raised, _, hraised, hresult⟩ := h
  rcases Next.of_conclude_error hresult with hverdict | ⟨_, cause, hfault, _⟩
  · exact hraised (Control.eq_true_of_verdict hverdict)
  · cases hfault

namespace Worker

def Sound (p : Prepared) (c : Console) (flag : Bool) : Worker → Prop
  | .opening => c.written = []
  | .looking m i => Underway p c m i
  | .carrying m i instr =>
    Underway p c m i ∧ Control.verdict (fun _ => false) i (some p.control) = none ∧
      m.code.instrs[m.pc]? = some instr
  | .closing _ _ result => Ended p c flag result
  | .reporting result => Ended p c flag result ∧ c.buffer = #[]
  | .leaving => True
  | .gone => True

def hasSent : Worker → Bool
  | .leaving => true
  | .gone => true
  | _ => false

variable {w w' : Worker} {c c' : Console} {raised flag flag' : Bool}

theorem Sound.mono (h : w.Sound p c flag) (hflag : flag = true → flag' = true) :
    w.Sound p c flag' := by
  cases w with
  | closing m i result => exact Ended.mono h hflag
  | reporting result => exact ⟨h.1.mono hflag, h.2⟩
  | _ => exact h

theorem sound_of_opening (h : c.written = []) (hwork : work p raised c .opening = some (w', c')) :
    w'.Sound p c' flag := by
  obtain ⟨c₁, hheader, hwritten⟩ := (Console.accepting_hostAt raised).writeAll c p.mode.header
  simp only [work, hheader, Option.some.injEq, Prod.mk.injEq] at hwork
  obtain ⟨rfl, rfl⟩ := hwork
  refine ⟨⟨[], .refl p.machine⟩, fun j hj => absurd hj (Nat.not_lt_zero j), ?_⟩
  rw [hwritten, h, List.nil_append]
  exact (List.append_nil _).symm

theorem sound_of_looking {m : Machine} {i : Nat} (h : Underway p c m i)
    (hflag : raised = true → flag = true)
    (hwork : work p raised c (.looking m i) = some (w', c')) : w'.Sound p c' flag := by
  simp only [work, Console.halt?_hostAt] at hwork
  cases hinstr : m.code.instrs[m.pc]? with
  | none =>
      simp only [hinstr, Option.some.injEq, Prod.mk.injEq] at hwork
      obtain ⟨rfl, rfl⟩ := hwork
      exact ⟨m, i, false, h, fun h => absurd h Bool.false_ne_true,
        by rw [next_of_getElem?_eq_none hinstr]; rfl⟩
  | some instr =>
      have hchecked : Underway p { c with checks := c.checks + 1 } m i :=
        ⟨h.steps, h.free, h.written⟩
      cases hverdict : Control.verdict (fun _ => raised) i (some p.control) with
      | none =>
          simp only [hinstr, hverdict, Option.some.injEq, Prod.mk.injEq] at hwork
          obtain ⟨rfl, rfl⟩ := hwork
          -- a flag that is read as up lets no instruction pass
          cases raised with
          | true => cases hverdict
          | false => exact ⟨hchecked, hverdict, hinstr⟩
      | some failure =>
          simp only [hinstr, hverdict, Option.some.injEq, Prod.mk.injEq] at hwork
          obtain ⟨rfl, rfl⟩ := hwork
          exact ⟨m, i, raised, hchecked, hflag, by rw [hverdict, conclude_of_getElem? hinstr]⟩

theorem sound_of_carrying {m : Machine} {i : Nat} {instr : Instr} (h : Underway p c m i)
    (hverdict : Control.verdict (fun _ => false) i (some p.control) = none)
    (hinstr : m.code.instrs[m.pc]? = some instr)
    (hwork : work p raised c (.carrying m i instr) = some (w', c')) : w'.Sound p c' flag := by
  rcases hact : m.act instr with ⟨after, cause | action⟩
  · have hperform : m.perform (Console.hostAt raised) p.mode c i instr =
        (after, c, some (.error (.fault cause))) := by
      rw [perform, hact, settle]
    simp only [work, hperform, Option.some.injEq, Prod.mk.injEq] at hwork
    obtain ⟨rfl, rfl⟩ := hwork
    exact ⟨m, i, false, h, fun h => absurd h Bool.false_ne_true,
      by rw [hverdict, next_of_act_eq_error hinstr hact]; rfl⟩
  · obtain ⟨c₁, hwrite, hwritten⟩ := (Console.accepting_hostAt raised).writeAll
      ((Console.hostAt raised).tell c action) (p.mode.pieces (m.site i instr) action)
    simp only [work, perform_eq_writeAll _ _ _ _ hact, hwrite, Option.some.injEq,
      Prod.mk.injEq] at hwork
    obtain ⟨rfl, rfl⟩ := hwork
    obtain ⟨bytes, hsteps⟩ := h.steps
    have hnext := next_of_act_eq_ok hinstr hact
    refine ⟨⟨_, hsteps.trans (.one hnext)⟩, fun j hj => ?_, ?_⟩
    · rcases Nat.lt_succ_iff_lt_or_eq.1 hj with hlt | rfl
      · exact h.free j hlt
      · exact hverdict
    · rw [hwritten, (Console.accepting_hostAt raised).honest.tell, h.written,
        transcript_concat hsteps hnext, Nat.zero_add, shown_of_act_eq_ok p.mode i hinstr hact,
        List.append_assoc]

theorem sound_of_closing {m : Machine} {i : Nat} {result : Except Failure Unit}
    (h : Ended p c flag result)
    (hwork : work p raised c (.closing m i result) = some (w', c')) : w'.Sound p c' flag := by
  let progress : Progress Console := { machine := m, host := c, steps := i, result := some result }
  obtain ⟨houtcome, _, hwritten⟩ := close_of_accepting (Console.accepting_hostAt raised) progress
  obtain ⟨result', hreported, hpair⟩ := Option.map_eq_some_iff.1 hwork
  obtain rfl : result = result' := Option.some.inj (houtcome.symm.trans hreported)
  obtain ⟨rfl, rfl⟩ := Prod.mk.inj hpair
  obtain ⟨m', n, raised', hunderway, hrest⟩ := h
  exact ⟨⟨m', n, raised', { hunderway with written := hwritten.trans hunderway.written }, hrest⟩,
    Console.buffer_close rfl _ rfl⟩

/-- What the worker does on its own keeps it sound, if it reads the flag as up only when it is. -/
theorem Sound.work (h : w.Sound p c flag) (hflag : raised = true → flag = true)
    (hwork : w.work p raised c = some (w', c')) : w'.Sound p c' flag := by
  cases w with
  | opening => exact sound_of_opening h hwork
  | looking m i => exact sound_of_looking h hflag hwork
  | carrying m i instr => exact sound_of_carrying h.1 h.2.1 h.2.2 hwork
  | closing m i result => exact sound_of_closing h hwork
  | reporting | leaving | gone => cases hwork

theorem hasSent_of_work (hwork : w.work p raised c = some (w', c')) :
    w.hasSent = false ∧ w'.hasSent = false := by
  cases w with
  | opening =>
      simp only [Worker.work] at hwork
      split at hwork <;> (cases hwork; exact ⟨rfl, rfl⟩)
  | looking m i =>
      simp only [Worker.work] at hwork
      split at hwork
      · cases hwork; exact ⟨rfl, rfl⟩
      · split at hwork <;> (cases hwork; exact ⟨rfl, rfl⟩)
  | carrying m i instr =>
      simp only [Worker.work] at hwork
      split at hwork <;> (cases hwork; exact ⟨rfl, rfl⟩)
  | closing m i result =>
      obtain ⟨result', _, hpair⟩ := Option.map_eq_some_iff.1 hwork
      cases hpair
      exact ⟨rfl, rfl⟩
  | reporting | leaving | gone => cases hwork

end Worker

end Brainfuck
