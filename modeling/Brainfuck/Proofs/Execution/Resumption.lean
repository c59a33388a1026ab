import Brainfuck.Proofs.Execution.Modes
import Brainfuck.Proofs.Execution.Stops

/-!
# Resuming after a refused table line

The row of an instruction goes out between its effect and the step past it.  So a table run whose
row is refused leaves the machine with the effect done and, unless it was a jump, at the same
instruction.  Going on from there is harmless if the effect touched neither the tape nor the queue:
a jump has stopped at the partner bracket, which passes at once.  Otherwise the instruction is
carried out a second time, and a byte that it took from the queue is lost.
-/

namespace Brainfuck

namespace Code

variable {code : Code} {i : Nat}

theorem closing_at_partner (h : Linked code.size code.instrs.toList [] code.partners)
    (hi : code.instrs[i]? = some .opening) : code.instrs[code.partner i]? = some .closing := by
  obtain ⟨j, hij⟩ := exists_partners_of_opening h hi
  rw [(partner_of_partners h hij).1]
  exact bracketAt_eq_closing.1 hij.closing

theorem opening_at_partner (h : Linked code.size code.instrs.toList [] code.partners)
    (hi : code.instrs[i]? = some .closing) : code.instrs[code.partner i]? = some .opening := by
  obtain ⟨j, hji⟩ := exists_partners_of_closing h hi
  rw [(partner_of_partners h hji).2]
  exact bracketAt_eq_opening.1 hji.opening

end Code

namespace Machine

variable {m after : Machine} {instr : Instr} {action : Action}

theorem eq_of_pc_eq (hact : m.act instr = (after, .ok action)) (htape : after.tape = m.tape)
    (hfeed : after.feed = m.feed) (hpc : after.pc = m.pc) : after = m := by
  have hcode := code_act m instr
  have hpolicy := policy_act m instr
  rw [hact] at hcode hpolicy
  exact Machine.ext hcode htape hpc hfeed hpolicy

theorem next_of_jumped (hlinked : m.IsLinked) (hinstr : m.code.instrs[m.pc]? = some instr)
    (hafter : after = { m with pc := m.code.partner m.pc })
    (hjump : instr = .opening ∧ m.tape.cell = 0 ∨ instr = .closing ∧ m.tape.cell ≠ 0) :
    after.next = .step [] after.advance := by
  subst hafter
  rcases hjump with ⟨rfl, hzero⟩ | ⟨rfl, hnonzero⟩
  · have hact : act { m with pc := m.code.partner m.pc } .closing =
        ({ m with pc := m.code.partner m.pc }, .ok .exited) := by
      rw [act, if_pos hzero]
    exact next_of_act_eq_ok (Code.closing_at_partner hlinked hinstr) hact
  · have hact : act { m with pc := m.code.partner m.pc } .opening =
        ({ m with pc := m.code.partner m.pc }, .ok .entered) := by
      rw [act, if_neg hnonzero]
    exact next_of_act_eq_ok (Code.opening_at_partner hlinked hinstr) hact

/-- The instruction at `before` has been carried out, which has led to `left`, and has not been
stepped past. -/
def Amid (before left : Machine) : Prop :=
  ∃ instr action, before.code.instrs[before.pc]? = some instr ∧
    before.act instr = (left, .ok action)

namespace Amid

variable {before left : Machine}

theorem exists_next (h : before.Amid left) : ∃ bytes, before.next = .step bytes left.advance := by
  obtain ⟨instr, action, hinstr, hact⟩ := h
  exact ⟨_, next_of_act_eq_ok hinstr hact⟩

theorem eq_or_jumped (h : before.Amid left) (htape : left.tape = before.tape)
    (hfeed : left.feed = before.feed) :
    left = before ∨ left = { before with pc := before.code.partner before.pc } := by
  obtain ⟨instr, action, _, hact⟩ := h
  have hpc := before.act_pc_cases instr
  rw [hact] at hpc
  rcases hpc with hpc | ⟨hjumped, _⟩
  · exact .inl (eq_of_pc_eq hact htape hfeed hpc)
  · exact .inr hjumped

/-- If the instruction touched neither the tape nor the queue, one more step from where it has left
the machine leads where the step past it leads. -/
theorem exists_next_left (h : before.Amid left) (hlinked : before.IsLinked)
    (htape : left.tape = before.tape) (hfeed : left.feed = before.feed) :
    ∃ bytes, left.next = .step bytes left.advance := by
  obtain ⟨instr, action, hinstr, hact⟩ := h
  have hpc := before.act_pc_cases instr
  rw [hact] at hpc
  rcases hpc with hpc | ⟨hjumped, hjump⟩
  · obtain rfl := eq_of_pc_eq hact htape hfeed hpc
    exact ⟨_, next_of_act_eq_ok hinstr hact⟩
  · exact ⟨_, next_of_jumped hlinked hinstr hjumped hjump⟩

/-- An instruction that touched the tape or the queue is the next one again. -/
theorem repeats (h : before.Amid left)
    (heffect : ¬(left.tape = before.tape ∧ left.feed = before.feed)) :
    left.pc = before.pc ∧ left.code = before.code := by
  obtain ⟨instr, action, _, hact⟩ := h
  have hpc := before.act_pc_cases instr
  have hcode := code_act before instr
  rw [hact] at hpc hcode
  rcases hpc with hpc | ⟨rfl, _⟩
  · exact ⟨hpc, hcode⟩
  · exact absurd ⟨rfl, rfl⟩ heffect

end Amid

/-! ## Refused rows -/

theorem exists_amid_of_refused {σ : Type} {host : Host σ} {mode : Mode}
    {control : Option Control} {fuel : Nat} {s : σ} {ip : Nat} {cause : String}
    (h : (m.run host mode control fuel s).result = some (.error (.io ip cause))) :
    ∃ bytes before, Steps (m.run host mode control fuel s).steps m bytes before ∧
      ((m.run host mode control fuel s).machine = before ∧
          (m.run host mode control fuel s).steps = 0 ∧ ip = 0 ∨
        before.Amid (m.run host mode control fuel s).machine ∧ ip = before.pc) := by
  rcases exists_stop_run host mode control fuel m s with
    ⟨hmachine, hcount, s', cause', _, hresult⟩ | ⟨bytes, before, hsteps, hstops⟩
  · rw [h] at hresult
    cases hresult
    rw [hmachine, hcount]
    exact ⟨[], m, .refl m, .inl ⟨rfl, rfl, rfl⟩⟩
  · refine ⟨bytes, before, hsteps, .inr ?_⟩
    rw [h] at hstops
    generalize (m.run host mode control fuel s).machine = left at hstops ⊢
    cases hstops with
    | concluded flag hconclude =>
        -- neither a fault nor the controls report a refused write
        rcases Next.of_conclude_error hconclude with hverdict | ⟨_, cause', hfault, _⟩
        · rcases Control.verdict_eq_some hverdict with hcanceled | ⟨limit, hlimit⟩
          · cases hcanceled
          · cases hlimit
        · cases hfault
    | amid hinstr hact _ => exact ⟨⟨_, _, hinstr, hact⟩, rfl⟩

theorem exists_returns_iff_of_steps (o o' : OpenOutlet) (mode mode' : Mode) {m m' meet : Machine}
    {n n' : Nat} {bytes bytes' : List UInt8} (h : Steps n m bytes meet)
    (h' : Steps n' m' bytes' meet) (result : Except Failure Unit) (final : Machine) :
    (∃ s, m.Returns o.host mode none o.start result final s) ↔
      ∃ s, m'.Returns o'.host mode' none o'.start result final s := by
  rw [exists_returns_iff, exists_returns_iff, h.exists_result_iff, h'.exists_result_iff]

theorem isLinked_after {source input : String} {config : MachineConfig}
    (hload : load source input config = .ok m) (calls : List Call) : (m.after calls).IsLinked :=
  (continues_after (isLinked_of_load hload) (pc_le_of_load hload) calls).1.isLinked
    (isLinked_of_load hload)

/-- A table run whose line is refused has completed some instructions of the plain run.  If the line
was of the header, it has completed none and changed nothing.  If it was the row of an instruction,
the effect of that instruction is done, and only the step past it is missing to the next machine
that the plain run comes by.  Going on from there comes to what the uninterrupted run comes to,
whenever that effect has touched neither the tape nor the queue: it was none, or a jump.  Any other
instruction is the next one again. -/
theorem refused_row_resumes {source input : String} {config : MachineConfig} {m₀ : Machine}
    (hload : load source input config = .ok m₀) (calls : List Call) {σ : Type} (host : Host σ)
    (control : Option Control) (fuel : Nat) (s : σ) {ip : Nat} {cause : String}
    (hrefused : ((m₀.after calls).run host .table control fuel s).result =
      some (.error (.io ip cause))) (whole : OpenOutlet) :
    let m := m₀.after calls
    let r := m.run host .table control fuel s
    let plain := whole.report m .plain none
    let before := (plain r.steps).machine
    let untouched := r.machine.tape = before.tape ∧ r.machine.feed = before.feed
    (plain r.steps).steps = r.steps ∧
    (r.machine = before ∧ r.steps = 0 ∧ ip = 0 ∨
      before.Amid r.machine ∧ ip = before.pc ∧ (plain (r.steps + 1)).steps = r.steps + 1 ∧
        (plain (r.steps + 1)).machine = r.machine.advance) ∧
    (untouched →
      (r.machine = before ∨ r.machine = { before with pc := before.code.partner before.pc }) ∧
      ∀ (last : OpenOutlet) (mode : Mode) (result : Except Failure Unit) (final : Machine),
        (∃ s', r.machine.Returns last.host mode none last.start result final s') ↔
          ∃ s', m.Returns whole.host .plain none whole.start result final s') ∧
    (¬untouched → r.machine.pc = before.pc ∧ r.machine.code = before.code) := by
  intro m r plain before untouched
  obtain ⟨bytes, before', hsteps, hstands⟩ := exists_amid_of_refused hrefused
  obtain ⟨hruns, hbefore, _⟩ := whole.report_of_steps hsteps
  have hsame : before = before' := hbefore
  subst hsame
  have hlinked : before.IsLinked := by
    rw [IsLinked, hsteps.code_eq]
    exact isLinked_after hload calls
  rcases hstands with ⟨hleft, hcount, rfl⟩ | ⟨hamid, rfl⟩
  · refine ⟨hruns, .inl ⟨hleft, hcount, rfl⟩, fun _ => ⟨.inl hleft, ?_⟩, fun heffect => ?_⟩
    · intro last mode result final
      rw [hleft]
      exact exists_returns_iff_of_steps last whole mode .plain (.refl before) hsteps result final
    · exact absurd ⟨by rw [hleft], by rw [hleft]⟩ heffect
  · obtain ⟨out, hnext⟩ := hamid.exists_next
    have hafter := hsteps.trans (.one hnext)
    obtain ⟨hruns', hmachine, _⟩ := whole.report_of_steps hafter
    refine ⟨hruns, .inr ⟨hamid, rfl, hruns', hmachine⟩, fun huntouched => ?_, hamid.repeats⟩
    obtain ⟨htape, hfeed⟩ := huntouched
    refine ⟨hamid.eq_or_jumped htape hfeed, fun last mode result final => ?_⟩
    obtain ⟨out', hnext'⟩ := hamid.exists_next_left hlinked htape hfeed
    exact exists_returns_iff_of_steps last whole mode .plain (.one hnext') hafter result final

def pieceLimited : Host Nat where
  write
    | 0, _ => (0, .error "closed")
    | n + 1, _ => (n, .ok ())
  flush n := (n, .ok ())
  poll n := (n, false)
  passedOver n _ := n

/-- The header is taken in four pieces, the row of a jump is refused, and the run goes on from the
partner bracket. -/
theorem refused_jump_resumes :
    ∃ m, load "[.]+" "" { tapeSize := 1 } = .ok m ∧
      (m.run pieceLimited .table none 9 4).result =
        some (.error (.io 0 "closed")) ∧
      (m.run pieceLimited .table none 9 4).machine = { m with pc := 2 } ∧
      ∀ mode result final,
        (∃ s, { m with pc := 2 }.Returns Sink.openOutlet.host mode none {} result final s) ↔
          ∃ s, m.Returns Sink.openOutlet.host .plain none {} result final s := by
  have hload : load "[.]+" "" { tapeSize := 1 } = .ok _ := rfl
  obtain ⟨_, _, hresumes, _⟩ := @refused_row_resumes _ _ _ _ hload [] _ pieceLimited none 9 4 0
    "closed" rfl Sink.openOutlet
  exact ⟨_, hload, rfl, rfl, (hresumes ⟨rfl, rfl⟩).2 Sink.openOutlet⟩

/-- The row of a `,` is refused: no number of instructions of the plain run leads to the machine
that is left, and the run that goes on from it has lost the byte. -/
theorem refused_row_repeats_read :
    ∃ m, load ",." "ab" { tapeSize := 1, feedMode := .stream } = .ok m ∧
      (m.run pieceLimited .table none 9 4).result =
        some (.error (.io 0 "closed")) ∧
      (∀ n, (Sink.openOutlet.report m .plain none n).machine ≠
        (m.run pieceLimited .table none 9 4).machine) ∧
      let left := (m.run pieceLimited .table none 9 4).machine
      Sink.openOutlet.output (Sink.openOutlet.report m .plain none 9) = [97] ∧
      Sink.openOutlet.output (Sink.openOutlet.report left .plain none 9) = [98] ∧
      (Sink.openOutlet.report left .plain none 9).machine.feed.pending = [] ∧
      (Sink.openOutlet.report m .plain none 9).machine.feed.pending = [98] := by
  have hload : load ",." "ab" { tapeSize := 1, feedMode := .stream } = .ok _ := rfl
  refine ⟨_, hload, rfl, fun n hleft => ?_, rfl, rfl, rfl, rfl⟩
  -- before its first instruction the plain run has two bytes to read, and later it is past the `,`
  match n with
  | 0 =>
      have hpending : 2 = 1 := congrArg (fun m => m.feed.pending.length) hleft
      cases hpending
  | 1 =>
      have hpc : 1 = 0 := congrArg pc hleft
      cases hpc
  | 2 | n + 3 =>
      have hpc : 2 = 0 := congrArg pc hleft
      cases hpc

end Machine

end Brainfuck
