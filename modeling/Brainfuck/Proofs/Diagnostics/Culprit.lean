import Brainfuck.Proofs.Brackets.Verdict
import Brainfuck.Proofs.Diagnostics.Excerpt
import Brainfuck.Proofs.Execution.Comments
import Brainfuck.Proofs.Execution.Faults

/-!
# What a diagnostic points at

An unmatched bracket is counted in the characters of the source and an instruction in those of the
source without its comments.  A call that reports an instruction has come to it, and `Blames` is
every way in which it can: a fault there, a refused write, a refused header or a refused flush.  In
all of them the index is one of the code or its end, so the caret is under that instruction or just
behind the code.
-/

namespace Brainfuck

open Machine

/-! ## Unmatched brackets -/

theorem isControl_toChar_bracket (b : Bracket) : isControl b.toChar = false := by
  cases b <;> decide

theorem isControl_toChar_instr (x : Instr) : isControl x.toChar = false := by
  cases x <;> decide

theorem unmatched_of_checkBrackets {source : String} {u : Unmatched}
    (h : checkBrackets source = .error u) :
    source.toList[u.pos]? = some u.bracket.toChar ∧
      (u.bracket = .closing ∧ IsStray source.toList u.pos ∨
        u.bracket = .opening ∧ IsUnclosed source.toList u.pos) := by
  obtain ⟨bracket, pos⟩ := u
  cases bracket with
  | opening =>
      have hinner := (checkBrackets_eq_opening_iff source pos).1 h
      exact ⟨hinner.char, .inr ⟨rfl, hinner.isUnclosed⟩⟩
  | closing =>
      have hfirst := (checkBrackets_eq_closing_iff source pos).1 h
      exact ⟨hfirst.char, .inl ⟨rfl, hfirst.isStray⟩⟩

/-! ## Failures with the index of an instruction -/

namespace Failure

def ip? : Failure → Option Nat
  | .fault (.outOfBounds ip _ _) => some ip
  | .fault (.inputExhausted ip) => some ip
  | .io ip _ => some ip
  | _ => none

theorem exists_render_eq_withWindow {failure : Failure} {ip : Nat} (h : failure.ip? = some ip)
    (program : Option String) (source : String) :
    ∃ headline,
      failure.render program source = withWindow headline "instruction" (strip source) ip := by
  unfold ip? at h
  split at h
  · obtain rfl := Option.some.inj h
    exact ⟨_, rfl⟩
  · obtain rfl := Option.some.inj h
    exact ⟨_, rfl⟩
  · obtain rfl := Option.some.inj h
    exact ⟨_, rfl⟩
  · cases h

end Failure

theorem Fault.Describes.ip?_eq {m : Machine} {cause : Fault} (h : cause.Describes m) :
    (Failure.fault cause).ip? = some m.pc := by
  cases cause with
  | outOfBounds ip head sign => exact congrArg some h.1
  | inputExhausted ip => exact congrArg some h.1

/-! ## What a call blames -/

/-- How a call that has come to `r` reports a failure with the index `ip`. -/
inductive Report.Blames {σ : Type} (mode : Mode) (r : Report σ) : Failure → Nat → Prop where
  | fault {cause : Fault} : cause.Describes r.machine →
      Blames mode r (.fault cause) r.machine.pc
  | write {ip : Nat} {cause : String} {instr : Instr} :
      r.machine.code.instrs[ip]? = some instr → (mode = .plain → instr = .put) →
      Blames mode r (.io ip cause) ip
  | header {cause : String} : mode ≠ .plain → Blames mode r (.io 0 cause) 0
  | flush {cause : String} : r.result = some (.ok ()) → r.flushed = .error cause →
      r.machine.next = .done → Blames mode r (.io r.machine.pc cause) r.machine.pc

section Calls

variable {σ : Type} {host : Host σ} {mode : Mode} {control : Option Control} {fuel : Nat} {s : σ}
  {m : Machine} {failure : Failure} {ip : Nat}

theorem eq_put_of_refused {site : Site} {instr : Instr} {action : Action} {after : Machine}
    {s' : σ} {cause : String} (hact : m.act instr = (after, .ok action))
    (hwrite : host.writeAll s (mode.pieces site action) = (s', .error cause)) :
    mode = .plain → instr = .put := by
  rintro rfl
  obtain ⟨byte, rfl, _⟩ := Host.writeAll_eq_error hwrite
  exact (of_act_eq_emitted hact).1

theorem blames_of_result (h : (m.run host mode control fuel s).result = some (.error failure))
    (hip : failure.ip? = some ip) : (m.run host mode control fuel s).Blames mode failure ip := by
  rcases exists_stop_run host mode control fuel m s with
    ⟨_, _, s', cause, hheader, hrefused⟩ | ⟨bytes, before, _, hstops⟩
  · rw [h] at hrefused
    obtain rfl := Except.error.inj (Option.some.inj hrefused)
    obtain rfl := Option.some.inj hip
    refine .header ?_
    rintro rfl
    cases hheader
  · rw [h] at hstops
    generalize m.run host mode control fuel s = r at hstops
    generalize hmachine : r.machine = left at hstops
    cases hstops with
    | concluded flag hconclude =>
        subst hmachine
        -- what the controls say has no index, so only a fault is left
        rcases Next.of_conclude_error hconclude with hverdict | ⟨_, cause, rfl, hstuck⟩
        · rcases Control.verdict_eq_some hverdict with rfl | ⟨limit, rfl⟩
          · cases hip
          · cases hip
        · have hdescribes := (of_next_eq_stuck hstuck).2
          rw [hdescribes.ip?_eq] at hip
          obtain rfl := Option.some.inj hip
          exact .fault hdescribes
    | @amid instr _ _ _ _ cause hinstr hact hwrite =>
        subst hmachine
        obtain rfl := Option.some.inj hip
        have hcode := code_act before instr
        rw [hact] at hcode
        exact .write (by rw [hcode]; exact hinstr) (eq_put_of_refused hact hwrite)

theorem blames_of_outcome (h : (m.run host mode control fuel s).outcome = some (.error failure))
    (hip : failure.ip? = some ip) : (m.run host mode control fuel s).Blames mode failure ip := by
  rcases Report.outcome_eq_error_cases h with hresult | ⟨cause, hresult, hflushed, rfl⟩
  · exact blames_of_result hresult hip
  · obtain rfl := Option.some.inj hip
    obtain ⟨_, _, hdone⟩ := exists_done_of_result hresult
    exact .flush hresult hflushed hdone

end Calls

/-! ## The instruction at the index -/

/-- A call in this mode can report `failure` of an instruction that is spelled `c`. -/
def Failure.Accuses (mode : Mode) (c : Char) : Failure → Prop
  | .fault (.outOfBounds _ _ sign) => c = sign
  | .fault (.inputExhausted _) => c = ','
  | .io _ _ => mode = .plain → c = '.'
  | _ => False

theorem Fault.Describes.exists_accused {m : Machine} {cause : Fault} (h : cause.Describes m)
    (mode : Mode) :
    ∃ x, m.code.instrs[m.pc]? = some x ∧ (Failure.fault cause).Accuses mode x.toChar := by
  cases cause with
  | outOfBounds ip head sign =>
      obtain ⟨rfl, _, ⟨rfl, hleft, _⟩ | ⟨rfl, hright, _⟩⟩ := h
      · exact ⟨.left, hleft, rfl⟩
      · exact ⟨.right, hright, rfl⟩
  | inputExhausted ip =>
      obtain ⟨rfl, hget, _⟩ := h
      exact ⟨.get, hget, rfl⟩

/-- What is blamed is an instruction of a kind that can be accused of it, or the place behind the
code, for want of an instruction. -/
theorem Report.Blames.culprit {σ : Type} {mode : Mode} {r : Report σ} {failure : Failure} {ip : Nat}
    (h : r.Blames mode failure ip) (hpc : r.machine.pc ≤ r.machine.code.size) :
    (∃ x, r.machine.code.instrs[ip]? = some x ∧ failure.Accuses mode x.toChar) ∨
    ip = r.machine.code.size ∧ ∃ cause, failure = .io ip cause ∧
      (r.result = some (.ok ()) ∧ r.flushed = .error cause ∨
        mode ≠ .plain ∧ r.machine.code.size = 0) := by
  cases h with
  | fault hdescribes => exact .inl (hdescribes.exists_accused mode)
  | @write ip cause instr hinstr hput =>
      refine .inl ⟨instr, hinstr, fun hplain => ?_⟩
      rw [hput hplain]
      rfl
  | @header cause hmode =>
      cases hfirst : r.machine.code.instrs[0]? with
      | some x => exact .inl ⟨x, rfl, fun hplain => absurd hplain hmode⟩
      | none =>
          have hempty : r.machine.code.size = 0 :=
            Nat.le_zero.1 (Array.getElem?_eq_none_iff.1 hfirst)
          exact .inr ⟨hempty.symm, cause, rfl, .inr ⟨hmode, hempty⟩⟩
  | @flush cause hresult hflushed hdone =>
      have hend := Nat.le_antisymm hpc (size_le_of_next_eq_done hdone)
      exact .inr ⟨hend, cause, rfl, .inl ⟨hresult, hflushed⟩⟩

theorem Code.getElem?_strip_of_parse {source : String} {code : Code} (h : parse source = .ok code)
    (i : Nat) : (strip source).toList[i]? = (code.instrs[i]?).map Instr.toChar := by
  rw [← text_of_parse h, text, String.toList_ofList, List.getElem?_map, Array.getElem?_toList]

theorem Code.length_strip_of_parse {source : String} {code : Code} (h : parse source = .ok code) :
    (strip source).toList.length = code.size := by
  rw [← text_of_parse h, text, String.toList_ofList, List.length_map, Array.length_toList, size]

theorem Report.Blames.shown {σ : Type} {mode : Mode} {r : Report σ} {failure : Failure} {ip : Nat}
    {source : String} {code : Code} (h : r.Blames mode failure ip) (hip : failure.ip? = some ip)
    (hcode : r.machine.code = code) (hparse : Code.parse source = .ok code)
    (hpc : r.machine.pc ≤ r.machine.code.size) (program : Option String) :
    ip ≤ code.size ∧
    (ip < code.size → ∃ c, (strip source).toList[ip]? = some c ∧
      PointsAt (failure.render program source) "instruction" ip c ∧ failure.Accuses mode c) ∧
    (ip = code.size →
      PointsPastEnd (failure.render program source) "instruction" ip ∧
      ∃ cause, failure = .io ip cause ∧
        (r.result = some (.ok ()) ∧ r.flushed = .error cause ∨
          mode ≠ .plain ∧ code.size = 0)) := by
  obtain ⟨headline, hrender⟩ := Failure.exists_render_eq_withWindow hip program source
  have hculprit := h.culprit hpc
  rw [hcode] at hculprit
  rw [hrender]
  rcases hculprit with ⟨x, hx, haccuses⟩ | ⟨hend, hcause⟩
  · have hlt : ip < code.size := (Array.getElem?_eq_some_iff.1 hx).1
    have hchar : (strip source).toList[ip]? = some x.toChar := by
      rw [Code.getElem?_strip_of_parse hparse, hx, Option.map_some]
    have hpoints :
        PointsAt (withWindow headline "instruction" (strip source) ip) "instruction" ip x.toChar :=
      pointsAt_withWindow (by decide) hchar (isControl_toChar_instr x)
    exact ⟨Nat.le_of_lt hlt, fun _ => ⟨x.toChar, hchar, hpoints, haccuses⟩,
      fun hend => absurd hend (Nat.ne_of_lt hlt)⟩
  · have hpoints :
        PointsPastEnd (withWindow headline "instruction" (strip source) ip) "instruction" ip :=
      pointsPastEnd_withWindow (by decide) (hend.trans (Code.length_strip_of_parse hparse).symm)
    exact ⟨Nat.le_of_eq hend, fun hlt => absurd hend (Nat.ne_of_lt hlt),
      fun _ => ⟨hpoints, hcause⟩⟩

/-- What the check refuses is shown with the caret under the bracket without a partner, and the
index of that bracket in the source.  What a call of any session reports of an instruction is shown
with the caret under that instruction in the source without its comments, and it is an instruction
that can be accused of it; or else the caret is just behind the code, and either the flush after a
good end was refused, or the header of a run of no code. -/
theorem diagnostics_point_at_culprit (program : Option String) (source : String) :
    (∀ u, checkBrackets source = .error u →
      PointsAt ((Failure.unmatched u).render program source) "position" u.pos u.bracket.toChar ∧
      source.toList[u.pos]? = some u.bracket.toChar ∧
      (u.bracket = .closing ∧ IsStray source.toList u.pos ∨
        u.bracket = .opening ∧ IsUnclosed source.toList u.pos)) ∧
    ∀ (input : String) (config : MachineConfig) (m₀ : Machine),
      load source input config = .ok m₀ → ∀ (calls : List Call) (call : Call),
        let r := (m₀.after calls).run call.host call.mode call.control call.fuel call.start
        ∀ failure ip, r.outcome = some (.error failure) → failure.ip? = some ip →
          ip ≤ m₀.code.size ∧
          (ip < m₀.code.size → ∃ c, (strip source).toList[ip]? = some c ∧
            PointsAt (failure.render program source) "instruction" ip c ∧
            failure.Accuses call.mode c) ∧
          (ip = m₀.code.size →
            PointsPastEnd (failure.render program source) "instruction" ip ∧
            ∃ cause, failure = .io ip cause ∧
              (r.result = some (.ok ()) ∧ r.flushed = .error cause ∨
                call.mode ≠ .plain ∧ m₀.code.size = 0)) := by
  refine ⟨fun u hu => ?_, fun input config m₀ hload calls call => ?_⟩
  · obtain ⟨hchar, hpartner⟩ := unmatched_of_checkBrackets hu
    exact ⟨pointsAt_withWindow (by decide) hchar (isControl_toChar_bracket u.bracket), hchar,
      hpartner⟩
  · intro r failure ip hfailure hip
    have hlinked := isLinked_of_load hload
    obtain ⟨hbefore, _⟩ := continues_after hlinked (pc_le_of_load hload) calls
    obtain ⟨hafter, _⟩ := continues_afterCall (hbefore.isLinked hlinked) hbefore.pc_le call
    have hparse : Code.parse source = .ok m₀.code := by
      obtain ⟨_, code, hparse, rfl⟩ := load_eq_ok_iff.1 hload
      exact hparse
    exact (blames_of_outcome hfailure hip).shown hip (hafter.code.trans hbefore.code) hparse
      hafter.pc_le program

/-- In the first source the bracket is the fourth character, in the second the move that leaves the
tape is the third instruction: the comments before it do not count. -/
theorem carets_under_stray_and_move :
    PointsAt ((Failure.unmatched ⟨.closing, 3⟩).render (some "bf") "ab ]") "position" 3 ']' ∧
    ∃ m₀, load "+ a >>" "" { tapeSize := 2 } = .ok m₀ ∧
      (m₀.run (Sink.host {}) .plain none 9 {}).outcome =
        some (.error (.fault (.outOfBounds 2 1 '>'))) ∧
      PointsAt ((Failure.fault (.outOfBounds 2 1 '>')).render none "+ a >>") "instruction" 2
        '>' := by
  have hload : load "+ a >>" "" { tapeSize := 2 } = .ok _ := rfl
  have hstray := ((diagnostics_point_at_culprit (some "bf") "ab ]").1 ⟨.closing, 3⟩ rfl).1
  have hmove := (diagnostics_point_at_culprit none "+ a >>").2 "" { tapeSize := 2 } _ hload []
    { host := Sink.host {}, mode := .plain, control := none, start := {}, fuel := 9 }
    (.fault (.outOfBounds 2 1 '>')) 2 rfl rfl
  obtain ⟨c, hc, hpoints, hsign⟩ := hmove.2.1 (by decide)
  obtain rfl : c = '>' := hsign
  exact ⟨hstray, _, hload, rfl, hpoints⟩

end Brainfuck
