import Brainfuck.Command.Invocation
import Brainfuck.Proofs.Diagnostics.Excerpt

/-!
# What a message gives away

The message about a failed run is the one about the timeout only if the run was canceled after it,
and the one about a cancellation only if the run was canceled before it.  A diagnostic ends with its
caret, and the three ways to abort a run part right after the words they share, so single characters
tell the messages apart.
-/

namespace Brainfuck

def timeoutText (limit : Nat) : String :=
  "Execution aborted: wall-clock timeout exceeded (" ++ toString limit ++ " ms)\n"

def cancelText : String :=
  "Execution aborted: cancelled\n"

/-- The character behind the words that all aborted runs share. -/
def headChar? (text : String) : Option Char :=
  text.toList[19]?

def lastChar? (text : String) : Option Char :=
  text.toList.reverse[1]?

theorem headChar?_timeoutText (limit : Nat) : headChar? (timeoutText limit) = some 'w' := by
  unfold headChar? timeoutText
  generalize toString limit = n
  simp

theorem headChar?_cancelText : headChar? cancelText = some 'c' := by
  simp [headChar?, cancelText]

theorem headChar?_stepLimit (limit : Nat) :
    headChar? ((Failure.stepLimit limit).message ++ "\n") = some 's' := by
  unfold headChar? Failure.message
  generalize toString limit = n
  simp

theorem lastChar?_timeoutText (limit : Nat) : lastChar? (timeoutText limit) = some ')' := by
  unfold lastChar? timeoutText
  generalize toString limit = n
  simp

theorem lastChar?_cancelText : lastChar? cancelText = some 'd' := by
  simp [lastChar?, cancelText]

theorem lastChar?_withWindow (headline unit code : String) (pos : Nat) :
    lastChar? (withWindow headline unit code pos) = some '^' := by
  simp [lastChar?, toList_withWindow, caretLine]

theorem timeoutText_ne_cancelText (limit : Nat) : timeoutText limit ≠ cancelText := by
  intro h
  have hchar := headChar?_timeoutText limit
  rw [h, headChar?_cancelText] at hchar
  contradiction

theorem timeoutText_ne_empty (limit : Nat) : timeoutText limit ≠ "" := by
  intro h
  have hchar := headChar?_timeoutText limit
  rw [h] at hchar
  simp [headChar?] at hchar

theorem Failure.lastChar?_render (program : Option String) (source : String) {failure : Failure}
    (hcanceled : failure ≠ .canceled) (hlimit : ∀ limit, failure ≠ .stepLimit limit) :
    lastChar? (failure.render program source) = some '^' ∨
      lastChar? (failure.render program source) = some 'l' := by
  cases failure with
  | unmatched u => exact .inl (lastChar?_withWindow _ _ _ _)
  | fault cause => cases cause <;> exact .inl (lastChar?_withWindow _ _ _ _)
  | io ip cause => exact .inl (lastChar?_withWindow _ _ _ _)
  | stepLimit limit => exact absurd rfl (hlimit limit)
  | canceled => exact absurd rfl hcanceled
  | noTape =>
      refine .inr ?_
      unfold lastChar? render message
      cases program <;> simp [named]

namespace Prepared

variable {p : Prepared} {program : String} {expired : Bool} {failure : Failure}

theorem complain_of_ne (hcanceled : failure ≠ .canceled)
    (hlimit : ∀ limit, failure ≠ .stepLimit limit) :
    p.complain program expired failure = failure.render (some program) p.source := by
  cases failure with
  | stepLimit limit => exact absurd rfl (hlimit limit)
  | canceled => exact absurd rfl hcanceled
  | _ => rfl

theorem complain_canceled :
    p.complain program expired .canceled =
      if expired then timeoutText (p.settings.timeoutMs.getD 0) else cancelText := rfl

/-- Only a run that was canceled is reported as one, with a timeout or without. -/
theorem complain_ne_of_ne_canceled (h : failure ≠ .canceled) (limit : Nat) :
    p.complain program expired failure ≠ timeoutText limit ∧
      p.complain program expired failure ≠ cancelText := by
  by_cases hlimit : ∃ budget, failure = .stepLimit budget
  · obtain ⟨budget, rfl⟩ := hlimit
    have hchar : headChar? (p.complain program expired (.stepLimit budget)) = some 's' :=
      headChar?_stepLimit budget
    constructor
    · intro heq
      rw [heq, headChar?_timeoutText] at hchar
      contradiction
    · intro heq
      rw [heq, headChar?_cancelText] at hchar
      contradiction
  · have hcomplain : p.complain program expired failure = failure.render (some program) p.source :=
      complain_of_ne h (not_exists.1 hlimit)
    have hchar := Failure.lastChar?_render (some program) p.source h (not_exists.1 hlimit)
    rw [← hcomplain] at hchar
    constructor
    · intro heq
      rw [heq, lastChar?_timeoutText] at hchar
      rcases hchar with hcaret | hword <;> contradiction
    · intro heq
      rw [heq, lastChar?_cancelText] at hchar
      rcases hchar with hcaret | hword <;> contradiction

theorem complain_eq_timeoutText_iff :
    p.complain program expired failure = timeoutText (p.settings.timeoutMs.getD 0) ↔
      expired = true ∧ failure = .canceled := by
  by_cases h : failure = .canceled
  · subst h
    cases expired with
    | true => simp [complain_canceled]
    | false => simp [complain_canceled, (timeoutText_ne_cancelText _).symm]
  · simp only [h, (complain_ne_of_ne_canceled h _).1, and_false]

theorem complain_eq_cancelText_iff :
    p.complain program expired failure = cancelText ↔ expired = false ∧ failure = .canceled := by
  by_cases h : failure = .canceled
  · subst h
    cases expired with
    | true => simp [complain_canceled, timeoutText_ne_cancelText]
    | false => simp [complain_canceled]
  · simp only [h, (complain_ne_of_ne_canceled h 0).2, and_false]

end Prepared

end Brainfuck
