import Brainfuck.Proofs.Diagnostics.Excerpt
import Mathlib.Algebra.Group.Nat.Defs
import Mathlib.Data.List.FinRange

/-!
# The window around a position

A window is found by counting characters and cut out by counting bytes.  Here its place in the text
and its contents are put together: the two bytes can be cut at wherever the position is, before,
at or far beyond the end of the code, and what is cut out is what the indices of the characters say.
-/

namespace Brainfuck

def charsBetween (cs : List Char) (start stop : Nat) : List Char :=
  ((List.finRange cs.length).filter fun i => start ≤ i.val ∧ i.val < stop).map cs.get

theorem charsBetween_zero_right (cs : List Char) (start : Nat) : charsBetween cs start 0 = [] := by
  simp [charsBetween]

theorem charsBetween_cons_succ (c : Char) (cs : List Char) (start stop : Nat) :
    charsBetween (c :: cs) start (stop + 1) =
      (if start = 0 then [c] else []) ++ charsBetween cs (start - 1) stop := by
  have hlater : ((List.finRange cs.length).map Fin.succ).filter
        (fun i => decide (start ≤ i.val ∧ i.val < stop + 1)) =
      ((List.finRange cs.length).filter fun i =>
        decide (start - 1 ≤ i.val ∧ i.val < stop)).map Fin.succ := by
    rw [List.filter_map]
    congr 1
    apply List.filter_congr
    intro i _
    rw [Function.comp_apply, decide_eq_decide, Fin.val_succ]
    omega
  simp only [charsBetween, List.length_cons, List.finRange_succ, List.filter_cons, Fin.val_zero,
    Nat.le_zero, Nat.zero_lt_succ, and_true, decide_eq_true_eq, hlater]
  split
  · rw [List.map_cons, List.map_map]
    rfl
  · rw [List.map_map]
    rfl

theorem charsBetween_eq (cs : List Char) (start stop : Nat) :
    charsBetween cs start stop = (cs.take stop).drop start := by
  induction cs generalizing start stop with
  | nil => rw [List.take_nil, List.drop_nil]; rfl
  | cons c cs ih =>
      cases stop with
      | zero => rw [charsBetween_zero_right, List.take_zero, List.drop_nil]
      | succ stop =>
          rw [charsBetween_cons_succ, ih, List.take_succ_cons]
          cases start with
          | zero => rfl
          | succ start => rfl

theorem length_charsBetween (cs : List Char) (start stop : Nat) :
    (charsBetween cs start stop).length = min stop cs.length - start := by
  rw [charsBetween_eq, List.length_drop, List.length_take]

theorem window_eq_map_charsBetween (code : String) (pos : Nat) :
    window code pos = (charsBetween code.toList (pos - 32) (pos + 33)).map shownChar := by
  rw [charsBetween_eq]
  exact window_eq code pos

theorem textLines_withWindow {headline unit : String} (code : String) (pos : Nat)
    (hheadline : '\n' ∉ headline.toList) (hunit : '\n' ∉ unit.toList) :
    textLines (withWindow headline unit code pos).toList =
      [(headline ++ " at " ++ unit ++ " " ++ toString pos).toList, ' ' :: ' ' :: window code pos,
        ' ' :: ' ' :: caretLine pos, []] := by
  have hfirst : '\n' ∉ headline.toList ++ (" at " ++ unit ++ " " ++ toString pos).toList := by
    simp [String.toList_append, hheadline, hunit, newline_notMem_toDigits]
  have hsecond : '\n' ∉ ' ' :: ' ' :: window code pos := by
    simp [newline_notMem_window]
  have hthird : '\n' ∉ ' ' :: ' ' :: caretLine pos := by
    simp [newline_notMem_caretLine]
  have hlast : '\n' ∉ ([] : List Char) := List.not_mem_nil
  rw [toList_withWindow, textLines_append_newline, textLines_append_newline,
    textLines_append_newline, textLines_of_notMem hfirst, textLines_of_notMem hsecond,
    textLines_of_notMem hthird, textLines_of_notMem hlast]
  simp [String.toList_append]

/-- However far beyond the end of the code a position is, as long as the arithmetic of 64 bits does
not overflow, the code is cut between characters and in order, and three lines come out.  The second
shows the characters with the indices that are meant, at most 65 of them, with a space for a control
character.  The caret of the third is under the character at the position. -/
theorem window_shows_surroundings {headline unit : String} (code : String) {pos : Nat}
    (hheadline : '\n' ∉ headline.toList) (hunit : '\n' ∉ unit.toList)
    (hpos : pos ≤ 2 ^ 64 - 34) :
    pos + windowReach + 1 < 2 ^ 64 ∧
    String.Pos.Raw.IsValid code ⟨windowStart code pos⟩ ∧
    String.Pos.Raw.IsValid code ⟨windowStop code pos⟩ ∧
    windowStart code pos ≤ windowStop code pos ∧ windowStop code pos ≤ code.utf8ByteSize ∧
    ∃ e : Excerpt,
      textLines (withWindow headline unit code pos).toList = [e.heading, e.code, e.caret, []] ∧
      e.heading = (headline ++ " at " ++ unit ++ " " ++ toString pos).toList ∧
      e.code = ' ' :: ' ' ::
        (charsBetween code.toList (pos - 32) (min (pos + 33) code.toList.length)).map shownChar ∧
      e.caret = ' ' :: ' ' :: (List.replicate (min pos 32) ' ' ++ ['^']) ∧
      (charsBetween code.toList (pos - 32) (min (pos + 33) code.toList.length)).length ≤ 65 ∧
      ∀ c, code.toList[pos]? = some c → e.marked? = some (shownChar c) := by
  obtain ⟨hstart, hstop, hle⟩ := isSlice_window code pos
  have hshown : charsBetween code.toList (pos - 32) (min (pos + 33) code.toList.length) =
      charsBetween code.toList (pos - 32) (pos + 33) := by
    rw [charsBetween_eq, charsBetween_eq, ← List.take_eq_take_min]
  refine ⟨by unfold windowReach; omega, hstart, hstop, hle, hstop.le_rawEndPos,
    ⟨_, _, _⟩, textLines_withWindow code pos hheadline hunit, rfl, ?_, rfl, ?_, ?_⟩
  · rw [hshown, window_eq_map_charsBetween]
  · rw [length_charsBetween]
    omega
  · intro c hc
    rw [Excerpt.marked?, column?_caretLine, Option.bind_some, List.getElem?_cons_succ,
      List.getElem?_cons_succ, getElem?_window_caret, hc, Option.map_some]

/-- An accent takes two bytes, and a tab is shown as a space. -/
theorem caret_under_tab_after_accent :
    '\n' ∉ "bf: oops".toList ∧ '\n' ∉ "position".toList ∧ 1 ≤ 2 ^ 64 - 34 ∧
      ∃ e : Excerpt,
        textLines (withWindow "bf: oops" "position" "é\t+" 1).toList =
          [e.heading, e.code, e.caret, []] ∧
        e.heading = "bf: oops at position 1".toList ∧ e.code = "  é +".toList ∧
        e.caret = "   ^".toList ∧ e.marked? = some ' ' := by
  have hheadline : '\n' ∉ "bf: oops".toList := by decide
  have hunit : '\n' ∉ "position".toList := by decide
  have hpos : 1 ≤ 2 ^ 64 - 34 := by decide
  obtain ⟨_, _, _, _, _, e, hlines, hheading, hcode, hcaret, _, hmarked⟩ :=
    window_shows_surroundings "é\t+" hheadline hunit hpos
  exact ⟨hheadline, hunit, hpos, e, hlines, hheading, hcode, hcaret, hmarked '\t' rfl⟩

end Brainfuck
