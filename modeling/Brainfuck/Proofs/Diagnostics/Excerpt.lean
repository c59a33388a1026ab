import Brainfuck.Diagnostic

/-!
# Diagnostics read back

A diagnostic with a window is read from its end: a caret, the line of code above it, and a line that
names a position.  What stands above the caret is a matter of these lines alone, so it is found
without knowing how the text was put together; the lines before them, which are made of names and
of the words of others, may hold anything.
-/

namespace Brainfuck

/-! ## The window -/

def shownChar (c : Char) : Char :=
  if isControl c then ' ' else c

theorem shownChar_ne_newline (c : Char) : shownChar c ≠ '\n' := by
  unfold shownChar
  split
  · decide
  · rintro rfl
    contradiction

theorem shownChar_of_not_isControl {c : Char} (h : isControl c = false) : shownChar c = c := by
  rw [shownChar, h]
  rfl

/-- Without bytes a window is the characters that are at most `windowReach` places away. -/
theorem window_eq (code : String) (pos : Nat) :
    window code pos =
      ((code.toList.take (pos + windowReach + 1)).drop (pos - windowReach)).map shownChar := by
  have hstop : code.toList.take (min (pos + windowReach + 1) code.length) =
      code.toList.take (pos + windowReach + 1) := by
    rw [List.take_eq_take_iff, String.length_toList]
    omega
  rw [← hstop, ← Text.toList_slice_byteIndex (by omega)]
  rfl

theorem getElem?_window (code : String) (pos i : Nat) :
    (window code pos)[i]? =
      if pos - windowReach + i ≤ pos + windowReach then
        (code.toList[pos - windowReach + i]?).map shownChar
      else none := by
  rw [window_eq, List.getElem?_map, List.getElem?_drop, List.getElem?_take]
  simp only [Nat.lt_succ_iff]
  split <;> rfl

theorem getElem?_window_caret (code : String) (pos : Nat) :
    (window code pos)[min pos windowReach]? = (code.toList[pos]?).map shownChar := by
  have hplace : pos - windowReach + min pos windowReach = pos := by omega
  rw [getElem?_window, hplace, if_pos (Nat.le_add_right pos windowReach)]

theorem length_window (code : String) (pos : Nat) :
    (window code pos).length =
      min (pos + windowReach + 1) code.toList.length - (pos - windowReach) := by
  rw [window_eq, List.length_map, List.length_drop, List.length_take]

theorem newline_notMem_window (code : String) (pos : Nat) : '\n' ∉ window code pos := by
  rw [window_eq, List.mem_map]
  rintro ⟨c, _, hc⟩
  exact shownChar_ne_newline c hc

/-! ## Lines -/

def textLines (cs : List Char) : List (List Char) :=
  cs.splitOn '\n'

theorem textLines_of_notMem {cs : List Char} (h : '\n' ∉ cs) : textLines cs = [cs] := by
  refine List.splitOnP_eq_singleton fun c hc => ?_
  rw [beq_eq_false_iff_ne]
  rintro rfl
  exact h hc

theorem textLines_append_newline (front back : List Char) :
    textLines (front ++ '\n' :: back) = textLines front ++ textLines back :=
  List.splitOnP_append_cons front back (beq_self_eq_true '\n')

theorem exists_textLines_append (front : List Char) {back : List Char} (h : '\n' ∉ back) :
    ∃ before line, textLines (front ++ back) = before ++ [line] ∧ back <:+ line := by
  induction front with
  | nil => exact ⟨[], back, textLines_of_notMem h, List.suffix_refl back⟩
  | cons c front ih =>
      obtain ⟨before, line, hlines, hsuffix⟩ := ih
      rw [textLines, List.splitOn] at hlines
      rw [textLines, List.cons_append, List.splitOn, List.splitOnP_cons_eq_if_modifyHead, hlines]
      split
      · exact ⟨[] :: before, line, rfl, hsuffix⟩
      · cases before with
        | nil => exact ⟨[], c :: line, rfl, hsuffix.trans (List.suffix_cons c line)⟩
        | cons first before => exact ⟨(c :: first) :: before, line, rfl, hsuffix⟩

/-! ## Excerpts -/

/-- A line of code with a caret line under it, and the line above the two. -/
structure Excerpt where
  heading : List Char
  code : List Char
  caret : List Char

namespace Excerpt

def ofText? (text : String) : Option Excerpt :=
  match (textLines text.toList).reverse with
  | [] :: caret :: code :: heading :: _ => some { heading, code, caret }
  | _ => none

def column? (e : Excerpt) : Option Nat :=
  e.caret.idxOf? '^'

def marked? (e : Excerpt) : Option Char :=
  e.column?.bind fun i => e.code[i]?

def Names (e : Excerpt) (unit : String) (pos : Nat) : Prop :=
  (" at " ++ unit ++ " " ++ toString pos).toList <:+ e.heading

end Excerpt

/-- The text ends in an excerpt that names `pos` and has its caret under `c`. -/
def PointsAt (text unit : String) (pos : Nat) (c : Char) : Prop :=
  ∃ e, Excerpt.ofText? text = some e ∧ e.Names unit pos ∧ e.marked? = some c

/-- The text ends in an excerpt that names `pos` and has its caret just behind the line of code. -/
def PointsPastEnd (text unit : String) (pos : Nat) : Prop :=
  ∃ e, Excerpt.ofText? text = some e ∧ e.Names unit pos ∧ e.column? = some e.code.length

/-! ## Texts with a window -/

theorem newline_notMem_toDigits (n : Nat) : '\n' ∉ Nat.toDigits 10 n := by
  intro hmem
  have hdigit := Nat.isDigit_of_mem_toDigits (by decide) (by decide) hmem
  contradiction

theorem idxOf?_caret (n : Nat) : (List.replicate n ' ' ++ ['^']).idxOf? '^' = some n := by
  induction n with
  | zero => rfl
  | succ n ih =>
      rw [List.replicate_succ, List.cons_append, List.idxOf?_cons, if_neg (by decide), ih]
      rfl

theorem newline_notMem_caretLine (pos : Nat) : '\n' ∉ caretLine pos := by
  simp [caretLine]

theorem toList_withWindow (headline unit code : String) (pos : Nat) :
    (withWindow headline unit code pos).toList =
      headline.toList ++ (" at " ++ unit ++ " " ++ toString pos).toList ++
        '\n' :: (' ' :: ' ' :: window code pos ++
          '\n' :: (' ' :: ' ' :: caretLine pos ++ ['\n'])) := by
  simp [withWindow, String.toList_append]

theorem exists_ofText?_withWindow (headline code : String) {unit : String} (pos : Nat)
    (hunit : '\n' ∉ unit.toList) :
    ∃ heading,
      Excerpt.ofText? (withWindow headline unit code pos) =
        some { heading, code := ' ' :: ' ' :: window code pos,
               caret := ' ' :: ' ' :: caretLine pos } ∧
      (" at " ++ unit ++ " " ++ toString pos).toList <:+ heading := by
  have hplace : '\n' ∉ (" at " ++ unit ++ " " ++ toString pos).toList := by
    simp [String.toList_append, hunit, newline_notMem_toDigits]
  have hcode : '\n' ∉ ' ' :: ' ' :: window code pos := by
    simp [newline_notMem_window]
  have hcaret : '\n' ∉ ' ' :: ' ' :: caretLine pos := by
    simp [newline_notMem_caretLine]
  obtain ⟨before, heading, hlines, hsuffix⟩ := exists_textLines_append headline.toList hplace
  refine ⟨heading, ?_, hsuffix⟩
  rw [Excerpt.ofText?, toList_withWindow, textLines_append_newline, textLines_append_newline,
    textLines_append_newline, hlines, textLines_of_notMem hcode, textLines_of_notMem hcaret]
  simp [textLines]

theorem column?_caretLine (heading code : List Char) (pos : Nat) :
    Excerpt.column? { heading, code, caret := ' ' :: ' ' :: caretLine pos } =
      some (min pos windowReach + 2) :=
  idxOf?_caret (min pos windowReach + 2)

/-- The caret of a window is under the character that the window is about. -/
theorem pointsAt_withWindow {headline unit code : String} {pos : Nat} {c : Char}
    (hunit : '\n' ∉ unit.toList) (hc : code.toList[pos]? = some c) (hshown : isControl c = false) :
    PointsAt (withWindow headline unit code pos) unit pos c := by
  obtain ⟨heading, hread, hnames⟩ := exists_ofText?_withWindow headline code pos hunit
  refine ⟨_, hread, hnames, ?_⟩
  rw [Excerpt.marked?, column?_caretLine, Option.bind_some, List.getElem?_cons_succ,
    List.getElem?_cons_succ, getElem?_window_caret, hc, Option.map_some,
    shownChar_of_not_isControl hshown]

/-- A window at the end of the code has its caret just behind it. -/
theorem pointsPastEnd_withWindow {headline unit code : String} {pos : Nat}
    (hunit : '\n' ∉ unit.toList) (hpos : pos = code.toList.length) :
    PointsPastEnd (withWindow headline unit code pos) unit pos := by
  obtain ⟨heading, hread, hnames⟩ := exists_ofText?_withWindow headline code pos hunit
  refine ⟨_, hread, hnames, ?_⟩
  rw [column?_caretLine, List.length_cons, List.length_cons, length_window, ← hpos]
  congr 1
  omega

end Brainfuck
