import Brainfuck.Feed
import Brainfuck.Proofs.Text.Utf8

/-!
# Words by position

A word starts at a character that is no blank and has a blank or nothing before it.  The words of a
text are read off from left to right, with the word underway as an accumulator, and where they start
is a matter of two neighbouring characters.  `initials` stands between the two: it reads from left
to right and keeps the first characters alone.

The main statement says which bytes a text supplies in either mode, index by index, and what
becomes of them when texts are joined or blanks are added.
-/

namespace Brainfuck

namespace Text

/-- The code points with the property White_Space. -/
def whiteSpace : List Nat :=
  [0x09, 0x0A, 0x0B, 0x0C, 0x0D, 0x20, 0x85, 0xA0, 0x1680, 0x2000, 0x2001, 0x2002, 0x2003, 0x2004,
    0x2005, 0x2006, 0x2007, 0x2008, 0x2009, 0x200A, 0x2028, 0x2029, 0x202F, 0x205F, 0x3000]

theorem isBlank_iff_mem_whiteSpace (c : Char) : isBlank c = true ↔ c.toNat ∈ whiteSpace := by
  simp only [isBlank, whiteSpace, List.mem_cons, List.not_mem_nil, or_false, Bool.or_eq_true,
    Bool.and_eq_true, decide_eq_true_eq, beq_iff_eq]
  omega

def startsWord (cs : List Char) (i : Nat) : Bool :=
  cs[i]?.any (fun c => !isBlank c) && (i == 0 || cs[i - 1]?.any isBlank)

def wordStarts (cs : List Char) : List (Fin cs.length) :=
  (List.finRange cs.length).filter fun i => startsWord cs i

/-- The first characters of words, in order.  `fresh` says that no word is underway. -/
def initials (fresh : Bool) : List Char → List Char
  | [] => []
  | c :: cs =>
    if isBlank c then initials true cs
    else if fresh then c :: initials false cs else initials false cs

variable {c : Char} {cs : List Char}

/-! ## Words from left to right -/

theorem filterMap_head?_finishWord (word : List Char) :
    (finishWord word).filterMap List.head? = word.getLast?.toList := by
  cases word with
  | nil => rfl
  | cons c word => rw [finishWord, List.getLast?_eq_head?_reverse]; simp

theorem filterMap_head?_wordsFrom (word cs : List Char) :
    (wordsFrom word cs).filterMap List.head? =
      word.getLast?.toList ++ initials word.isEmpty cs := by
  induction cs generalizing word with
  | nil => rw [wordsFrom, filterMap_head?_finishWord, initials, List.append_nil]
  | cons c cs ih =>
      unfold wordsFrom initials
      by_cases hblank : isBlank c
      · rw [if_pos hblank, if_pos hblank, List.filterMap_append, filterMap_head?_finishWord, ih]
        rfl
      · rw [if_neg hblank, if_neg hblank, ih]
        cases word with
        | nil => rfl
        | cons d word => rfl

theorem filterMap_head?_words (cs : List Char) :
    (words cs).filterMap List.head? = initials true cs :=
  filterMap_head?_wordsFrom [] cs

/-! ## Words by their starts -/

theorem startsWord_cons_of_isBlank (h : isBlank c = true) (i : Nat) :
    startsWord (c :: cs) (i + 1) = startsWord cs i := by
  cases i with
  | zero => simp [startsWord, h]
  | succ i => simp [startsWord]

/-- A text after `c` starts its words where `initials` finds their first characters. -/
theorem map_get_starts_cons (c : Char) (cs : List Char) :
    ((List.finRange cs.length).filter fun i => startsWord (c :: cs) (i.val + 1)).map cs.get =
      initials (isBlank c) cs := by
  induction cs generalizing c with
  | nil => rfl
  | cons d cs ih =>
      have hfirst : startsWord (c :: d :: cs) 1 = (!isBlank d && isBlank c) := by
        simp [startsWord]
      have hlater : (((List.finRange cs.length).map Fin.succ).filter fun i =>
          startsWord (c :: d :: cs) (i.val + 1)).map (d :: cs).get = initials (isBlank d) cs := by
        rw [List.filter_map, List.map_map, ← ih d]
        rfl
      simp only [List.length_cons, List.finRange_succ, List.filter_cons, Fin.val_zero, hfirst]
      unfold initials
      by_cases hd : isBlank d
      · simpa [hd] using hlater
      · by_cases hc : isBlank c
        · simpa [hd, hc] using hlater
        · simpa [hd, hc] using hlater

theorem map_get_wordStarts (cs : List Char) :
    (wordStarts cs).map cs.get = initials true cs := by
  have hblank : isBlank ' ' = true := rfl
  rw [← hblank, ← map_get_starts_cons ' ' cs, wordStarts]
  congr 2
  funext i
  exact (startsWord_cons_of_isBlank hblank i).symm

/-! ## Words between blanks -/

variable {gap : List Char}

theorem words_blanks_append (h : ∀ b ∈ gap, isBlank b = true) (cs : List Char) :
    words (gap ++ cs) = words cs := by
  induction gap with
  | nil => rfl
  | cons b gap ih =>
      have hfront := words_append_blank [] (gap ++ cs) (h b List.mem_cons_self)
      rw [List.nil_append] at hfront
      rw [List.cons_append, hfront, ih fun d hd => h d (List.mem_cons_of_mem b hd)]
      rfl

theorem words_append_blanks_append (h : ∀ b ∈ gap, isBlank b = true) (hgap : gap ≠ [])
    (cs ds : List Char) : words (cs ++ (gap ++ ds)) = words cs ++ words ds := by
  cases gap with
  | nil => exact absurd rfl hgap
  | cons b gap =>
      rw [List.cons_append, words_append_blank cs _ (h b List.mem_cons_self),
        words_blanks_append (fun d hd => h d (List.mem_cons_of_mem b hd)) ds]

theorem words_append_blanks (h : ∀ b ∈ gap, isBlank b = true) (cs : List Char) :
    words (cs ++ gap) = words cs := by
  by_cases hgap : gap = []
  · rw [hgap, List.append_nil]
  · have hback := words_append_blanks_append h hgap cs []
    rwa [List.append_nil, show words [] = [] from rfl, List.append_nil] at hback

/-! ## First bytes -/

def firstByte (c : Char) : UInt8 :=
  (String.utf8EncodeChar c).head String.utf8EncodeChar_ne_nil

theorem head?_utf8EncodeChar (c : Char) : (String.utf8EncodeChar c).head? = some (firstByte c) :=
  List.head?_eq_some_head String.utf8EncodeChar_ne_nil

theorem map_firstByte_initials_sublist (fresh : Bool) (cs : List Char) :
    ((initials fresh cs).map firstByte).Sublist (cs.flatMap String.utf8EncodeChar) := by
  induction cs generalizing fresh with
  | nil => exact List.Sublist.refl []
  | cons c cs ih =>
      have hskip (fresh : Bool) : ((initials fresh cs).map firstByte).Sublist
          ((c :: cs).flatMap String.utf8EncodeChar) :=
        (ih fresh).trans (List.sublist_append_right _ _)
      have hkeep : ((c :: initials false cs).map firstByte).Sublist
          ((c :: cs).flatMap String.utf8EncodeChar) := by
        have hfirst : [firstByte c].Sublist (String.utf8EncodeChar c) :=
          List.singleton_sublist.2 (List.mem_of_head? (head?_utf8EncodeChar c))
        exact hfirst.append (ih false)
      unfold initials
      split
      · exact hskip true
      · split
        · exact hkeep
        · exact hskip false

end Text

namespace Feed

open Text

/-- Read until there is nothing left, the feed gives these bytes in order. -/
inductive Drains : Feed → List UInt8 → Prop where
  | done {f : Feed} : f.next? = none → Drains f []
  | read {f rest : Feed} {b : UInt8} {bs : List UInt8} :
      f.next? = some (b, rest) → Drains rest bs → Drains f (b :: bs)

theorem drains_iff {f : Feed} {bs : List UInt8} : f.Drains bs ↔ bs = f.pending := by
  obtain ⟨pending⟩ := f
  constructor
  · intro h
    induction pending generalizing bs with
    | nil =>
        cases h with
        | done => rfl
        | read hnext => cases hnext
    | cons b pending ih =>
        cases h with
        | done hnext => cases hnext
        | read hnext hrest =>
            cases hnext
            rw [ih hrest]
  · rintro rfl
    induction bs with
    | nil => exact .done rfl
    | cons b bs ih => exact .read rfl ih

theorem ofText_words (text : String) :
    ofText .words text = ⟨((words text.toList).filterMap List.head?).map firstByte⟩ := by
  have hfirst (w : List Char) : (w.head?.bind fun c => (String.utf8EncodeChar c).head?) =
      w.head?.map firstByte := by
    cases w with
    | nil => rfl
    | cons c w => exact head?_utf8EncodeChar c
  simp only [ofText, hfirst, List.map_filterMap]

theorem pending_ofText_words_append (s gap t : String)
    (hblank : ∀ b ∈ gap.toList, isBlank b = true) (hgap : gap ≠ "") :
    (ofText .words (s ++ gap ++ t)).pending =
      (ofText .words s).pending ++ (ofText .words t).pending := by
  have hne : gap.toList ≠ [] := by
    intro hnil
    exact hgap (String.toList_eq_nil_iff.1 hnil)
  rw [ofText_words, ofText_words, ofText_words, String.toList_append, String.toList_append,
    List.append_assoc, words_append_blanks_append hblank hne, List.filterMap_append,
    List.map_append]

/-- For the first bytes of its words a text gives those at the indices where words start, and for
all its bytes those of its encoding; the former are found among the latter, in the same order.
Joined texts give what they give one by one, in the mode for words if there is a blank between them.
More blanks, before, behind or between, make no difference there.  Blank is what has the property
White_Space. -/
theorem text_gives_exact_bytes (text : String) :
    (∀ bs, (ofText .words text).Drains bs ↔
      bs = (wordStarts text.toList).map fun i => firstByte (text.toList.get i)) ∧
    (∀ bs, (ofText .stream text).Drains bs ↔ bs = text.toUTF8.data.toList) ∧
    (ofText .words text).pending.Sublist (ofText .stream text).pending ∧
    (∀ other, (ofText .stream (text ++ other)).pending =
      (ofText .stream text).pending ++ (ofText .stream other).pending) ∧
    (∀ gap : String, (∀ b ∈ gap.toList, isBlank b = true) →
      ofText .words (gap ++ text) = ofText .words text ∧
      ofText .words (text ++ gap) = ofText .words text ∧
      (gap ≠ "" → ∀ other, (ofText .words (text ++ gap ++ other)).pending =
        (ofText .words text).pending ++ (ofText .words other).pending)) ∧
    ∀ c, isBlank c = true ↔ c.toNat ∈ whiteSpace := by
  have hwords : (ofText .words text).pending =
      (wordStarts text.toList).map fun i => firstByte (text.toList.get i) := by
    rw [ofText_words, filterMap_head?_words, ← map_get_wordStarts, List.map_map]
    rfl
  refine ⟨fun bs => ?_, fun bs => ?_, ?_, ofText_stream_append text, fun gap hblank => ?_,
    isBlank_iff_mem_whiteSpace⟩
  · rw [drains_iff, hwords]
  · rw [drains_iff, ← bytes_eq_toUTF8]
    rfl
  · rw [ofText_words, filterMap_head?_words]
    exact map_firstByte_initials_sublist true text.toList
  · refine ⟨?_, ?_, fun hgap other => pending_ofText_words_append text gap other hblank hgap⟩
    · rw [ofText_words, ofText_words, String.toList_append, words_blanks_append hblank]
    · rw [ofText_words, ofText_words, String.toList_append, words_append_blanks hblank]

theorem words_across_wide_blanks :
    (∀ b ∈ "\u3000\t".toList, isBlank b = true) ∧ "\u3000\t" ≠ "" ∧
      (ofText .words " né à").Drains [0x6E, 0xC3] ∧
      (ofText .words (" né à" ++ "\u3000\t" ++ "x")).pending =
        (ofText .words " né à").pending ++ (ofText .words "x").pending := by
  obtain ⟨hwords, _, _, _, hgaps, _⟩ := text_gives_exact_bytes " né à"
  have hblank : ∀ b ∈ "\u3000\t".toList, isBlank b = true := by simp [isBlank]
  have hgap : "\u3000\t" ≠ "" := by decide
  exact ⟨hblank, hgap, (hwords _).2 (by decide), (hgaps _ hblank).2.2 hgap "x"⟩

end Feed

end Brainfuck
