import Brainfuck.Log
import Brainfuck.Proofs.Text.Words
import Mathlib.Data.List.Forall2
import Mathlib.Data.List.TakeWhile

/-!
# What spells a word

Settings with two values are read from words.  Blanks around the word do not matter, nor does the
case of its letters; that is said here of the characters as they stand, without trimming anything
and without changing any letter.  The reading does both, and the two come to the same because the
words themselves hold no blanks.
-/

namespace Brainfuck

namespace Text

variable {c d : Char} {cs : List Char}

/-! ## Letters -/

def IsCapitalOf (c d : Char) : Prop :=
  'A' ≤ c ∧ c ≤ 'Z' ∧ d.toNat = c.toNat + 32

/-- The same character, or a letter of ASCII in its two cases. -/
def SameLetter (c d : Char) : Prop :=
  c = d ∨ IsCapitalOf c d ∨ IsCapitalOf d c

theorem isCapitalOf_iff_toNat :
    IsCapitalOf c d ↔ 65 ≤ c.toNat ∧ c.toNat ≤ 90 ∧ d.toNat = c.toNat + 32 :=
  Iff.rfl

theorem toNat_toLower (c : Char) :
    c.toLower.toNat = if 65 ≤ c.toNat ∧ c.toNat ≤ 90 then c.toNat + 32 else c.toNat := by
  unfold Char.toLower
  split
  · next hupper =>
    have hrange : 65 ≤ c.toNat ∧ c.toNat ≤ 90 := hupper
    rw [if_pos hrange]
    show (c.val + 32).toNat = c.val.toNat + 32
    rw [UInt32.toNat_add]
    exact Nat.mod_eq_of_lt (by change c.toNat + 32 < 4294967296; omega)
  · next hupper =>
    have hrange : ¬(65 ≤ c.toNat ∧ c.toNat ≤ 90) := hupper
    rw [if_neg hrange]

theorem toLower_eq_toLower_iff : c.toLower = d.toLower ↔ SameLetter c d := by
  rw [← Char.toNat_inj, toNat_toLower, toNat_toLower, SameLetter, isCapitalOf_iff_toNat,
    isCapitalOf_iff_toNat, ← Char.toNat_inj]
  split <;> split <;> omega

theorem map_toLower_eq_map_toLower_iff {ds : List Char} :
    cs.map Char.toLower = ds.map Char.toLower ↔ List.Forall₂ SameLetter cs ds := by
  rw [← List.forall₂_eq_eq_eq, List.forall₂_map_left_iff, List.forall₂_map_right_iff]
  simp only [toLower_eq_toLower_iff]

theorem isBlank_of_sameLetter (h : SameLetter c d) : isBlank c = isBlank d := by
  rw [SameLetter, isCapitalOf_iff_toNat, isCapitalOf_iff_toNat] at h
  rw [Bool.eq_iff_iff, isBlank_iff_mem_whiteSpace, isBlank_iff_mem_whiteSpace]
  rcases h with rfl | h | h
  · exact Iff.rfl
  · simp only [whiteSpace, List.mem_cons, List.not_mem_nil, or_false]
    omega
  · simp only [whiteSpace, List.mem_cons, List.not_mem_nil, or_false]
    omega

/-! ## Trimming -/

theorem exists_eq_append_trim_append (cs : List Char) :
    ∃ front back : List Char, cs = front ++ trim cs ++ back ∧
      (∀ b ∈ front, isBlank b = true) ∧ ∀ b ∈ back, isBlank b = true := by
  have hsplit : cs.takeWhile isBlank ++ cs.dropWhile isBlank = cs :=
    List.takeWhile_append_dropWhile
  have hrest : trim cs ++ ((cs.dropWhile isBlank).reverse.takeWhile isBlank).reverse =
      cs.dropWhile isBlank := by
    rw [trim, ← List.reverse_append, List.takeWhile_append_dropWhile, List.reverse_reverse]
  refine ⟨cs.takeWhile isBlank, ((cs.dropWhile isBlank).reverse.takeWhile isBlank).reverse,
    ?_, ?_, ?_⟩
  · rw [List.append_assoc, hrest, hsplit]
  · intro b hb
    exact List.mem_takeWhile_imp hb
  · intro b hb
    exact List.mem_takeWhile_imp (List.mem_reverse.1 hb)

theorem dropWhile_isBlank_eq_self (h : ∀ c ∈ cs, isBlank c = false) :
    cs.dropWhile isBlank = cs := by
  rw [List.dropWhile_eq_self_iff]
  intro hpos
  simp [h _ (List.getElem_mem hpos)]

theorem trim_append_append {front back : List Char} (hfront : ∀ b ∈ front, isBlank b = true)
    (hback : ∀ b ∈ back, isBlank b = true) (hcs : ∀ c ∈ cs, isBlank c = false) :
    trim (front ++ cs ++ back) = cs := by
  have hreverse : ∀ b ∈ back.reverse, isBlank b = true := fun b hb =>
    hback b (List.mem_reverse.1 hb)
  cases cs with
  | nil =>
      have hall : ∀ b ∈ front ++ back, isBlank b = true := fun b hb =>
        (List.mem_append.1 hb).elim (hfront b) (hback b)
      rw [trim, List.append_nil, List.dropWhile_eq_nil_iff.2 hall]
      rfl
  | cons c cs =>
      have hc : isBlank c = false := hcs c List.mem_cons_self
      calc
        trim (front ++ c :: cs ++ back)
        _ = ((c :: cs ++ back).reverse.dropWhile isBlank).reverse := by
          rw [trim, List.append_assoc, List.dropWhile_append_of_pos hfront, List.cons_append,
            List.dropWhile_cons_of_neg (by simp [hc])]
        _ = ((c :: cs).reverse.dropWhile isBlank).reverse := by
          rw [List.reverse_append, List.dropWhile_append_of_pos hreverse]
        _ = c :: cs := by
          rw [dropWhile_isBlank_eq_self fun d hd => hcs d (List.mem_reverse.1 hd),
            List.reverse_reverse]

/-! ## Words -/

/-- The word `word` in whatever case, with whatever blanks around it. -/
def SpellsWord (s word : String) : Prop :=
  ∃ front core back : List Char, s.toList = front ++ core ++ back ∧
    (∀ b ∈ front, b.toNat ∈ whiteSpace) ∧ (∀ b ∈ back, b.toNat ∈ whiteSpace) ∧
      List.Forall₂ SameLetter core word.toList

/-- Trimming and small letters turn into the same whatever spells the word. -/
theorem normalWord_eq_iff {s word : String} (hword : ∀ c ∈ word.toList, isBlank c = false) :
    normalWord s = String.ofList (word.toList.map Char.toLower) ↔ SpellsWord s word := by
  rw [normalWord, String.ofList_inj, map_toLower_eq_map_toLower_iff]
  simp only [SpellsWord, ← isBlank_iff_mem_whiteSpace]
  constructor
  · intro h
    obtain ⟨front, back, hs, hfront, hback⟩ := exists_eq_append_trim_append s.toList
    exact ⟨front, trim s.toList, back, hs, hfront, hback, h⟩
  · rintro ⟨front, core, back, hs, hfront, hback, h⟩
    have hcore : ∀ c ∈ core, isBlank c = false := by
      intro c hc
      obtain ⟨i, rfl⟩ := List.mem_iff_get.1 hc
      have hi : i.val < word.toList.length := h.length_eq ▸ i.isLt
      rw [isBlank_of_sameLetter (h.get i.isLt hi)]
      exact hword _ (List.get_mem _ _)
    rwa [hs, trim_append_append hfront hback hcore]

end Text

/-! ## Policies and modes -/

theorem Policy.ofWord?_eq_some_iff {word : String} {p : Policy} :
    Policy.ofWord? word = some p ↔ word = String.ofList (p.label.toList.map Char.toLower) := by
  constructor
  · intro h
    unfold Policy.ofWord? at h
    split at h <;> cases h <;> rfl
  · rintro rfl
    cases p <;> rfl

theorem FeedMode.ofWord?_eq_some_iff {word : String} {m : FeedMode} :
    FeedMode.ofWord? word = some m ↔ word = String.ofList (m.label.toList.map Char.toLower) := by
  constructor
  · intro h
    unfold FeedMode.ofWord? at h
    split at h <;> cases h <;> rfl
  · rintro rfl
    cases m <;> rfl

theorem Policy.toOption_parse_eq_some_iff {s : String} {p : Policy} :
    (Policy.parse s).toOption = some p ↔ Text.SpellsWord s p.label := by
  have hlabel : ∀ c ∈ p.label.toList, Text.isBlank c = false := by
    cases p <;> simp [label, Text.isBlank]
  rw [← Text.normalWord_eq_iff hlabel, ← Policy.ofWord?_eq_some_iff, Policy.parse]
  cases Policy.ofWord? (normalWord s) <;> simp [Except.toOption]

theorem FeedMode.toOption_parse_eq_some_iff {s : String} {m : FeedMode} :
    (FeedMode.parse s).toOption = some m ↔ Text.SpellsWord s m.label := by
  have hlabel : ∀ c ∈ m.label.toList, Text.isBlank c = false := by
    cases m <;> simp [label, Text.isBlank]
  rw [← Text.normalWord_eq_iff hlabel, ← FeedMode.ofWord?_eq_some_iff, FeedMode.parse]
  cases FeedMode.ofWord? (normalWord s) <;> simp [Except.toOption]

end Brainfuck
