import Brainfuck.Brackets
import Mathlib.Tactic.ByContra

/-!
# Balanced words and heights

Balanced words are compared with the height of a text, the number of brackets that a prefix opens
and does not close.  Every argument about two positions of one text (two partners of one bracket,
two pairs that cross, two culprits) becomes a comparison of heights.  Texts are over any alphabet
in which some letters are brackets: the characters of a source and its instructions share the
lemmas.
-/

namespace Brainfuck

def excess (w : List Bracket) : Int :=
  (w.count .opening : Int) - (w.count .closing : Int)

@[simp] theorem excess_nil : excess [] = 0 := rfl

@[simp] theorem excess_opening_cons (w : List Bracket) :
    excess (.opening :: w) = excess w + 1 := by
  simp [excess]
  omega

@[simp] theorem excess_closing_cons (w : List Bracket) :
    excess (.closing :: w) = excess w - 1 := by
  simp [excess]
  omega

@[simp] theorem excess_append (v w : List Bracket) :
    excess (v ++ w) = excess v + excess w := by
  simp only [excess, List.count_append]
  omega

namespace Balanced

theorem append {v w : List Bracket} (hv : Balanced v) (hw : Balanced w) : Balanced (v ++ w) := by
  induction hv with
  | nil => exact hw
  | loop hbody _ _ ih =>
      simpa using Balanced.loop hbody ih

theorem excess_eq_zero {w : List Bracket} (h : Balanced w) : excess w = 0 := by
  induction h with
  | nil => rfl
  | loop _ _ hbody hrest =>
      simp only [excess_opening_cons, excess_append, excess_closing_cons]
      omega

theorem excess_take_nonneg {w : List Bracket} (h : Balanced w) (n : Nat) :
    0 ≤ excess (w.take n) := by
  induction h generalizing n with
  | nil => simp
  | @loop body rest hbody hrest ihbody ihrest =>
      cases n with
      | zero => simp
      | succ n =>
          rw [List.take_succ_cons, List.take_append, excess_opening_cons, excess_append]
          have hleft := ihbody n
          cases hcut : n - body.length with
          | zero =>
              simp only [List.take_zero, excess_nil]
              omega
          | succ m =>
              -- The prefix holds the whole body, which is balanced, and the bracket after it.
              have hright := ihrest m
              rw [List.take_of_length_le (by omega), hbody.excess_eq_zero, List.take_succ_cons,
                excess_closing_cons]
              omega

theorem excess_left_nonneg {v w : List Bracket} (h : Balanced (v ++ w)) : 0 ≤ excess v := by
  have hprefix := h.excess_take_nonneg v.length
  rwa [List.take_left] at hprefix

end Balanced

section Text

variable {α : Type} (f : α → Option Bracket)

def height (l : List α) (n : Nat) : Int :=
  excess ((l.take n).filterMap f)

def bracketAt (l : List α) (i : Nat) : Option Bracket :=
  l[i]?.bind f

/-- The brackets at `i` and `j` belong together: what stands between them is balanced. -/
structure Partners (l : List α) (i j : Nat) : Prop where
  lt : i < j
  opening : bracketAt f l i = some .opening
  closing : bracketAt f l j = some .closing
  balanced : Balanced (((l.take j).drop (i + 1)).filterMap f)

variable {f} {l : List α}

theorem lt_length_of_bracketAt {i : Nat} {b : Bracket} (h : bracketAt f l i = some b) :
    i < l.length := by
  by_cases hi : i < l.length
  · exact hi
  · rw [bracketAt, List.getElem?_eq_none (by omega)] at h
    simp at h

theorem bracketAt_append_left {i : Nat} (hi : i < l.length) (l' : List α) :
    bracketAt f (l ++ l') i = bracketAt f l i := by
  rw [bracketAt, bracketAt, List.getElem?_append_left hi]

@[simp] theorem bracketAt_concat_self (a : α) : bracketAt f (l ++ [a]) l.length = f a := by
  simp [bracketAt]

/-! ## Heights -/

@[simp] theorem height_zero : height f l 0 = 0 := by
  simp [height]

theorem height_of_length_le {n : Nat} (hn : l.length ≤ n) :
    height f l n = excess (l.filterMap f) := by
  rw [height, List.take_of_length_le hn]

theorem height_succ_of_opening {n : Nat} (h : bracketAt f l n = some .opening) :
    height f l (n + 1) = height f l n + 1 := by
  obtain ⟨a, ha, hf⟩ := Option.bind_eq_some_iff.1 h
  simp [height, List.take_add_one, ha, hf]

theorem height_succ_of_closing {n : Nat} (h : bracketAt f l n = some .closing) :
    height f l (n + 1) = height f l n - 1 := by
  obtain ⟨a, ha, hf⟩ := Option.bind_eq_some_iff.1 h
  simp [height, List.take_add_one, ha, hf]
  omega

theorem height_eq_add {i n : Nat} (hin : i ≤ n) :
    height f l n = height f l i + excess (((l.take n).drop i).filterMap f) := by
  have hsplit := List.take_append_drop i (l.take n)
  rw [List.take_take, Nat.min_eq_left hin] at hsplit
  rw [height, height, ← excess_append, ← List.filterMap_append, hsplit]

theorem height_eq_of_balanced {i j : Nat} (hij : i ≤ j)
    (h : Balanced (((l.take j).drop i).filterMap f)) : height f l j = height f l i := by
  rw [height_eq_add hij, h.excess_eq_zero]
  omega

theorem height_le_of_balanced {i n j : Nat} (hin : i ≤ n) (hnj : n ≤ j)
    (h : Balanced (((l.take j).drop i).filterMap f)) : height f l i ≤ height f l n := by
  have hsplit := List.take_append_drop (n - i) ((l.take j).drop i)
  rw [List.take_drop, List.take_take, show min (i + (n - i)) j = n by omega] at hsplit
  rw [← hsplit, List.filterMap_append] at h
  have hnonneg := h.excess_left_nonneg
  rw [height_eq_add hin]
  omega

theorem height_nonneg_of_balanced (h : Balanced (l.filterMap f)) (n : Nat) :
    0 ≤ height f l n := by
  rw [← List.take_append_drop n l, List.filterMap_append] at h
  exact h.excess_left_nonneg

/-! ## Partners -/

namespace Partners

variable {i j i' j' : Nat}

theorem lt_length (h : Partners f l i j) : j < l.length :=
  lt_length_of_bracketAt h.closing

theorem height_closing (h : Partners f l i j) : height f l j = height f l (i + 1) :=
  height_eq_of_balanced h.lt h.balanced

theorem height_le (h : Partners f l i j) {n : Nat} (hin : i < n) (hnj : n ≤ j) :
    height f l (i + 1) ≤ height f l n :=
  height_le_of_balanced hin hnj h.balanced

/-- A bracket does not close twice: after its partner the height is below the one inside. -/
theorem closing_le (h : Partners f l i j) (h' : Partners f l i j') : j' ≤ j := by
  by_contra hlt
  have hinside := h'.height_le (n := j + 1) (by have := h.lt; omega) (by omega)
  have hafter := height_succ_of_closing h.closing
  have hend := h.height_closing
  omega

theorem closing_unique (h : Partners f l i j) (h' : Partners f l i j') : j = j' := by
  have hle := h.closing_le h'
  have hge := h'.closing_le h
  omega

theorem opening_le (h : Partners f l i j) (h' : Partners f l i' j) : i' ≤ i := by
  by_contra hlt
  have hinside := h.height_le (n := i') (by omega) (by have := h'.lt; omega)
  have hopen := height_succ_of_opening h'.opening
  have hend := h.height_closing
  have hend' := h'.height_closing
  omega

theorem opening_unique (h : Partners f l i j) (h' : Partners f l i' j) : i = i' := by
  have hle := h.opening_le h'
  have hge := h'.opening_le h
  omega

/-- Two pairs do not cross. -/
theorem nested (h : Partners f l i j) (h' : Partners f l i' j') (hi : i < i') (hj : i' < j) :
    j' < j := by
  by_contra hle
  have hne : j ≠ j' := by
    rintro rfl
    have := h.opening_unique h'
    omega
  have houter := h.height_le (n := i') hi (by omega)
  have hinner := h'.height_le (n := j) hj (by omega)
  have hopen := height_succ_of_opening h'.opening
  have hend := h.height_closing
  omega

theorem append (h : Partners f l i j) (l' : List α) : Partners f (l ++ l') i j where
  lt := h.lt
  opening := by
    rw [bracketAt_append_left (lt_length_of_bracketAt h.opening), h.opening]
  closing := by
    rw [bracketAt_append_left h.lt_length, h.closing]
  balanced := by
    rw [List.take_append_of_le_length (Nat.le_of_lt h.lt_length)]
    exact h.balanced

theorem of_append {l' : List α} (h : Partners f (l ++ l') i j)
    (hj : j < l.length) : Partners f l i j where
  lt := h.lt
  opening := by
    rw [← bracketAt_append_left (by have := h.lt; omega) l', h.opening]
  closing := by
    rw [← bracketAt_append_left hj l', h.closing]
  balanced := by
    have hbal := h.balanced
    rwa [List.take_append_of_le_length (Nat.le_of_lt hj)] at hbal

end Partners

end Text

end Brainfuck
