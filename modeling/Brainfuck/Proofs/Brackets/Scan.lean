import Brainfuck.Proofs.Brackets.Balance

/-!
# The stack of open brackets

`Scan` is the invariant of a left-to-right walk that keeps the indices of the open brackets on a
stack.  It is stated for texts over any alphabet in which some letters are brackets, so that the
walk over the characters of a source and the walk over its instructions share it.
-/

namespace Brainfuck

variable {α : Type} (f : α → Option Bracket)

/-- `opened` lists the brackets that are open at the end of a text, innermost first: each is
followed by a balanced stretch, up to the next one or to the end. -/
inductive Pending : List α → List Nat → Prop where
  | closed {l : List α} : Balanced (l.filterMap f) → Pending l []
  | more {l rest : List α} {opened : List Nat} {a : α} :
      Pending l opened → f a = some .opening → Balanced (rest.filterMap f) →
        Pending (l ++ a :: rest) (l.length :: opened)

structure Scan (l : List α) (opened : List Nat) : Prop where
  pending : Pending f l opened
  closing : ∀ j, bracketAt f l j = some .closing → ∃ i, Partners f l i j
  opening : ∀ i, bracketAt f l i = some .opening → i ∈ opened ∨ ∃ j, Partners f l i j

variable {f} {l : List α} {opened : List Nat}

theorem bracketAt_of_concat {a : α} {b : Bracket} {i : Nat}
    (h : bracketAt f (l ++ [a]) i = some b) :
    bracketAt f l i = some b ∨ i = l.length ∧ f a = some b := by
  by_cases hi : i < l.length
  · rw [bracketAt_append_left hi] at h
    exact .inl h
  · have hlt := lt_length_of_bracketAt h
    rw [List.length_append, List.length_singleton] at hlt
    have hlast : i = l.length := by omega
    subst hlast
    rw [bracketAt_concat_self] at h
    exact .inr ⟨rfl, h⟩

theorem Partners.of_concat {a : α} {i j : Nat} (h : Partners f (l ++ [a]) i j)
    (ha : f a ≠ some .closing) : Partners f l i j := by
  refine h.of_append ?_
  rcases bracketAt_of_concat h.closing with hold | ⟨_, hnew⟩
  · exact lt_length_of_bracketAt hold
  · exact absurd hnew ha

namespace Pending

theorem append_balanced (h : Pending f l opened) {rest : List α}
    (hrest : Balanced (rest.filterMap f)) : Pending f (l ++ rest) opened := by
  cases h with
  | closed hl =>
      refine .closed ?_
      rw [List.filterMap_append]
      exact hl.append hrest
  | more hl ha hinner =>
      rw [List.append_assoc, List.cons_append]
      refine .more hl ha ?_
      rw [List.filterMap_append]
      exact hinner.append hrest

theorem push (h : Pending f l opened) {a : α} (ha : f a = some .opening) :
    Pending f (l ++ [a]) (l.length :: opened) :=
  .more h ha .nil

theorem pop {i : Nat} (h : Pending f l (i :: opened)) {a : α} (ha : f a = some .closing) :
    Pending f (l ++ [a]) opened := by
  cases h with
  | @more l rest _ c hl hc hrest =>
      rw [List.append_assoc]
      refine hl.append_balanced ?_
      have hloop := Balanced.loop hrest .nil
      simpa [hc, ha] using hloop

theorem bracketAt_of_mem (h : Pending f l opened) {i : Nat} (hi : i ∈ opened) :
    bracketAt f l i = some .opening := by
  induction h with
  | closed _ => simp at hi
  | @more l rest opened a _ ha _ ih =>
      rcases List.mem_cons.1 hi with rfl | hmem
      · simp [bracketAt, ha]
      · have hold := ih hmem
        rw [bracketAt_append_left (lt_length_of_bracketAt hold), hold]

theorem pairwise_gt (h : Pending f l opened) : opened.Pairwise (· > ·) := by
  induction h with
  | closed _ => exact .nil
  | more hl _ _ ih =>
      refine List.pairwise_cons.2 ⟨fun i hi => ?_, ih⟩
      exact lt_length_of_bracketAt (hl.bracketAt_of_mem hi)

theorem balanced_drop {i : Nat} (h : Pending f l (i :: opened)) :
    Balanced ((l.drop (i + 1)).filterMap f) := by
  cases h with
  | @more l rest _ a _ _ hrest =>
      rw [← List.drop_drop, List.drop_left, List.drop_one]
      exact hrest

theorem balanced (h : Pending f l []) : Balanced (l.filterMap f) := by
  cases h with
  | closed hl => exact hl

theorem height_nonneg (h : Pending f l opened) (n : Nat) : 0 ≤ height f l n := by
  induction h generalizing n with
  | closed hl => exact height_nonneg_of_balanced hl n
  | @more l rest opened a _ ha hrest ih =>
      have hleft := ih n
      rw [height, List.take_append, List.filterMap_append, excess_append]
      rw [height] at hleft
      cases hcut : n - l.length with
      | zero =>
          simp only [List.take_zero, List.filterMap_nil, excess_nil]
          omega
      | succ m =>
          have hright := height_nonneg_of_balanced hrest m
          rw [height] at hright
          rw [List.take_succ_cons, List.filterMap_cons_some ha, excess_opening_cons]
          omega

theorem eq_nil_of_balanced (h : Pending f l opened) (hl : Balanced (l.filterMap f)) :
    opened = [] := by
  cases opened with
  | nil => rfl
  | cons i opened =>
      have hopen := h.bracketAt_of_mem List.mem_cons_self
      have hend : height f l l.length = height f l (i + 1) := by
        apply height_eq_of_balanced (lt_length_of_bracketAt hopen)
        rw [List.take_length]
        exact h.balanced_drop
      have hstep := height_succ_of_opening hopen
      have hnonneg := h.height_nonneg i
      have hzero := hl.excess_eq_zero
      rw [height_of_length_le (Nat.le_refl _)] at hend
      omega

end Pending

namespace Scan

theorem nil : Scan f [] [] where
  pending := .closed .nil
  closing j h := by simp [bracketAt] at h
  opening i h := by simp [bracketAt] at h

theorem mem_or_exists_partners (h : Scan f l opened) {i : Nat}
    (hi : bracketAt f l i = some .opening) (a : α) :
    i ∈ opened ∨ ∃ j, Partners f (l ++ [a]) i j := by
  rcases h.opening i hi with hmem | ⟨j, hij⟩
  · exact .inl hmem
  · exact .inr ⟨j, hij.append [a]⟩

theorem exists_partners_of_closing (h : Scan f l opened) {a : α} (ha : f a ≠ some .closing)
    {j : Nat} (hj : bracketAt f (l ++ [a]) j = some .closing) :
    ∃ i, Partners f (l ++ [a]) i j := by
  rcases bracketAt_of_concat hj with hold | ⟨_, hnew⟩
  · obtain ⟨i, hij⟩ := h.closing j hold
    exact ⟨i, hij.append [a]⟩
  · exact absurd hnew ha

theorem comment (h : Scan f l opened) {a : α} (ha : f a = none) : Scan f (l ++ [a]) opened where
  pending := h.pending.append_balanced (by simpa [ha] using Balanced.nil)
  closing _ hj := h.exists_partners_of_closing (by simp [ha]) hj
  opening := by
    intro i hi
    rcases bracketAt_of_concat hi with hold | ⟨_, hnew⟩
    · exact h.mem_or_exists_partners hold a
    · rw [ha] at hnew
      cases hnew

theorem push (h : Scan f l opened) {a : α} (ha : f a = some .opening) :
    Scan f (l ++ [a]) (l.length :: opened) where
  pending := h.pending.push ha
  closing _ hj := h.exists_partners_of_closing (by simp [ha]) hj
  opening := by
    intro i hi
    rcases bracketAt_of_concat hi with hold | ⟨rfl, _⟩
    · exact (h.mem_or_exists_partners hold a).imp_left (List.mem_cons_of_mem _)
    · exact .inl List.mem_cons_self

/-- The innermost open bracket is the partner of a closing bracket that follows. -/
theorem partners {i : Nat} (h : Scan f l (i :: opened)) {a : α} (ha : f a = some .closing) :
    Partners f (l ++ [a]) i l.length where
  lt := lt_length_of_bracketAt (h.pending.bracketAt_of_mem List.mem_cons_self)
  opening := by
    have hopen := h.pending.bracketAt_of_mem List.mem_cons_self
    rw [bracketAt_append_left (lt_length_of_bracketAt hopen), hopen]
  closing := by rw [bracketAt_concat_self, ha]
  balanced := by
    rw [List.take_left]
    exact h.pending.balanced_drop

theorem pop {i : Nat} (h : Scan f l (i :: opened)) {a : α} (ha : f a = some .closing) :
    Scan f (l ++ [a]) opened where
  pending := h.pending.pop ha
  closing := by
    intro j hj
    rcases bracketAt_of_concat hj with hold | ⟨rfl, _⟩
    · obtain ⟨k, hkj⟩ := h.closing j hold
      exact ⟨k, hkj.append [a]⟩
    · exact ⟨i, h.partners ha⟩
  opening := by
    intro k hk
    rcases bracketAt_of_concat hk with hold | ⟨_, hnew⟩
    · rcases h.mem_or_exists_partners hold a with hmem | hpair
      · rcases List.mem_cons.1 hmem with rfl | hmem
        · exact .inr ⟨_, h.partners ha⟩
        · exact .inl hmem
      · exact .inr hpair
    · rw [ha] at hnew
      cases hnew

theorem partners_concat {a : α} {i k j : Nat}
    (h : Scan f l (i :: opened)) (ha : f a = some .closing) (hkj : Partners f (l ++ [a]) k j) :
    Partners f l k j ∨ k = i ∧ j = l.length := by
  rcases bracketAt_of_concat hkj.closing with hold | ⟨rfl, _⟩
  · exact .inl (hkj.of_append (lt_length_of_bracketAt hold))
  · exact .inr ⟨hkj.opening_unique (h.partners ha), rfl⟩

/-- A closing bracket finds something open as long as no prefix closes more than it opens. -/
theorem ne_nil_of_closing {a : α} {l' : List α} (h : Scan f l opened)
    (ha : f a = some .closing) (hheight : ∀ n, 0 ≤ height f (l ++ a :: l') n) : opened ≠ [] := by
  rintro rfl
  have hzero := h.pending.balanced.excess_eq_zero
  have hnext := hheight (l.length + 1)
  rw [height, List.take_length_add_append, List.take_succ_cons, List.take_zero,
    List.filterMap_append, excess_append, hzero] at hnext
  simp [ha] at hnext

end Scan

end Brainfuck
