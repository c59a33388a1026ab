import Brainfuck.Text.Numeral
import Mathlib.Algebra.Group.Nat.Defs

/-!
# What spells a number

A number of 64 bits is spelled with decimal digits, at least one, and perhaps a plus sign before
them.  The value of the digits is that of the whole sequence, so leading zeros do not matter, and it
does not matter either that the reading gives up at the first prefix that is too large: a sequence
of digits is worth no less than its prefixes.
-/

namespace Brainfuck.Text

/-- An optional plus sign and decimal digits that come to `n`, a number of 64 bits. -/
def SpellsNumber (s : String) (n : Nat) : Prop :=
  ∃ digits : List Char, (s.toList = digits ∨ s.toList = '+' :: digits) ∧ digits ≠ [] ∧
    (∀ c ∈ digits, '0' ≤ c ∧ c ≤ '9') ∧ Nat.ofDigitChars 10 digits 0 = n ∧ n < 2 ^ 64

theorem isDigit_iff_le {c : Char} : c.isDigit = true ↔ '0' ≤ c ∧ c ≤ '9' :=
  Char.isDigit_iff_toNat

theorem le_ofDigitChars (cs : List Char) (v : Nat) : v ≤ Nat.ofDigitChars 10 cs v := by
  have hpos : 0 < 10 ^ cs.length := Nat.pow_pos (by decide)
  calc
    v ≤ 10 ^ cs.length * v := Nat.le_mul_of_pos_left v hpos
    _ ≤ 10 ^ cs.length * v + Nat.ofDigitChars 10 cs 0 := Nat.le_add_right _ _
    _ = Nat.ofDigitChars 10 cs v := Nat.ofDigitChars_eq_ofDigitChars_zero.symm

theorem digitsFrom_eq_ok_iff {v n : Nat} {cs : List Char} (hv : v < wordLimit) :
    digitsFrom v cs = .ok n ↔
      (∀ c ∈ cs, '0' ≤ c ∧ c ≤ '9') ∧ Nat.ofDigitChars 10 cs v = n ∧ n < wordLimit := by
  induction cs generalizing v with
  | nil =>
      simp only [digitsFrom, Except.ok.injEq, List.not_mem_nil, false_implies, implies_true,
        Nat.ofDigitChars_nil, true_and]
      constructor
      · rintro rfl
        exact ⟨rfl, hv⟩
      · exact And.left
  | cons c cs ih =>
      rw [digitsFrom, Nat.ofDigitChars_cons, Nat.mul_comm 10 v]
      by_cases hdigit : c.isDigit = true
      · have hc := isDigit_iff_le.1 hdigit
        rw [if_pos hdigit]
        by_cases hsmall : v * 10 + (c.toNat - '0'.toNat) < wordLimit
        · simp only [if_pos hsmall, ih hsmall, List.forall_mem_cons, hc, and_self, true_and]
        · simp only [if_neg hsmall, reduceCtorEq, false_iff]
          rintro ⟨-, hvalue, hlimit⟩
          have hle := le_ofDigitChars cs (v * 10 + (c.toNat - '0'.toNat))
          omega
      · simp only [if_neg hdigit, reduceCtorEq, false_iff]
        rintro ⟨hall, -⟩
        exact hdigit (isDigit_iff_le.2 (hall c List.mem_cons_self))

theorem numeral?_eq_some_iff {s : String} {n : Nat} : numeral? s = some n ↔ SpellsNumber s n := by
  have hok (r : Except NumeralFault Nat) : r.toOption = some n ↔ r = .ok n := by
    cases r <;> simp [Except.toOption]
  have hdigits (cs : List Char) : digitsFrom 0 cs = .ok n ↔
      (∀ c ∈ cs, '0' ≤ c ∧ c ≤ '9') ∧ Nat.ofDigitChars 10 cs 0 = n ∧ n < wordLimit :=
    digitsFrom_eq_ok_iff (by decide)
  rw [numeral?, hok, numeral]
  constructor
  · intro h
    split at h
    · cases h
    · cases h
    · next cs hempty hs =>
      obtain ⟨hall, hvalue⟩ := (hdigits _).1 h
      refine ⟨cs, .inr hs, ?_, hall, hvalue⟩
      rintro rfl
      exact hempty rfl
    · next hempty _ _ =>
      obtain ⟨hall, hvalue⟩ := (hdigits _).1 h
      exact ⟨_, .inl rfl, hempty, hall, hvalue⟩
  · rintro ⟨digits, hs, hne, hall, hvalue⟩
    have hread : digitsFrom 0 digits = .ok n := (hdigits _).2 ⟨hall, hvalue⟩
    obtain ⟨c, cs, rfl⟩ := List.exists_cons_of_ne_nil hne
    -- A digit is no sign, so digits alone are read by the last branch.
    have hc : c ≠ '+' := by
      rintro rfl
      exact absurd (hall '+' List.mem_cons_self) (by decide)
    rcases hs with hs | hs
    · rw [hs]
      split
      · next h => cases h
      · next h => exact absurd (List.cons.inj h).1 hc
      · next h => exact absurd (List.cons.inj h).1 hc
      · exact hread
    · rw [hs]
      exact hread

end Brainfuck.Text
