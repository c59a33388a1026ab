/-!
# Binary floating point numbers

The finite non-negative numbers of 64-bit binary floating point, as `mantissa * 2 ^ exponent` with a
mantissa below `2 ^ 53` and an exponent of at least `-1074`. `ofDecimal?` rounds a decimal number to
the nearest of them, a tie to the even mantissa.
-/

namespace Brainfuck

structure Binary64 where
  mantissa : Nat
  exponent : Int
  deriving DecidableEq

namespace Binary64

def precision : Nat := 53

/-- The first mantissa with a bit too many. -/
def twoToPrecision : Nat := 9007199254740992

def minExponent : Int := -1074

/-- The exponent from which on numbers are too large. -/
def maxExponent : Int := 971

def zero : Binary64 := ⟨0, minExponent⟩

/-- The quotient rounded to the nearest integer, a tie to the even one. -/
def roundDiv (num den : Nat) : Nat :=
  let q := num / den
  let r := num % den
  if 2 * r < den then q
  else if den < 2 * r then q + 1
  else q + q % 2

/-- `value * 2 ^ e` as a numerator and a denominator, for a fraction. -/
def scale (num den : Nat) (e : Int) : Nat × Nat :=
  if 0 ≤ e then (num * Nat.pow 2 e.toNat, den) else (num, den * Nat.pow 2 (-e).toNat)

/-- The nearest number to a positive fraction, or `none` if that is too large. -/
def ofFraction? (num den : Nat) : Option Binary64 :=
  let guess : Int := (num.log2 : Int) - den.log2 - precision
  let exponent := max guess minExponent
  let (n, d) := scale num den (-exponent)
  let exponent := if twoToPrecision ≤ n / d then exponent + 1 else exponent
  let (n, d) := scale num den (-exponent)
  let mantissa := roundDiv n d
  let (mantissa, exponent) :=
    if mantissa = twoToPrecision then (twoToPrecision / 2, exponent + 1) else (mantissa, exponent)
  if maxExponent < exponent then none else some ⟨mantissa, exponent⟩

/-- The nearest number to `digits * 10 ^ exponent`, or `none` if that is too large. Beyond 400
places either way the answer is known without computing the power. -/
def ofDecimal? (digits : Nat) (exponent : Int) : Option Binary64 :=
  if digits = 0 then some zero
  else
    let places : Int := (Nat.toDigits 10 digits).length + exponent
    if 400 < places then none
    else if places < -400 then some zero
    else if 0 ≤ exponent then ofFraction? (digits * Nat.pow 10 exponent.toNat) 1
    else ofFraction? digits (Nat.pow 10 (-exponent).toNat)

end Binary64

end Brainfuck
