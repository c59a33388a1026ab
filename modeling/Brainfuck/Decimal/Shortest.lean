import Brainfuck.Decimal.Binary64

/-!
# Shortest decimals

The decimal with the fewest digits that rounds back to a given binary number, and of those the one
nearest to it. For one digit, two digits and so on the two neighbours of the number on that decimal
grid are tried; seventeen digits are always enough.
-/

namespace Brainfuck

/-- The number `digits * 10 ^ exponent`. -/
structure Decimal where
  digits : Nat
  exponent : Int
  deriving DecidableEq

namespace Binary64

/-- The ends of the interval of the reals that round to `x`, times `4 * 2 ^ -exponent`. They belong
to it when the mantissa is even. -/
def roundingEnds (x : Binary64) : Nat × Nat :=
  if 2 * x.mantissa = twoToPrecision ∧ minExponent < x.exponent then
    (4 * x.mantissa - 1, 4 * x.mantissa + 2)
  else (4 * x.mantissa - 2, 4 * x.mantissa + 2)

/-- Whether the fraction `num / den` rounds to `x`. -/
def isHit (x : Binary64) (num den : Nat) : Bool :=
  let (low, high) := x.roundingEnds
  let (n, d) := scale (4 * num) den (-x.exponent)
  if x.mantissa % 2 = 0 then low * d ≤ n && n ≤ high * d else low * d < n && n < high * d

end Binary64

namespace Decimal

/-- The number as a numerator and a denominator. -/
def fraction (d : Decimal) : Nat × Nat :=
  if 0 ≤ d.exponent then (d.digits * Nat.pow 10 d.exponent.toNat, 1)
  else (d.digits, Nat.pow 10 (-d.exponent).toNat)

/-- How many digits stand before the point in `num / den`, negative for zeros after the point. -/
def places (num den : Nat) : Int :=
  let digits (n : Nat) : Int := (Nat.toDigits 10 n).length
  let guess := digits num - digits den
  let atLeast (e : Int) : Bool :=
    if 0 ≤ e then den * Nat.pow 10 e.toNat ≤ num else den ≤ num * Nat.pow 10 (-e).toNat
  if atLeast guess then guess + 1 else guess

/-- Drops the zeros at the end of the digits. -/
def trimZeros : Nat → Decimal → Decimal
  | 0, d => d
  | fuel + 1, d =>
    if d.digits ≠ 0 ∧ d.digits % 10 = 0 then trimZeros fuel ⟨d.digits / 10, d.exponent + 1⟩ else d

/-- Tries the two neighbours of `num / den` on the grid of `count` digits, then finer grids. -/
def search (x : Binary64) (num den : Nat) (top : Int) : Nat → Nat → Decimal
  | 0, count => ⟨num / den, count⟩
  | fuel + 1, count =>
    let exponent := top - count
    let (n, d) :=
      if 0 ≤ exponent then (num, den * Nat.pow 10 exponent.toNat)
      else (num * Nat.pow 10 (-exponent).toNat, den)
    let low : Decimal := ⟨n / d, exponent⟩
    let high : Decimal := ⟨n / d + 1, exponent⟩
    let hit (c : Decimal) : Bool := x.isHit c.fraction.1 c.fraction.2
    match hit low, hit high with
    | true, true => if 2 * (n % d) ≤ d then low else high
    | true, false => low
    | false, true => high
    | false, false => search x num den top fuel (count + 1)

end Decimal

namespace Binary64

def shortest (x : Binary64) : Decimal :=
  if x.mantissa = 0 then ⟨0, 0⟩
  else
    let (num, den) := scale x.mantissa 1 x.exponent
    Decimal.trimZeros 20 (Decimal.search x num den (Decimal.places num den) 17 1)

end Binary64

namespace Decimal

/-- The number in positional notation, with at least one digit on each side of the point. -/
def positional (d : Decimal) : String :=
  let digits := Nat.toDigits 10 d.digits
  if 0 ≤ d.exponent then
    String.ofList (digits ++ List.replicate d.exponent.toNat '0') ++ ".0"
  else
    let after := (-d.exponent).toNat
    let padded := List.replicate (after + 1 - digits.length) '0' ++ digits
    let before := padded.length - after
    String.ofList (padded.take before ++ '.' :: padded.drop before)

end Decimal

end Brainfuck
