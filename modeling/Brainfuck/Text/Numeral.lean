/-!
# Numerals

Unsigned numbers of 64 bits as they are written in arguments and variables: an optional plus sign
and decimal digits, read from the left. The first fault found ends the reading.
-/

namespace Brainfuck.Text

inductive NumeralFault where
  | empty
  | invalidDigit
  | tooLarge
  deriving DecidableEq

def NumeralFault.message : NumeralFault → String
  | .empty => "cannot parse integer from empty string"
  | .invalidDigit => "invalid digit found in string"
  | .tooLarge => "number too large to fit in target type"

/-- The first number that needs more than 64 bits. -/
def wordLimit : Nat := 18446744073709551616

/-- Continues a number with decimal digits. -/
def digitsFrom (value : Nat) : List Char → Except NumeralFault Nat
  | [] => .ok value
  | c :: cs =>
    if c.isDigit then
      let value := value * 10 + (c.toNat - '0'.toNat)
      if value < wordLimit then digitsFrom value cs else .error .tooLarge
    else .error .invalidDigit

def numeral (s : String) : Except NumeralFault Nat :=
  match s.toList with
  | [] => .error .empty
  | ['+'] => .error .invalidDigit
  | '+' :: cs => digitsFrom 0 cs
  | cs => digitsFrom 0 cs

def numeral? (s : String) : Option Nat :=
  (numeral s).toOption

end Brainfuck.Text
