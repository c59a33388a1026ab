import Brainfuck.Toml.Value

/-!
# Scalars

Strings, numbers, booleans and moments in time, as they are spelled in a TOML document. Strings are
read off the front of a text; everything else is a run of plain characters, judged as a whole.
-/

namespace Brainfuck.Toml

def isSpace (c : Char) : Bool :=
  c == ' ' || c == '\t'

/-- Characters that may stand in strings and comments. -/
def isTextChar (c : Char) : Bool :=
  c == '\t' || (0x20 ≤ c.toNat && c.toNat != 0x7F)

/-! ## Strings -/

def apostrophe : Char := Char.ofNat 0x27

def hexValue? (c : Char) : Option Nat :=
  if c.isDigit then some (c.toNat - '0'.toNat)
  else if 'a' ≤ c && c ≤ 'f' then some (c.toNat - 'a'.toNat + 10)
  else if 'A' ≤ c && c ≤ 'F' then some (c.toNat - 'A'.toNat + 10)
  else none

/-- The character with the code point that the next `count` digits give. -/
def codePoint (count : Nat) (cs : List Char) : Option (Char × List Char) := do
  let digits ← (cs.take count).mapM hexValue?
  if digits.length < count then none
  let n := digits.foldl (fun n d => n * 16 + d) 0
  if n.isValidChar then some (Char.ofNat n, cs.drop count) else none

/-- What a backslash and the text after it stand for. -/
def unescape : List Char → Option (Char × List Char)
  | 'b' :: cs => some (Char.ofNat 0x08, cs)
  | 't' :: cs => some ('\t', cs)
  | 'n' :: cs => some ('\n', cs)
  | 'f' :: cs => some (Char.ofNat 0x0C, cs)
  | 'r' :: cs => some ('\r', cs)
  | 'e' :: cs => some (Char.ofNat 0x1B, cs)
  | '"' :: cs => some ('"', cs)
  | '\\' :: cs => some ('\\', cs)
  | 'x' :: cs => codePoint 2 cs
  | 'u' :: cs => codePoint 4 cs
  | 'U' :: cs => codePoint 8 cs
  | _ => none

/-- The text after a line break, if it starts with one. -/
def lineBreak? : List Char → Option (List Char)
  | '\n' :: cs => some cs
  | '\r' :: '\n' :: cs => some cs
  | _ => none

def skipBlankLines : List Char → List Char
  | ' ' :: cs => skipBlankLines cs
  | '\t' :: cs => skipBlankLines cs
  | '\n' :: cs => skipBlankLines cs
  | '\r' :: '\n' :: cs => skipBlankLines cs
  | cs => cs

/-- The text after a backslash that stands at the end of a line. -/
def continuation? (cs : List Char) : Option (List Char) :=
  (lineBreak? (cs.dropWhile isSpace)).map skipBlankLines

/-- The end of a string: what it still adds to the contents, and the text after it. Up to two quotes
may stand before the three that close a string of several lines. -/
def closing? (quote : Char) (multi : Bool) (cs : List Char) : Option (List Char × List Char) :=
  let count := ((cs.take 5).takeWhile (· == quote)).length
  if multi then
    if 3 ≤ count then some (List.replicate (count - 3) quote, cs.drop count) else none
  else if 1 ≤ count then some ([], cs.drop 1)
  else none

/-- The contents of a string after its opening quotes, and the text after it. -/
def stringBody (quote : Char) (multi : Bool) : Nat → List Char → Option (List Char × List Char)
  | 0, _ => none
  | fuel + 1, cs =>
    match closing? quote multi cs, cs with
    | some tail, _ => some tail
    | none, [] => none
    | none, c :: cs =>
      if c == '\\' && quote == '"' then
        match (if multi then continuation? cs else none) with
        | some cs => stringBody quote multi fuel cs
        | none => do
          let (c, cs) ← unescape cs
          let (contents, cs) ← stringBody quote multi fuel cs
          return (c :: contents, cs)
      else if isTextChar c || (multi && (lineBreak? (c :: cs)).isSome) then do
        let (contents, cs) ← stringBody quote multi fuel cs
        return (c :: contents, cs)
      else none

/-- A string on one line, after its opening quote. -/
def lineString (quote : Char) (cs : List Char) : Option (String × List Char) :=
  (stringBody quote false (cs.length + 1) cs).map fun (contents, cs) =>
    (String.ofList contents, cs)

/-- A string of either kind, from its opening quotes on. A line break right after three opening
quotes does not count. -/
def string? (quote : Char) (cs : List Char) : Option (String × List Char) :=
  if (cs.take 3).all (· == quote) && 3 ≤ cs.length then
    let cs := cs.drop 3
    let cs := (lineBreak? cs).getD cs
    (stringBody quote true (cs.length + 1) cs).map fun (contents, cs) =>
      (String.ofList contents, cs)
  else lineString quote (cs.drop 1)

/-! ## Numbers -/

/-- Digits without the underscores between them. -/
def ungroup? (isDigit : Char → Bool) : List Char → Option (List Char)
  | [] => none
  | [c] => if isDigit c then some [c] else none
  | c :: '_' :: cs => if isDigit c then (ungroup? isDigit cs).map (c :: ·) else none
  | c :: cs => if isDigit c then (ungroup? isDigit cs).map (c :: ·) else none

def digitsValue (base : Nat) (cs : List Char) : Nat :=
  cs.foldl (fun n c => n * base + (hexValue? c).getD 0) 0

/-- Takes a sign off the front. -/
def signed : List Char → Bool × List Char
  | '+' :: cs => (false, cs)
  | '-' :: cs => (true, cs)
  | cs => (false, cs)

/-- Decimal digits that do not start with a needless zero. -/
def whole? (cs : List Char) : Option (List Char) :=
  match ungroup? Char.isDigit cs with
  | some ('0' :: _ :: _) => none
  | digits => digits

def integer? (cs : List Char) : Option Int :=
  let based (base : Nat) (isDigit : Char → Bool) (cs : List Char) : Option Int :=
    (ungroup? isDigit cs).map fun digits => (digitsValue base digits : Int)
  match cs with
  | '0' :: 'x' :: cs => based 16 (fun c => (hexValue? c).isSome) cs
  | '0' :: 'o' :: cs => based 8 (fun c => '0' ≤ c && c ≤ '7') cs
  | '0' :: 'b' :: cs => based 2 (fun c => c == '0' || c == '1') cs
  | cs =>
    let (negative, cs) := signed cs
    (whole? cs).map fun digits =>
      let n : Int := digitsValue 10 digits
      if negative then -n else n

def isExponentMark (c : Char) : Bool :=
  c == 'e' || c == 'E'

def exponent? : List Char → Option Int
  | [] => some 0
  | _ :: cs =>
    let (negative, cs) := signed cs
    (ungroup? Char.isDigit cs).map fun digits =>
      let n : Int := digitsValue 10 digits
      if negative then -n else n

def floating? (cs : List Char) : Option Floating :=
  let (negative, cs) := signed cs
  match cs with
  | ['i', 'n', 'f'] => some (.infinite negative)
  | ['n', 'a', 'n'] => some .nan
  | cs => do
    let mantissa := cs.takeWhile fun c => !isExponentMark c
    let power := cs.dropWhile fun c => !isExponentMark c
    let exponent ← exponent? power
    let before ← whole? (mantissa.takeWhile (· != '.'))
    match mantissa.dropWhile (· != '.') with
    | [] => if power.isEmpty then none else some (.finite negative (digitsValue 10 before) exponent)
    | _ :: after =>
      let after ← ungroup? Char.isDigit after
      return .finite negative (digitsValue 10 (before ++ after)) (exponent - after.length)

/-! ## Moments -/

def twoDigits? (a b : Char) : Option Nat :=
  if a.isDigit && b.isDigit then some (digitsValue 10 [a, b]) else none

def isLeapYear (y : Nat) : Bool :=
  (y % 4 == 0 && y % 100 != 0) || y % 400 == 0

def daysInMonth (year month : Nat) : Nat :=
  match month with
  | 2 => if isLeapYear year then 29 else 28
  | 4 | 6 | 9 | 11 => 30
  | _ => 31

/-- The text after a date. -/
def date? : List Char → Option (List Char)
  | y₁ :: y₂ :: y₃ :: y₄ :: '-' :: m₁ :: m₂ :: '-' :: d₁ :: d₂ :: cs => do
    let century ← twoDigits? y₁ y₂
    let year ← twoDigits? y₃ y₄
    let month ← twoDigits? m₁ m₂
    let day ← twoDigits? d₁ d₂
    if 1 ≤ month ∧ month ≤ 12 ∧ 1 ≤ day ∧ day ≤ daysInMonth (century * 100 + year) month then
      some cs
    else none
  | _ => none

/-- The text after a fraction of a second, if there is one. -/
def fraction? : List Char → Option (List Char)
  | '.' :: c :: cs => if c.isDigit then some (cs.dropWhile Char.isDigit) else none
  | '.' :: [] => none
  | cs => some cs

/-- The text after a time of day. Seconds may be left out. -/
def time? : List Char → Option (List Char)
  | h₁ :: h₂ :: ':' :: m₁ :: m₂ :: cs => do
    let hour ← twoDigits? h₁ h₂
    let minute ← twoDigits? m₁ m₂
    if 23 < hour ∨ 59 < minute then none
    match cs with
    | ':' :: s₁ :: s₂ :: cs =>
      let second ← twoDigits? s₁ s₂
      if 60 < second then none
      fraction? cs
    | ':' :: _ => none
    | cs => some cs
  | _ => none

/-- Whether a text is the offset of a time zone, or empty. -/
def isOffset : List Char → Bool
  | [] => true
  | ['Z'] => true
  | ['z'] => true
  | [sign, h₁, h₂, ':', m₁, m₂] =>
    (sign == '+' || sign == '-') &&
      (twoDigits? h₁ h₂).any (· ≤ 23) && (twoDigits? m₁ m₂).any (· ≤ 59)
  | _ => false

def isMoment (cs : List Char) : Bool :=
  match date? cs with
  | some [] => true
  | some (c :: cs) => (c == 'T' || c == 't' || c == ' ') && (time? cs).any isOffset
  | none => time? cs == some []

/-! ## Plain runs -/

def isPlain (c : Char) : Bool :=
  c.isAlphanum || c == '_' || c == '+' || c == '-' || c == '.' || c == ':'

/-- The run of plain characters at the front, and the text after it. One space may stand between a
date and a time of day. -/
def plainRun (cs : List Char) : List Char × List Char :=
  let run := cs.takeWhile isPlain
  let rest := cs.dropWhile isPlain
  match date? run, rest with
  | some [], ' ' :: c :: rest =>
    if c.isDigit then
      (run ++ ' ' :: (c :: rest).takeWhile isPlain, (c :: rest).dropWhile isPlain)
    else (run, ' ' :: c :: rest)
  | _, rest => (run, rest)

/-- What a run of plain characters stands for. -/
def plainValue? (run : List Char) : Option Value :=
  match run with
  | ['t', 'r', 'u', 'e'] => some (.boolean true)
  | ['f', 'a', 'l', 's', 'e'] => some (.boolean false)
  | run =>
    match integer? run with
    | some n => some (.integer n)
    | none =>
      match floating? run with
      | some r => some (.floating r)
      | none => if isMoment run then some .moment else none

end Brainfuck.Toml
