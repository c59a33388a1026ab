import Brainfuck.Text.Hidden

/-!
# Quoted text

A text between double quotes on one line: quotes, backslashes and line breaks are escaped, and so is
every hidden character, by its code point in hexadecimal digits.
-/

namespace Brainfuck.Text

def escape (c : Char) : List Char :=
  match c with
  | '\t' => ['\\', 't']
  | '\r' => ['\\', 'r']
  | '\n' => ['\\', 'n']
  | '"' => ['\\', '"']
  | '\\' => ['\\', '\\']
  | c =>
    if c.toNat = 0 then ['\\', '0']
    else if isHidden c then
      ['\\', 'u', '\x7b'] ++ Nat.toDigits 16 c.toNat ++ ['\x7d']
    else [c]

def quoted (s : String) : String :=
  String.ofList ('"' :: s.toList.flatMap escape ++ ['"'])

end Brainfuck.Text
