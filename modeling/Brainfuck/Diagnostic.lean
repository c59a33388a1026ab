import Brainfuck.Failure
import Brainfuck.Instr
import Brainfuck.Text.Slice

/-!
# Diagnostics

A failure as it is shown to the user: one line, and, where it has a place in the code, a window of
the code around that place with a caret under it. Unmatched brackets are shown in the raw text,
everything else in the instructions without comments, which is what a run counts.
-/

namespace Brainfuck

/-- How many characters a window shows on each side of the caret. -/
def windowReach : Nat := 32

/-- Characters that would move the caret out of place. -/
def isControl (c : Char) : Bool :=
  c.toNat < 0x20 || (0x7F ≤ c.toNat && c.toNat ≤ 0x9F)

/-- The byte where the window around index `pos` begins. -/
def windowStart (code : String) (pos : Nat) : Nat :=
  Text.byteIndex code (pos - windowReach)

/-- The byte where the window around index `pos` has ended. -/
def windowStop (code : String) (pos : Nat) : Nat :=
  Text.byteIndex code (min (pos + windowReach + 1) code.length)

/-- A window does not end before it begins, even if `pos` is far beyond the end of the code. -/
theorem isSlice_window (code : String) (pos : Nat) :
    Text.IsSlice code (windowStart code pos) (windowStop code pos) :=
  Text.isSlice_byteIndex (by omega)

/-- The characters around index `pos`. -/
def window (code : String) (pos : Nat) : List Char :=
  (Text.slice code (isSlice_window code pos)).toList.map fun c => if isControl c then ' ' else c

def caretLine (pos : Nat) : List Char :=
  List.replicate (min pos windowReach) ' ' ++ ['^']

/-- Three lines: the headline, the window and the caret. -/
def withWindow (headline unit code : String) (pos : Nat) : String :=
  headline ++ " at " ++ unit ++ " " ++ toString pos ++ "\n  " ++
    String.ofList (window code pos) ++ "\n  " ++ String.ofList (caretLine pos) ++ "\n"

/-- Puts the name of the program in front, if there is one. -/
def named (program : Option String) (text : String) : String :=
  match program with
  | some p => p ++ ": " ++ text
  | none => text

def Failure.render (program : Option String) (source : String) : Failure → String
  | .unmatched u =>
    withWindow (named program ("Parse error: mismatched loop, unmatched " ++ u.bracket.quoted))
      "position" source u.pos
  | .fault (.outOfBounds ip head sign) =>
    withWindow
      (named program ("Runtime error: pointer out of bounds (ptr=" ++ toString head ++ ", op=" ++
        sign.toString ++ ")"))
      "instruction" (strip source) ip
  | .fault (.inputExhausted ip) =>
    withWindow (named program "Runtime error: read past end of input")
      "instruction" (strip source) ip
  | .io ip cause =>
    withWindow (named program ("I/O error: " ++ cause)) "instruction" (strip source) ip
  | failure => named program failure.message ++ "\n"

end Brainfuck
