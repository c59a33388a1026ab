import Brainfuck.Brackets

/-!
# Failures

Why code is not loaded or a run does not reach its end. A `Fault` is an instruction that cannot be
carried out; it ends a strict run and is passed over in a permissive one.
-/

namespace Brainfuck

inductive Policy where
  | strict
  | permissive
  deriving DecidableEq, Inhabited

inductive Fault where
  | outOfBounds (ip head : Nat) (sign : Char)
  | inputExhausted (ip : Nat)
  deriving DecidableEq

inductive Failure where
  | unmatched (culprit : Unmatched)
  | fault (cause : Fault)
  | io (ip : Nat) (cause : String)
  | stepLimit (limit : Nat)
  | canceled
  | noTape
  deriving DecidableEq

def Bracket.quoted (b : Bracket) : String :=
  "'" ++ b.toChar.toString ++ "'"

def Fault.message : Fault → String
  | .outOfBounds ip head sign =>
    "Pointer out of bounds at instruction " ++ toString ip ++ " (ptr=" ++ toString head ++
      ", op='" ++ sign.toString ++ "')"
  | .inputExhausted ip => "Input exhausted at instruction " ++ toString ip

def Failure.message : Failure → String
  | .unmatched u =>
    "Mismatched loop: unmatched " ++ u.bracket.quoted ++ " at position " ++ toString u.pos
  | .fault f => f.message
  | .io ip cause => "I/O error at instruction " ++ toString ip ++ ": " ++ cause
  | .stepLimit limit => "Execution aborted: step limit exceeded (" ++ toString limit ++ ")"
  | .canceled => "Execution aborted: cancelled"
  | .noTape => "Tape size must be at least one cell"

end Brainfuck
