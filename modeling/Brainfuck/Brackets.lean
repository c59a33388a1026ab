/-!
# Brackets

Loops are balanced when the brackets of the source text, comments left out, form a word of the
grammar `S ::= ε | [ S ] S`. `checkBrackets` decides this on the characters of the raw text and
names the bracket that breaks it: the first `]` that closes nothing, or else the innermost `[`
that is never closed.
-/

namespace Brainfuck

inductive Bracket where
  | opening
  | closing
  deriving DecidableEq, Inhabited

namespace Bracket

def ofChar? : Char → Option Bracket
  | '[' => some .opening
  | ']' => some .closing
  | _ => none

def toChar : Bracket → Char
  | .opening => '['
  | .closing => ']'

end Bracket

/-- The brackets of a text, in order. -/
def brackets (cs : List Char) : List Bracket :=
  cs.filterMap Bracket.ofChar?

/-- Words of the grammar `S ::= ε | [ S ] S`. -/
inductive Balanced : List Bracket → Prop where
  | nil : Balanced []
  | loop {body rest : List Bracket} :
      Balanced body → Balanced rest →
        Balanced (.opening :: (body ++ .closing :: rest))

/-- A bracket without a partner, at a character index. -/
structure Unmatched where
  bracket : Bracket
  pos : Nat
  deriving DecidableEq

/-- Reads the characters from index `pos` on. `opened` holds the indices of the brackets that are
open so far, innermost first; what is left of it at the end is the result. -/
def openBrackets : List Char → Nat → List Nat → Except Unmatched (List Nat)
  | [], _, opened => .ok opened
  | c :: cs, pos, opened =>
    match Bracket.ofChar? c, opened with
    | none, opened => openBrackets cs (pos + 1) opened
    | some .opening, opened => openBrackets cs (pos + 1) (pos :: opened)
    | some .closing, _ :: opened => openBrackets cs (pos + 1) opened
    | some .closing, [] => .error ⟨.closing, pos⟩

def checkBrackets (source : String) : Except Unmatched Unit :=
  match openBrackets source.toList 0 [] with
  | .error u => .error u
  | .ok [] => .ok ()
  | .ok (pos :: _) => .error ⟨.opening, pos⟩

def hasBalancedLoops (source : String) : Bool :=
  (checkBrackets source).isOk

end Brainfuck
