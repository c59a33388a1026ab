/-!
# Instructions

The eight instructions and the characters that spell them. Every other character of a source
text is a comment.
-/

namespace Brainfuck

inductive Instr where
  | left
  | right
  | inc
  | dec
  | put
  | get
  | opening
  | closing
  deriving DecidableEq, Inhabited

namespace Instr

def ofChar? : Char → Option Instr
  | '<' => some .left
  | '>' => some .right
  | '+' => some .inc
  | '-' => some .dec
  | '.' => some .put
  | ',' => some .get
  | '[' => some .opening
  | ']' => some .closing
  | _ => none

def toChar : Instr → Char
  | .left => '<'
  | .right => '>'
  | .inc => '+'
  | .dec => '-'
  | .put => '.'
  | .get => ','
  | .opening => '['
  | .closing => ']'

@[simp] theorem ofChar?_toChar (i : Instr) : ofChar? i.toChar = some i := by
  cases i <;> rfl

end Instr

/-- The instructions of a source text, in order. -/
def instrs (source : String) : List Instr :=
  source.toList.filterMap Instr.ofChar?

/-- The source text without its comments. -/
def strip (source : String) : String :=
  String.ofList (source.toList.filter fun c => (Instr.ofChar? c).isSome)

@[simp] theorem toList_strip (source : String) :
    (strip source).toList = source.toList.filter fun c => (Instr.ofChar? c).isSome := by
  simp [strip]

/-- A text without comments has none to drop. -/
@[simp] theorem strip_strip (source : String) : strip (strip source) = strip source := by
  simp [strip]

/-- Comments are no instructions. -/
@[simp] theorem instrs_strip (source : String) : instrs (strip source) = instrs source := by
  simp only [instrs, toList_strip, List.filterMap_filter]
  congr 1
  funext c
  cases Instr.ofChar? c <;> rfl

end Brainfuck
