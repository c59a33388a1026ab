import Brainfuck.Brackets
import Brainfuck.Instr

/-!
# Code

The instructions of a source text with a table that gives each bracket its partner, so that a jump
costs one look-up. An instruction that is no bracket is its own partner.
-/

namespace Brainfuck

/-- Fills in the partners of the brackets from index `i` on. `opened` holds the open brackets before
`i`, innermost first. What comes back is the brackets that are left open, and the table. -/
def linkBrackets : List Instr → Nat → List Nat → Array Nat → List Nat × Array Nat
  | [], _, opened, table => (opened, table)
  | .opening :: is, i, opened, table => linkBrackets is (i + 1) (i :: opened) table
  | .closing :: is, i, j :: opened, table =>
    linkBrackets is (i + 1) opened ((table.setIfInBounds j i).setIfInBounds i j)
  | _ :: is, i, opened, table => linkBrackets is (i + 1) opened table

@[simp] theorem size_linkBrackets (is : List Instr) (i : Nat) (opened : List Nat)
    (table : Array Nat) : (linkBrackets is i opened table).2.size = table.size := by
  induction is generalizing i opened table with
  | nil => rfl
  | cons x is ih =>
      cases x <;> cases opened <;> simp [linkBrackets, ih]

structure Code where
  instrs : Array Instr
  partners : Array Nat
  deriving DecidableEq, Inhabited

namespace Code

def ofInstrs (is : List Instr) : Code where
  instrs := is.toArray
  partners := (linkBrackets is 0 [] (Array.range is.length)).2

/-- Reads a source text. An unmatched bracket is reported at its index in the raw text. -/
def parse (source : String) : Except Unmatched Code :=
  match checkBrackets source with
  | .error u => .error u
  | .ok () => .ok (ofInstrs (Brainfuck.instrs source))

def size (code : Code) : Nat :=
  code.instrs.size

def isEmpty (code : Code) : Bool :=
  code.instrs.isEmpty

/-- The index of the bracket that belongs to the one at `i`. -/
def partner (code : Code) (i : Nat) : Nat :=
  code.partners.getD i i

/-- The instructions spelled out. -/
def text (code : Code) : String :=
  String.ofList (code.instrs.toList.map Instr.toChar)

@[simp] theorem size_ofInstrs (is : List Instr) : (ofInstrs is).size = is.length := by
  simp [ofInstrs, size]

end Code

end Brainfuck
