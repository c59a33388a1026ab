import Brainfuck.Execution.State

/-!
# The step table

In table mode a run writes one row per instruction in place of the bytes that `.` would write. A row
shows the machine as it was before the instruction, and what the instruction did.
-/

namespace Brainfuck

def padRight (width : Nat) (s : String) : String :=
  s ++ String.ofList (List.replicate (width - s.length) ' ')

def Action.describe : Action → String
  | .moved head => "Moved pointer head to index " ++ toString head
  | .incremented head before after =>
    "Increment cell[" ++ toString head ++ "] from " ++ toString before ++ " to " ++ toString after
  | .decremented head before after =>
    "Decrement cell[" ++ toString head ++ "] from " ++ toString before ++ " to " ++ toString after
  | .emitted byte => "Output byte " ++ toString byte ++ " (suppressed in debug)"
  | .received byte => "Read byte from input -> " ++ toString byte
  | .jumpedForward target =>
    "Cell is 0; jump forward to matching ']' at IP " ++ toString target
  | .entered => "Enter loop (cell != 0)"
  | .jumpedBack target => "Cell != 0; jump back to matching '[' at IP " ++ toString target
  | .exited => "Exit loop (cell is 0)"
  | .passedOver .left _ => "Ignored move before cell 0"
  | .passedOver .right _ => "Ignored move past last cell"
  | .passedOver _ _ => "Input exhausted; cell unchanged"

/-- An instruction about to be carried out, and the machine at that moment. -/
structure Site where
  step : Nat
  ip : Nat
  head : Nat
  cell : UInt8
  instr : Instr
  deriving DecidableEq

def row (site : Site) (action : Action) : String :=
  padRight 4 (toString site.step) ++ " | " ++ padRight 3 (toString site.ip) ++ " | " ++
    padRight 3 (toString site.head) ++ " | " ++ padRight 4 (toString site.cell) ++ " |  " ++
    site.instr.toChar.toString ++ "    | " ++ action.describe

def tableHeader : List String :=
  ["STEP | IP  | PTR | CELL | INSTR | ACTION",
    "-----+-----+-----+------+-------+------------------------------------------------"]

/-- What a run writes: the bytes of `.`, or the step table. -/
inductive Mode where
  | plain
  | table
  deriving DecidableEq, Inhabited

namespace Mode

/-- A line goes out in two pieces. -/
def line (s : String) : List (List UInt8) :=
  [Text.bytes s, Text.bytes "\n"]

/-- What is written before the first instruction, piece by piece. -/
def header : Mode → List (List UInt8)
  | .plain => []
  | .table => tableHeader.flatMap line

/-- What is written after an instruction, piece by piece. -/
def pieces : Mode → Site → Action → List (List UInt8)
  | .plain, _, .emitted byte => [[byte]]
  | .plain, _, _ => []
  | .table, site, action => line (row site action)

end Mode

end Brainfuck
