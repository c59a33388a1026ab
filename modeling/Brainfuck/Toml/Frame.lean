import Brainfuck.Toml.Value

/-!
# Frames

A complaint about a place in a document, shown with the line it is on and carets under the place. A
frame has a column of line numbers on the left. Carets never go beyond the end of the line.
-/

namespace Brainfuck.Toml

def byteSize (cs : List Char) : Nat :=
  cs.foldl (fun n c => n + c.utf8Size) 0

def blanks (n : Nat) : String :=
  String.ofList (List.replicate n ' ')

/-- The lines of a text, each without its line feed. -/
def textLines (cs : List Char) : List (List Char) :=
  cs.splitOn '\n'

/-- The frame around `span` in `text`, with `complaint` under it. -/
def frame (text : String) (span : Span) (complaint : String) : String :=
  let cs := text.toList
  let before := cs.take (cs.length - span.start)
  let covered := byteSize ((cs.drop (cs.length - span.start)).take (span.start - span.stop))
  let above := textLines before
  let number := toString above.length
  let column := (above.getLast?.getD []).length
  let content := ((textLines cs).drop (above.length - 1)).headD []
  let carets := max 1 (min covered (byteSize content - column))
  let gutter := blanks (number.length + 1) ++ "|"
  "TOML parse error at line " ++ number ++ ", column " ++ toString (column + 1) ++ "\n" ++
    gutter ++ "\n" ++
    number ++ " | " ++ String.ofList content ++ "\n" ++
    gutter ++ blanks (column + 1) ++ String.ofList (List.replicate carets '^') ++ "\n" ++
    complaint ++ "\n"

end Brainfuck.Toml
