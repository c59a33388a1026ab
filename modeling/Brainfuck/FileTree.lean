/-!
# File trees

Files by name in directories, and what looking up a path finds. A path is a sequence of bytes with
slashes between the names; a dot stands for the directory itself and two dots for the one above it.
-/

namespace Brainfuck

/-- What is found under a path. -/
inductive Lookup where
  | contents (bytes : List UInt8)
  /-- Nothing is there. -/
  | absent (cause : String)
  /-- Something is there that cannot be read. -/
  | unreadable (cause : String)

inductive FileTree where
  | file (bytes : List UInt8)
  | dir (entries : List (List UInt8 × FileTree))

namespace FileTree

def slash : UInt8 := 0x2F

/-- The names on a path. -/
def names (path : List UInt8) : List (List UInt8) :=
  path.splitOn slash

def isDir : FileTree → Bool
  | .dir _ => true
  | .file _ => false

def child? (entries : List (List UInt8 × FileTree)) (name : List UInt8) : Option FileTree :=
  (entries.find? fun e => e.1 == name).map Prod.snd

/-- Puts `tree` where the names lead, and makes directories on the way. -/
def insert (tree : FileTree) : List (List UInt8) → FileTree → FileTree
  | [], .dir entries => if tree.isDir then .dir entries else tree
  | [], .file _ => tree
  | name :: names, old =>
    let entries :=
      match old with
      | .dir entries => entries
      | .file _ => []
    let inner := insert tree names ((child? entries name).getD (.dir []))
    .dir ((name, inner) :: entries.filter fun e => e.1 != name)

def ofFiles (files : List (List UInt8 × Option (List UInt8))) : FileTree :=
  files.foldl (fun tree (path, contents) =>
    insert (match contents with | some bytes => .file bytes | none => .dir []) (names path) tree)
    (.dir [])

def notFound : Lookup := .absent "No such file or directory (os error 2)"

def notDirectory : Lookup := .absent "Not a directory (os error 20)"

def nameTooLong : Lookup := .absent "File name too long (os error 36)"

/-- Follows the names from `tree`. `above` holds the directories on the way, the nearest first. -/
def follow : List (List UInt8) → List FileTree → FileTree → Lookup
  | [], _, .file bytes => .contents bytes
  | [], _, .dir _ => .unreadable "Is a directory (os error 21)"
  | _ :: _, _, .file _ => notDirectory
  | name :: names, above, .dir entries =>
    if name.isEmpty || name == [0x2E] then follow names above (.dir entries)
    else if name == [0x2E, 0x2E] then
      match above with
      | parent :: above => follow names above parent
      | [] => notFound
    else if 255 < name.length then nameTooLong
    else
      match child? entries name with
      | some inner => follow names (.dir entries :: above) inner
      | none => notFound

/-- What a path finds that starts in the directory `tree`. -/
def lookup (tree : FileTree) (path : List UInt8) : Lookup :=
  match path with
  | [] => notFound
  | b :: _ => if b == slash then notFound else follow (names path) [] tree

end FileTree

end Brainfuck
