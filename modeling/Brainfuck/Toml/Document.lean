import Brainfuck.Toml.Scalar

/-!
# Documents

A document is a sequence of lines: entries `key = value` and headers that say which table the
entries after them belong to. A text that is no document is refused without a reason.
-/

namespace Brainfuck.Toml

/-- Reads something off the front of a text. -/
abbrev Reader := StateT (List Char) Option

namespace Reader

/-- The place that has been reached. -/
def place : Reader Nat := do
  return (← get).length

def peek? : Reader (Option Char) := do
  return (← get).head?

def expect (c : Char) : Reader Unit := do
  match ← get with
  | d :: cs => if c == d then set cs else failure
  | [] => failure

/-- Takes a character if it comes next. -/
def accept (c : Char) : Reader Bool := do
  match ← get with
  | d :: cs => if c == d then do set cs; return true else return false
  | [] => return false

def spaces : Reader Unit :=
  modify fun cs => cs.dropWhile isSpace

/-- Runs a function that gives the text after what it has read. -/
def rest (f : List Char → Option (List Char)) : Reader Unit := do
  match f (← get) with
  | some cs => set cs
  | none => failure

/-- Runs a function that gives what it has read and the text after it. -/
def part {α : Type} (f : List Char → Option (α × List Char)) : Reader α := do
  match f (← get) with
  | some (a, cs) => do set cs; return a
  | none => failure

/-- The span of what a reader takes. -/
def spanned {α : Type} (r : Reader α) : Reader (Span × α) := do
  let start ← place
  let a ← r
  return (⟨start, ← place⟩, a)

end Reader

/-! ## White space and comments -/

/-- The text after white space, line breaks and comments. -/
def skipTrivia (inComment : Bool) : List Char → Option (List Char)
  | [] => some []
  | '\n' :: cs => skipTrivia false cs
  | '\r' :: '\n' :: cs => skipTrivia false cs
  | c :: cs =>
    if inComment then if isTextChar c then skipTrivia true cs else none
    else if isSpace c then skipTrivia false cs
    else if c == '#' then skipTrivia true cs
    else some (c :: cs)

/-- The text after the end of a line on which nothing but a comment may follow. -/
def endLine (inComment : Bool) : List Char → Option (List Char)
  | [] => some []
  | '\n' :: cs => some cs
  | '\r' :: '\n' :: cs => some cs
  | c :: cs =>
    if inComment then if isTextChar c then endLine true cs else none
    else if isSpace c then endLine false cs
    else if c == '#' then endLine true cs
    else none

/-! ## Keys -/

def isBareKeyChar (c : Char) : Bool :=
  c.isAlphanum || c == '_' || c == '-'

def bareKey (cs : List Char) : Option (String × List Char) :=
  match cs.takeWhile isBareKeyChar with
  | [] => none
  | name => some (String.ofList name, cs.dropWhile isBareKeyChar)

def keyName : Reader String := do
  match ← Reader.peek? with
  | some c =>
    if c == '"' || c == apostrophe then Reader.part fun cs => lineString c (cs.drop 1)
    else Reader.part bareKey
  | none => failure

def simpleKey : Reader Key := do
  let (span, name) ← Reader.spanned keyName
  return ⟨name, span⟩

/-- The keys after the first one of a dotted key. -/
def moreKeys : Nat → Reader (List Key)
  | 0 => failure
  | fuel + 1 => do
    Reader.spaces
    if ← Reader.accept '.' then do
      Reader.spaces
      let k ← simpleKey
      return k :: (← moreKeys fuel)
    else return []

/-- A dotted key: the way to the table, and the key in it. -/
def dottedKey : Reader (List Key × Key) := do
  let first ← simpleKey
  let more ← moreKeys ((← get).length + 1)
  match (first :: more).getLast? with
  | some last => return ((first :: more).dropLast, last)
  | none => failure

/-! ## Values -/

/-- How deep arrays and inline tables may be nested. -/
def maxDepth : Nat := 80

mutual

/-- A value inside `depth` arrays and inline tables. -/
def readValue : Nat → Nat → Reader Value
  | 0, _ => failure
  | fuel + 1, depth => do
    match ← Reader.peek? with
    | none => failure
    | some c =>
      if c == '"' || c == apostrophe then do
        return .string (← Reader.part (string? c))
      else if c == '[' then do
        if maxDepth ≤ depth then failure
        Reader.expect '['
        Reader.rest (skipTrivia false)
        return .array (← readItems fuel (depth + 1))
      else if c == '\x7b' then do
        if maxDepth ≤ depth then failure
        Reader.expect '\x7b'
        Reader.rest (skipTrivia false)
        return .table .inline (← readInline fuel (depth + 1) [])
      else
        Reader.part fun cs =>
          let (run, cs) := plainRun cs
          (plainValue? run).map fun v => (v, cs)

/-- The items of an array, up to its closing bracket. -/
def readItems : Nat → Nat → Reader (List (Span × Value))
  | 0, _ => failure
  | fuel + 1, depth => do
    if ← Reader.accept ']' then return []
    else do
      let item ← Reader.spanned (readValue fuel depth)
      Reader.rest (skipTrivia false)
      if ← Reader.accept ',' then do
        Reader.rest (skipTrivia false)
        return item :: (← readItems fuel depth)
      else do
        Reader.expect ']'
        return [item]

/-- The entries of an inline table, up to its closing brace. -/
def readInline : Nat → Nat → Entries → Reader Entries
  | 0, _, _ => failure
  | fuel + 1, depth, es => do
    if ← Reader.accept '\x7d' then return es
    else do
      let (path, key) ← dottedKey
      Reader.spaces
      Reader.expect '='
      Reader.spaces
      let (span, value) ← Reader.spanned (readValue fuel depth)
      match es.insert path key span value .headed with
      | none => failure
      | some es =>
        Reader.rest (skipTrivia false)
        if ← Reader.accept ',' then do
          Reader.rest (skipTrivia false)
          readInline fuel depth es
        else do
          Reader.expect '\x7d'
          return es

end

/-! ## Lines -/

/-- What has been read of a document: its entries, and the way to the table that is open. -/
structure Draft where
  current : List Key := []
  entries : Entries := []

/-- A header of either kind. -/
def readHeader (draft : Draft) : Reader Draft := do
  let start ← Reader.place
  Reader.expect '['
  let element ← Reader.accept '['
  Reader.spaces
  let (path, key) ← dottedKey
  Reader.spaces
  Reader.expect ']'
  if element then Reader.expect ']'
  let span : Span := ⟨start, ← Reader.place⟩
  let entries? :=
    if element then draft.entries.openElement path key span
    else draft.entries.openTable path key span
  match entries? with
  | some entries => return { current := path ++ [key], entries }
  | none => failure

def readEntry (draft : Draft) : Reader Draft := do
  let (path, key) ← dottedKey
  Reader.spaces
  Reader.expect '='
  Reader.spaces
  let (span, value) ← Reader.spanned (readValue (2 * (← get).length + 2) 0)
  match Entries.within .implicit (Entries.insert path key span value) draft.current .headed
      draft.entries with
  | some entries => return { draft with entries }
  | none => failure

def readLines : Nat → Draft → Reader Draft
  | 0, _ => failure
  | fuel + 1, draft => do
    Reader.rest (skipTrivia false)
    match ← Reader.peek? with
    | none => return draft
    | some c =>
      let draft ← if c == '[' then readHeader draft else readEntry draft
      Reader.rest (endLine false)
      readLines fuel draft

/-- Leaves out a byte order mark at the start. -/
def dropMark : List Char → List Char
  | c :: cs => if c.toNat = 0xFEFF then cs else c :: cs
  | [] => []

/-- The entries of a document. -/
def document? (text : String) : Option Entries :=
  let cs := dropMark text.toList
  ((readLines (cs.length + 2) {}).run cs).map fun (draft, _) => draft.entries

end Brainfuck.Toml
