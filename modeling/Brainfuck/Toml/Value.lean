/-!
# Values and tables

What a TOML document holds. A place in the text is given by the number of characters that follow it,
so that a reader needs to know the rest of the text only.

Tables remember how they came about, because that decides who may add to them later: a headed table
has a header of its own, an implicit table was named on the way to another header, a dotted table on
the way to a dotted key, and an inline table is complete as it stands.
-/

namespace Brainfuck.Toml

/-- A stretch of text. Both ends are counted from the end of the text. -/
structure Span where
  start : Nat
  stop : Nat
  deriving DecidableEq

structure Key where
  name : String
  span : Span
  deriving DecidableEq

inductive Floating where
  | finite (negative : Bool) (digits : Nat) (exponent : Int)
  | infinite (negative : Bool)
  | nan
  deriving DecidableEq

inductive Form where
  | headed
  | implicit
  | dotted
  | inline
  deriving DecidableEq

inductive Value where
  | string (s : String)
  | integer (n : Int)
  | floating (x : Floating)
  | boolean (b : Bool)
  /-- A date, a time or both. -/
  | moment
  | array (items : List (Span × Value))
  /-- An array of headed tables, the latest first. -/
  | tables (elements : List (List (Key × Span × Value)))
  | table (form : Form) (entries : List (Key × Span × Value))

abbrev Entries := List (Key × Span × Value)

namespace Entries

def find? (es : Entries) (k : Key) : Option (Span × Value) :=
  (List.find? (fun e => e.1.name == k.name) es).map Prod.snd

/-- Gives a new value to a key that is present. -/
def replace (es : Entries) (k : Key) (span : Span) (v : Value) : Entries :=
  es.map fun e => if e.1.name == k.name then (e.1, span, v) else e

/-- Changes the table that `path` leads to. Tables that are missing on the way are made with the
form `via`. A way that leads through an inline table or something that is no table is refused, and
a dotted key may not lead through a headed table. -/
def within (via : Form) (change : Form → Entries → Option Entries) :
    List Key → Form → Entries → Option Entries
  | [], form, es => change form es
  | k :: path, _, es =>
    match es.find? k with
    | none => do
      let inner ← within via change path via []
      return es ++ [(k, k.span, .table via inner)]
    | some (span, .table form inner) =>
      if form = .inline ∨ (via = .dotted ∧ form = .headed) then none
      else do
        let inner ← within via change path form inner
        return es.replace k span (.table form inner)
    | some (span, .tables (latest :: earlier)) => do
      let latest ← within via change path .headed latest
      return es.replace k span (.tables (latest :: earlier))
    | some _ => none

/-- Adds a value under a dotted key. A table is either filled by dotted keys from outside or by
plain keys from inside, and no key is set twice. -/
def insert (path : List Key) (k : Key) (span : Span) (v : Value) (form : Form) (es : Entries) :
    Option Entries :=
  within .dotted (fun form es =>
    if decide (form = .dotted) == path.isEmpty then none
    else if (es.find? k).isSome then none
    else some (es ++ [(k, span, v)])) path form es

/-- Opens the table `[path.k]`. -/
def openTable (path : List Key) (k : Key) (header : Span) (es : Entries) : Option Entries :=
  within .implicit (fun _ es =>
    match es.find? k with
    | none => some (es ++ [(k, header, .table .headed [])])
    | some (_, .table .implicit inner) => some (es.replace k header (.table .headed inner))
    | some _ => none) path .headed es

/-- Opens one more table of the array `[[path.k]]`. -/
def openElement (path : List Key) (k : Key) (header : Span) (es : Entries) : Option Entries :=
  within .implicit (fun _ es =>
    match es.find? k with
    | none => some (es ++ [(k, header, .tables [[]])])
    | some (span, .tables elements) =>
      some (es.replace k span (.tables ([] :: elements)))
    | some _ => none) path .headed es

end Entries

end Brainfuck.Toml
