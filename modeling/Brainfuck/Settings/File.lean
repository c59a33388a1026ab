import Brainfuck.Decimal.Shortest
import Brainfuck.Settings.Basic
import Brainfuck.Text.Quoted
import Brainfuck.Toml.Document
import Brainfuck.Toml.Frame

/-!
# The settings file

A TOML document as a layer of settings. Keys that are no settings are left alone, except that no
number anywhere may be out of all range. Keys are looked at in alphabetical order, and the first
mistake found is the one that is reported.
-/

namespace Brainfuck

open Toml (Span Value Floating Key Entries)

/-- What is wrong with a file. Some mistakes are reported without words. -/
inductive FileFault where
  | silent
  | worded (span : Span) (complaint : String)
  deriving DecidableEq

namespace FileFault

/-- The report about a file with the given text, if there are words for it. -/
def report? (text : String) : FileFault → Option String
  | .silent => none
  | .worded span complaint => some (Toml.frame text span complaint)

end FileFault

/-! ## Numbers in range -/

/-- The width that an integer needs. -/
inductive IntegerWidth where
  | signed64
  | unsigned64
  | signed128
  | unsigned128
  deriving DecidableEq

/-- Whether `n` is a number in two's complement of `bits + 1` bits. -/
def isSigned (bits : Nat) (n : Int) : Bool :=
  -(Nat.pow 2 bits : Int) ≤ n && n < (Nat.pow 2 bits : Int)

/-- Whether `n` is a number of `bits` bits without a sign. -/
def isUnsigned (bits : Nat) (n : Int) : Bool :=
  0 ≤ n && n < (Nat.pow 2 bits : Int)

def integerWidth? (n : Int) : Option IntegerWidth :=
  if isSigned 63 n then some .signed64
  else if isUnsigned 64 n then some .unsigned64
  else if isSigned 127 n then some .signed128
  else if isUnsigned 128 n then some .unsigned128
  else none

/-- A number with a fraction or an exponent as it is shown. A finite spelling that is too large for
a floating point number has no text. -/
def floatingText? : Floating → Option String
  | .nan => some "NaN"
  | .infinite negative => some (if negative then "-inf" else "inf")
  | .finite negative digits exponent =>
    (Binary64.ofDecimal? digits exponent).map fun x =>
      (if negative then "-" else "") ++ x.shortest.positional

mutual

/-- Whether all numbers in a value are in range. -/
def isInRange : Value → Bool
  | .integer n => (integerWidth? n).isSome
  | .floating r => (floatingText? r).isSome
  | .array items => areInRange items
  | .tables elements => tablesInRange elements
  | .table _ entries => entriesInRange entries
  | _ => true

def areInRange : List (Span × Value) → Bool
  | [] => true
  | (_, v) :: items => isInRange v && areInRange items

def entriesInRange : List (Key × Span × Value) → Bool
  | [] => true
  | (_, _, v) :: entries => isInRange v && entriesInRange entries

def tablesInRange : List (List (Key × Span × Value)) → Bool
  | [] => true
  | entries :: tables => entriesInRange entries && tablesInRange tables

end

/-! ## Fields -/

/-- An unsigned number of 64 bits. `kind` is what the field calls such a number. -/
def wordField (kind : String) (span : Span) (v : Value) : Except FileFault Nat :=
  let mistake (complaint : String) : Except FileFault Nat :=
    .error (.worded span (complaint ++ ", expected " ++ kind))
  let wrongType (what : String) : Except FileFault Nat := mistake ("invalid type: " ++ what)
  match v with
  | .integer n =>
    match integerWidth? n with
    | none => .error .silent
    | some .unsigned64 => .ok n.toNat
    | some .signed64 =>
      if 0 ≤ n then .ok n.toNat else mistake ("invalid value: integer `" ++ toString n ++ "`")
    | some .signed128 => wrongType ("integer `" ++ toString n ++ "` as i128")
    | some .unsigned128 => wrongType ("integer `" ++ toString n ++ "` as u128")
  | .floating r =>
    match floatingText? r with
    | none => .error .silent
    | some text => wrongType ("floating point `" ++ text ++ "`")
  | .string s => wrongType ("string " ++ Text.quoted s)
  | .boolean b => wrongType ("boolean `" ++ (if b then "true" else "false") ++ "`")
  | .moment => wrongType "map"
  | .table _ _ => wrongType "map"
  | .array _ => wrongType "sequence"
  | .tables _ => wrongType "sequence"

/-- One of two words, written as a string or as the only key of a table that holds nothing. -/
def wordChoice {α : Type} (ofWord? : String → Option α) (first second : String) (span : Span)
    (v : Value) : Except FileFault α :=
  let choose (span : Span) (word : String) : Except FileFault α :=
    match ofWord? word with
    | some a => .ok a
    | none =>
      .error (.worded span
        ("unknown variant `" ++ word ++ "`, expected `" ++ first ++ "` or `" ++ second ++ "`"))
  match v with
  | .string s => choose span s
  | .table _ [(key, _, inner)] =>
    match choose key.span key.name, inner with
    | .error fault, _ => .error fault
    | .ok a, .table _ [] => .ok a
    | .ok a, .array [] => .ok a
    | .ok _, _ => .error .silent
  | _ => .error .silent

namespace Layer

/-- Adds what one entry of a file says. -/
def addEntry (l : Layer) : Key × Span × Value → Except FileFault Layer
  | (key, span, v) =>
    match key.name with
    | "tape_size" => do return { l with tapeSize := some (← wordField "usize" span v) }
    | "policy" => do
      return { l with policy := some (← wordChoice Policy.ofWord? "strict" "permissive" span v) }
    | "input_mode" => do
      return { l with feedMode := some (← wordChoice FeedMode.ofWord? "tokens" "stream" span v) }
    | "timeout_ms" => do return { l with timeoutMs := some (← wordField "u64" span v) }
    | "max_steps" => do return { l with maxSteps := some (← wordField "u64" span v) }
    | _ => if isInRange v then .ok l else .error .silent

/-- The layer that the text of a settings file gives. -/
def ofFile (text : String) : Except FileFault Layer :=
  match Toml.document? text with
  | none => .error .silent
  | some entries =>
    (entries.mergeSort fun a b => decide (a.1.name ≤ b.1.name)).foldlM addEntry {}

end Layer

/-! ## Errors -/

/-- Why there are no settings. -/
inductive SettingsError where
  | unreadable (path cause : String)
  | malformed (path : String) (report : Option String)
  | noTape
  deriving DecidableEq

namespace SettingsError

def message : SettingsError → String
  | .unreadable path cause => "failed to read config file " ++ path ++ ": " ++ cause
  | .malformed path none => "failed to parse config file " ++ path
  | .malformed path (some report) => "failed to parse config file " ++ path ++ ": " ++ report
  | .noTape => "tape_size must be > 0"

/-- Whether there are words for what is wrong with the contents of a file. -/
def isWorded : SettingsError → Bool
  | .malformed _ report => report.isSome
  | _ => true

end SettingsError

/-- Reads the text of a settings file. A mistake comes with its report, if there is one. -/
def Layer.readFile (text : String) : Except (Option String) Layer :=
  match Layer.ofFile text with
  | .ok layer => .ok layer
  | .error fault => .error (fault.report? text)

/-- The layer of a file that is called `path` in messages. -/
def Layer.ofNamedFile (path text : String)
    (read : String → Except (Option String) Layer := Layer.readFile) :
    Except SettingsError Layer :=
  match read text with
  | .ok layer => .ok layer
  | .error report => .error (.malformed path report)

/-- Settings for a tape without cells are refused. -/
def Settings.validate (s : Settings) : Except SettingsError Unit :=
  if s.tapeSize = 0 then .error .noTape else .ok ()

end Brainfuck
