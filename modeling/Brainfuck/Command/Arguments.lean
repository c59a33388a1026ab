import Brainfuck.Command.Option
import Brainfuck.Settings.Basic
import Brainfuck.Text.Utf8

/-!
# Arguments

Arguments are bytes, and are read from the left. Before the command only general options may stand.
After it come options, and then the code: the first argument that is no option, and everything after
it. An argument that looks like an option but is none is code as well, unless the option before it
still waits for its value. Two dashes end the options.

An option whose value is an argument of its own is settled only when the next option, the code or
the end is reached. So what is wrong with its value may be reported after a later fault.
-/

namespace Brainfuck

abbrev Argument := List UInt8

namespace Argument

def dash : UInt8 := 0x2D

def equals : UInt8 := 0x3D

/-- How an argument looks. -/
inductive Shape where
  | separator
  /-- Two dashes, a name, and perhaps a value after an equals sign. -/
  | long (name : List UInt8) (value : Option (List UInt8))
  /-- A dash and single letters. -/
  | cluster (letters : List UInt8)
  | plain

def shape : Argument → Shape
  | [0x2D, 0x2D] => .separator
  | 0x2D :: 0x2D :: rest =>
    let name := rest.takeWhile (· != equals)
    match rest.dropWhile (· != equals) with
    | [] => .long name none
    | _ :: value => .long name (some value)
  | 0x2D :: b :: rest => .cluster (b :: rest)
  | _ => .plain

end Argument

/-- What has been read of the arguments of a command. -/
structure Reading where
  /-- Options that are settled, in order, with their values as text. -/
  settled : List (Opt × String) := []
  /-- An option that takes a value, and the value if it has come. -/
  waiting : Option (Opt × Option Argument) := none
  /-- Whether everything that follows is code. -/
  isCode : Bool := false
  code : List Argument := []

namespace Reading

def has (r : Reading) (o : Opt) : Bool :=
  r.settled.any fun s => s.1 = o

/-- Adds an option that takes no value. -/
def addFlag (r : Reading) (o : Opt) : Except ArgumentError Reading :=
  if r.has o then .error (.repeated o) else .ok { r with settled := r.settled ++ [(o, "")] }

/-- Adds an option with its value. -/
def addValue (r : Reading) (o : Opt) (value : Argument) : Except ArgumentError Reading :=
  if r.has o then .error (.repeated o)
  else
    match Text.ofBytes? value with
    | none => .error .notText
    | some text =>
      let ok := .ok { r with settled := r.settled ++ [(o, text)] }
      if o.isNumeric then
        match Text.numeral text with
        | .ok _ => ok
        | .error fault => .error (.invalidValue text o fault)
      else ok

/-- Settles the option that waits, if there is one. -/
def settle (r : Reading) : Except ArgumentError Reading :=
  match r.waiting with
  | none => .ok r
  | some (o, none) => .error (.missingValue o)
  | some (o, some value) => { r with waiting := none }.addValue o value

/-- Takes an argument as the value that is waited for, or else as code. -/
def takePlain (r : Reading) (a : Argument) : Except ArgumentError Reading :=
  match r.waiting with
  | some (o, none) => .ok { r with waiting := some (o, some a) }
  | _ => do
    let r ← r.settle
    return { r with isCode := true, code := r.code ++ [a] }

/-- Takes an option without an attached value. -/
def takeOption (r : Reading) (o : Opt) : Except ArgumentError Reading := do
  let r ← r.settle
  if o.takesValue then return { r with waiting := some (o, none) } else r.addFlag o

def takeLong (r : Reading) (opts : List Opt) (a name : Argument) (value : Option Argument) :
    Except ArgumentError Reading :=
  match Text.ofBytes? name with
  | none => .error (.unexpected ("--" ++ Text.ofBytesLossy name))
  | some text =>
    match Opt.findLong? opts text, value with
    | none, _ => r.takePlain a
    | some o, none => r.takeOption o
    | some o, some value =>
      if o.takesValue then do
        let r ← r.settle
        r.addValue o value
      else .error (.surplusValue (Text.ofBytesLossy value) o)

/-- Takes a cluster of letters that are all options. The first that takes a value takes the rest of
the cluster, if there is any. -/
def takeLetters (r : Reading) : List (Opt × Char) → Except ArgumentError Reading
  | [] => .ok r
  | (o, _) :: rest =>
    if o.takesValue && !rest.isEmpty then do
      let r ← r.settle
      r.addValue o (Text.bytes (String.ofList (rest.map Prod.snd)))
    else do
      let r ← r.takeOption o
      r.takeLetters rest

def takeCluster (r : Reading) (opts : List Opt) (a letters : Argument) :
    Except ArgumentError Reading :=
  let options? : Option (List (Opt × Char)) := do
    let text ← Text.ofBytes? letters
    text.toList.mapM fun c => (Opt.findShort? opts c).map fun o => (o, c)
  match options? with
  | some options => r.takeLetters options
  | none => r.takePlain a

/-- Takes one more argument. -/
def take (opts : List Opt) (r : Reading) (a : Argument) : Except ArgumentError Reading :=
  if r.isCode then do
    let r ← r.settle
    return { r with code := r.code ++ [a] }
  else
    match a.shape with
    | .separator => .ok { r with isCode := true }
    | .long name value => r.takeLong opts a name value
    | .cluster letters => r.takeCluster opts a letters
    | .plain => r.takePlain a

/-- What the settled options and the code come to. -/
structure Result where
  settled : List (Opt × String)
  code : List String

namespace Result

def has (r : Result) (o : Opt) : Bool :=
  r.settled.any fun s => s.1 = o

def value? (r : Result) (o : Opt) : Option String :=
  (r.settled.find? fun s => s.1 = o).map Prod.snd

def number? (r : Result) (o : Opt) : Option Nat :=
  (r.value? o).bind Text.numeral?

end Result

/-- The first two options that cannot be used together. -/
def conflict? (settled : List (Opt × String)) : Option (Opt × Opt) :=
  match (settled.map Prod.fst).filter fun o => o = .input ∨ o = .inputFile with
  | first :: second :: _ => some (first, second)
  | _ => none

def finish (r : Reading) : Except ArgumentError Result := do
  let r ← r.settle
  match r.code.mapM Text.ofBytes? with
  | none => .error .notText
  | some code =>
    match conflict? r.settled with
    | some (first, second) => .error (.conflict first second)
    | none => .ok { settled := r.settled, code }

/-- Reads the arguments after a command. -/
def parse (opts : List Opt) (args : List Argument) : Except ArgumentError Result := do
  let r ← args.foldlM (take opts) {}
  r.finish

end Reading

/-! ## Commands -/

/-- What the arguments of `run` ask for. -/
structure RunRequest where
  help : Bool := false
  table : Bool := false
  file : Option String := none
  code : List String := []
  input : Option String := none
  inputFile : Option String := none
  flags : Layer := {}

def RunRequest.ofResult (r : Reading.Result) : RunRequest where
  help := r.has .help
  table := r.has .debug
  file := r.value? .file
  code := r.code
  input := r.value? .input
  inputFile := r.value? .inputFile
  flags :=
    { tapeSize := r.number? .tapeSize
      policy := if r.has .permissive then some .permissive else none
      feedMode := if r.has .stream then some .stream else none
      timeoutMs := r.number? .timeout
      maxSteps := r.number? .maxSteps }

/-- What the arguments of `check` ask for. -/
structure CheckRequest where
  help : Bool := false
  file : Option String := none
  code : List String := []

def CheckRequest.ofResult (r : Reading.Result) : CheckRequest where
  help := r.has .help
  file := r.value? .file
  code := r.code

inductive Request where
  | usage (asked : Bool)
  | run (r : RunRequest)
  | check (r : CheckRequest)

namespace Request

/-- The request of a command, unless help was asked for before it. -/
def ofCommand (help : Bool) (r : Request) : Request :=
  if help then .usage true else r

def runName : Argument := Text.bytes "run"

def checkName : Argument := Text.bytes "check"

/-- The general options among the letters of a cluster, given as characters and as bytes. -/
def generalLetters (help : Bool) : List (Option Char) → List UInt8 → Except ArgumentError Bool
  | [], _ => .ok help
  | some 'h' :: rest, bs =>
    if help then .error (.repeated .help) else generalLetters true rest (bs.drop 1)
  | some c :: _, _ => .error (.unexpected ("-" ++ c.toString))
  | none :: _, bs => .error (.unexpected ("-" ++ Text.ofBytesLossy bs))

/-- Reads all arguments. `help` says whether help has been asked for already, `ended` whether the
options have ended. -/
def parseFrom (help ended : Bool) : List Argument → Except ArgumentError Request
  | [] => .ok (.usage help)
  | a :: args =>
    if ended then
      if a = runName ∨ a = checkName then .error (.unexpected (Text.ofBytesLossy a))
      else .error (.unknownCommand (Text.ofBytesLossy a))
    else if a = runName then do
      let result ← Reading.parse Opt.ofRun args
      return ofCommand help (.run (RunRequest.ofResult result))
    else if a = checkName then do
      let result ← Reading.parse Opt.ofCheck args
      return ofCommand help (.check (CheckRequest.ofResult result))
    else
      match a.shape with
      | .separator => parseFrom help true args
      | .long name value =>
        if name = Text.bytes "help" then
          match value with
          | some value => .error (.surplusValue (Text.ofBytesLossy value) .help)
          | none => if help then .error (.repeated .help) else parseFrom true false args
        else .error (.unexpected ("--" ++ Text.ofBytesLossy name))
      | .cluster letters => do
        let help ← generalLetters help (Text.Utf8.units none letters) letters
        parseFrom help false args
      | .plain => .error (.unknownCommand (Text.ofBytesLossy a))

def parse (args : List Argument) : Except ArgumentError Request :=
  parseFrom false false args

end Request

end Brainfuck
