import Brainfuck.Command.Console
import Brainfuck.Command.Conventions
import Brainfuck.Command.Usage
import Brainfuck.Diagnostic
import Brainfuck.Execution.Run
import Brainfuck.Log

/-!
# Invocations

A call of the program as a function of what it is called with. A run is prepared, carried out and
concluded: preparing reads texts and settings and loads the machine, or comes to an outcome at once;
concluding turns the report of the run into an exit status and a message.
-/

namespace Brainfuck

/-- What a call of the program meets. -/
structure World where
  program : String := "bf"
  /-- The arguments after the name of the program. -/
  args : List Argument
  environment : String → Option (List UInt8)
  lookup : List UInt8 → Lookup
  stdin : List UInt8 := []
  stdout : Device := {}
  /-- After how many checks of the cancel flag a timeout of so many milliseconds has passed. -/
  expiry : Nat → Option Nat := fun _ => none
  /-- After how many checks of the cancel flag the user interrupts. -/
  interrupt : Option Nat := none
  conventions : Conventions := {}

/-- What a call of the program leaves behind. The message comes after the log. -/
structure Outcome where
  status : Nat
  stdout : List UInt8 := []
  log : List Event := []
  message : String := ""

namespace World

/-- A variable with a text as its value. -/
def text? (w : World) (name : String) : Option String :=
  (w.environment name).bind Text.ofBytes?

def logFilter (w : World) : LogFilter :=
  match w.text? "RUST_LOG" with
  | some text => LogFilter.ofText text
  | none => LogFilter.standard

/-! ## Texts -/

def notUtf8 : String := "stream did not contain valid UTF-8"

/-- The text of the file that `path` names. A dash names the standard input. -/
def readText (w : World) (path : String) : Except String String :=
  let decode (bs : List UInt8) : Except String String :=
    match Text.ofBytes? bs with
    | some text => .ok text
    | none => .error notUtf8
  if path = "-" then decode w.stdin
  else
    match w.lookup (Text.bytes path) with
    | .contents bs => decode bs
    | .absent cause => .error cause
    | .unreadable cause => .error cause

/-- The world after `path` has been read: the standard input is read only once. -/
def afterReading (w : World) (path : Option String) : World :=
  if path = some "-" then { w with stdin := [] } else w

/-- A message of the program about itself, on a line of its own. -/
def remark (w : World) (text : String) : String :=
  w.program ++ ": " ++ text ++ "\n"

def refuse (w : World) (status : Nat) (text : String) : Outcome :=
  { status, message := w.remark text }

/-- The code, from the parts given as arguments or from a file. -/
def readCode (w : World) (file : Option String) (parts : List String) : Except Outcome String :=
  match file with
  | none => .ok (String.join parts)
  | some path =>
    if parts.isEmpty then
      match w.readText path with
      | .ok text => .ok text
      | .error cause => .error (w.refuse 1 ("failed to read code file as UTF-8: " ++ cause))
    else .error (w.refuse 2 "cannot use positional code together with --file")

def readInput (w : World) (text file : Option String) : Except Outcome String :=
  match text, file with
  | some text, _ => .ok text
  | none, none => .ok ""
  | none, some path =>
    match w.readText path with
    | .ok text => .ok text
    | .error cause => .error (w.refuse 1 ("failed to read input file as UTF-8: " ++ cause))

/-! ## Settings -/

/-- Where the settings file is. -/
def settingsPath? (w : World) : Option (List UInt8) :=
  match w.environment "BF_CONFIG" with
  | some path => some path
  | none => (w.conventions.directory? w.environment).map fun dir => joinPath dir "bf.toml"

/-- The settings that the file gives on top of the defaults, and what is logged on the way. -/
def fileSettings (w : World) : List Event × Except SettingsError Settings :=
  match w.settingsPath? with
  | none => ([], .ok {})
  | some path =>
    let shown := Text.ofBytesLossy path
    match w.lookup path with
    | .absent _ => ([.noFile shown], .ok {})
    | .unreadable cause => ([], .error (.unreadable shown cause))
    | .contents bs =>
      match Text.ofBytes? bs with
      | none => ([], .error (.unreadable shown notUtf8))
      | some text =>
        match Layer.ofNamedFile shown text w.conventions.readLayer with
        | .error e => ([], .error e)
        | .ok layer =>
          let s := ({} : Settings).override layer
          ([.fileLoaded shown s], .ok s)

/-- The settings that hold: defaults, file, environment and flags, each over the one before. The
tape size is looked at before and after the flags. -/
def settings (w : World) (flags : Layer) : List Event × Except SettingsError Settings :=
  match w.fileSettings with
  | (log, .error e) => (log, .error e)
  | (log, .ok s) =>
    let log := log ++ (Variable.unreadable w.text?).map fun (v, raw) =>
      Event.unreadableVariable v raw
    let s := s.override (Layer.ofEnvironment w.text?)
    let result : Except SettingsError Settings := do
      s.validate
      let s := s.override flags
      s.validate
      return s
    (log, result)

end World

/-! ## Running -/

/-- A run that is ready to go. -/
structure Prepared where
  source : String
  settings : Settings
  machine : Machine
  mode : Mode
  log : List Event

namespace World

def prepare (w : World) (r : RunRequest) : Except Outcome Prepared := do
  let source ← w.readCode r.file r.code
  let input ← (w.afterReading r.file).readInput r.input r.inputFile
  match w.settings r.flags with
  | (log, .error e) => .error { w.refuse 2 e.message with log }
  | (log, .ok s) =>
    let shown (failure : Failure) : Outcome :=
      { status := 1, log, message := failure.render (some w.program) source }
    match checkBrackets source with
    | .error u => .error (shown (.unmatched u))
    | .ok () =>
      match Machine.load source input s.machineConfig with
      | .error failure => .error (shown failure)
      | .ok machine =>
        return { source, settings := s, machine
                 mode := if r.table then .table else .plain
                 log := log ++ [.loaded machine, .started s] }

end World

namespace Prepared

def control (p : Prepared) : Control :=
  { budget := p.settings.maxSteps }

/-- When the timeout passes. -/
def deadline (p : Prepared) (w : World) : Option Nat :=
  p.settings.timeoutMs.bind w.expiry

/-- When the cancel flag goes up. -/
def alarm (p : Prepared) (w : World) : Option Nat :=
  match p.deadline w, w.interrupt with
  | some d, some i => some (min d i)
  | some d, none => some d
  | none, interrupt => interrupt

/-- The message about a failed run. -/
def complain (p : Prepared) (program : String) (expired : Bool) : Failure → String
  | .canceled =>
    if expired then
      "Execution aborted: wall-clock timeout exceeded (" ++
        toString (p.settings.timeoutMs.getD 0) ++ " ms)\n"
    else Failure.canceled.message ++ "\n"
  | .stepLimit limit => (Failure.stepLimit limit).message ++ "\n"
  | failure => failure.render (some program) p.source

/-- The outcome of a run that has ended. `expired` says whether the timeout passed before that. -/
def conclude (p : Prepared) (program : String) (expired : Bool) (report : Report Console) :
    Option Outcome :=
  match report.result, report.outcome with
  | some result, some outcome =>
    let log := p.log ++ report.host.passedOver.toList.map Event.passedOver ++
      [.ended report.machine result]
    let stdout := report.host.sent.toList
    match outcome with
    | .ok () => some { status := 0, stdout, log }
    | .error failure =>
      some { status := 1, stdout, log, message := p.complain program expired failure }
  | _, _ => none

/-- Whether the timeout has passed after the given number of checks. -/
def isExpired (p : Prepared) (w : World) (checks : Nat) : Bool :=
  (p.deadline w).any (· < checks)

/-- Carries out a run. Without an outcome it has not ended within `fuel` turns. -/
def run (p : Prepared) (w : World) (fuel : Nat) : Option Outcome :=
  let report :=
    p.machine.run (Console.host w.stdout (p.alarm w)) p.mode (some p.control) fuel {}
  p.conclude w.program (p.isExpired w report.host.checks) report

end Prepared

namespace World

/-- Whether code was given at all. -/
def hasCode (file : Option String) (parts : List String) : Bool :=
  file.isSome || !parts.isEmpty

def run (w : World) (fuel : Nat) (r : RunRequest) : Option Outcome :=
  if r.help then some { status := 0, message := runUsageText w.program }
  else if !hasCode r.file r.code then some { status := 2, message := runUsageText w.program }
  else
    match w.prepare r with
    | .error outcome => some outcome
    | .ok p => p.run w fuel

def check (w : World) (r : CheckRequest) : Outcome :=
  if r.help then { status := 0, message := checkUsageText w.program }
  else if !hasCode r.file r.code then { status := 2, message := checkUsageText w.program }
  else
    match w.readCode r.file r.code with
    | .error outcome => outcome
    | .ok source =>
      match checkBrackets source with
      | .ok () =>
        let count := (Text.bytes (strip source)).length
        { status := 0, stdout := Text.bytes ("ok (" ++ toString count ++ " instructions)\n") }
      | .error u =>
        { status := 1, message := (Failure.unmatched u).render (some w.program) source }

/-- What the arguments ask for. -/
def request (w : World) : Except ArgumentError Request :=
  w.conventions.readArguments w.args

/-- Carries out a call of the program. -/
def invoke (w : World) (fuel : Nat) : Option Outcome :=
  match w.request with
  | .error e => some { status := 2, message := "error: " ++ e.message ++ "\n" }
  | .ok (.usage asked) =>
    some { status := if asked then 0 else 2, message := usageText w.program }
  | .ok (.run r) => w.run fuel r
  | .ok (.check r) => some (w.check r)

/-- What an outcome writes to the standard error stream. -/
def errorText (w : World) (o : Outcome) : String :=
  logText w.logFilter o.log ++ o.message

end World

end Brainfuck
