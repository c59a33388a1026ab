import Brainfuck.Failure
import Brainfuck.Settings.Basic
import Brainfuck.Text.Quoted

/-!
# Log

Events on the way of a command, and the filter that decides which of them are shown. A filter names
the least important level that is shown, and may be limited to targets that start with a given text.
-/

namespace Brainfuck

inductive Level where
  | error
  | warn
  | info
  | debug
  | trace
  deriving DecidableEq

namespace Level

/-- Higher ranks are less important. -/
def rank : Level → Nat
  | .error => 1
  | .warn => 2
  | .info => 3
  | .debug => 4
  | .trace => 5

def label : Level → String
  | .error => "ERROR"
  | .warn => " WARN"
  | .info => " INFO"
  | .debug => "DEBUG"
  | .trace => "TRACE"

/-- The rank that a word stands for. -/
def rankOfWord? (word : String) : Option Nat :=
  match word.map Char.toLower with
  | "off" => some 0
  | "error" => some Level.error.rank
  | "warn" => some Level.warn.rank
  | "info" => some Level.info.rank
  | "debug" => some Level.debug.rank
  | "trace" => some Level.trace.rank
  | _ => none

end Level

/-- The parts of the program that log. -/
inductive Target where
  | settings
  | machine
  | run
  deriving DecidableEq

def Target.name : Target → String
  | .settings => "bf_tape::config"
  | .machine => "bf_tape::machine"
  | .run => "bf_tape::commands::run"

structure LogFilter where
  target : String := ""
  maxRank : Nat

namespace LogFilter

def standard : LogFilter := { maxRank := Level.warn.rank }

/-- Reads a level, or a target and a level with an equals sign between them. -/
def ofText (text : String) : LogFilter :=
  match Level.rankOfWord? text with
  | some maxRank => { maxRank }
  | none =>
    let cs := text.toList
    let target := String.ofList (cs.takeWhile (· != '='))
    match cs.dropWhile (· != '=') with
    | [] =>
      { target, maxRank := if cs.isEmpty then Level.error.rank else Level.trace.rank }
    | _ :: word =>
      match Level.rankOfWord? (String.ofList word) with
      | some maxRank => { target, maxRank }
      | none => standard

end LogFilter

/-- Something worth a line, with named details. -/
structure Event where
  level : Level
  target : Target
  message : String
  details : List (String × String) := []

namespace Event

def passes (e : Event) (f : LogFilter) : Bool :=
  e.level.rank ≤ f.maxRank && f.target.toList.isPrefixOf e.target.name.toList

def line (e : Event) : String :=
  e.level.label ++ " " ++ e.target.name ++ ": " ++ e.message ++
    String.join (e.details.map fun (name, value) => " " ++ name ++ "=" ++ value) ++ "\n"

end Event

/-- The lines that a filter lets through. -/
def logText (f : LogFilter) (events : List Event) : String :=
  String.join ((events.filter (·.passes f)).map Event.line)

/-! ## Values in events -/

def Policy.label : Policy → String
  | .strict => "Strict"
  | .permissive => "Permissive"

def FeedMode.label : FeedMode → String
  | .words => "Tokens"
  | .stream => "Stream"

def optionLabel : Option Nat → String
  | none => "None"
  | some n => "Some(" ++ toString n ++ ")"

def Settings.label (s : Settings) : String :=
  "Settings \x7b tape_size: " ++ toString s.tapeSize ++ ", policy: " ++ s.policy.label ++
    ", input_mode: " ++ s.feedMode.label ++ ", timeout_ms: " ++ optionLabel s.timeoutMs ++
    ", max_steps: " ++ optionLabel s.maxSteps ++ " \x7d"

/-! ## The events -/

namespace Event

def noFile (path : String) : Event where
  level := .debug
  target := .settings
  message := "no config file; using defaults"
  details := [("path", path)]

def fileLoaded (path : String) (s : Settings) : Event where
  level := .debug
  target := .settings
  message := "loaded config file"
  details := [("path", path), ("settings", s.label)]

def unreadableVariable (v : Variable) (raw : String) : Event where
  level := .warn
  target := .settings
  message := "ignoring unparsable environment value"
  details := [("key", Text.quoted v.name), ("value", raw)]

def loaded (m : Machine) : Event where
  level := .debug
  target := .machine
  message := "program loaded"
  details := [("instructions", toString m.code.size), ("input_bytes", toString m.feed.size),
    ("tape_size", toString m.tape.size), ("policy", m.policy.label)]

def started (s : Settings) : Event where
  level := .info
  target := .run
  message := "starting run"
  details := [("settings", s.label)]

def passedOver (f : Fault) : Event where
  level := .debug
  target := .machine
  message := "ignored under permissive policy"
  details := [("err", f.message)]

/-- How the loop of a run ended. -/
def ended (m : Machine) : Except Failure Unit → Event
  | .ok () =>
    { level := .debug, target := .machine, message := "program finished",
      details := [("pointer", toString m.tape.head)] }
  | .error f =>
    { level := .debug, target := .machine, message := "program aborted",
      details := [("ip", toString m.pc), ("err", f.message)] }

end Event

end Brainfuck
