import Brainfuck.Text.Numeral

/-!
# Options

The options of the commands: how they are spelled, and what they take.
-/

namespace Brainfuck

inductive Opt where
  | debug
  | file
  | input
  | inputFile
  | tapeSize
  | permissive
  | stream
  | timeout
  | maxSteps
  | help
  deriving DecidableEq

namespace Opt

def long : Opt → String
  | .debug => "debug"
  | .file => "file"
  | .input => "input"
  | .inputFile => "input-file"
  | .tapeSize => "tape-size"
  | .permissive => "permissive"
  | .stream => "stream"
  | .timeout => "timeout"
  | .maxSteps => "max-steps"
  | .help => "help"

def short? : Opt → Option Char
  | .debug => some 'd'
  | .file => some 'f'
  | .input => some 'i'
  | .help => some 'h'
  | _ => none

/-- The name of the value, for an option that takes one. -/
def valueName? : Opt → Option String
  | .file => some "FILE"
  | .input => some "TEXT"
  | .inputFile => some "PATH"
  | .tapeSize => some "N"
  | .timeout => some "MS"
  | .maxSteps => some "N"
  | _ => none

def takesValue (o : Opt) : Bool :=
  o.valueName?.isSome

def isNumeric : Opt → Bool
  | .tapeSize | .timeout | .maxSteps => true
  | _ => false

/-- The option as messages show it. -/
def label (o : Opt) : String :=
  match o.valueName? with
  | some name => "--" ++ o.long ++ " <" ++ name ++ ">"
  | none => "--" ++ o.long

/-- Options of the program itself, before a command. -/
def general : List Opt := [.help]

def ofRun : List Opt :=
  [.debug, .file, .input, .inputFile, .tapeSize, .permissive, .stream, .timeout, .maxSteps, .help]

def ofCheck : List Opt := [.file, .help]

def findLong? (opts : List Opt) (name : String) : Option Opt :=
  opts.find? fun o => o.long == name

def findShort? (opts : List Opt) (c : Char) : Option Opt :=
  opts.find? fun o => o.short? == some c

end Opt

/-- What is wrong with the arguments. -/
inductive ArgumentError where
  | unknownCommand (text : String)
  | unexpected (text : String)
  | missingValue (o : Opt)
  | repeated (o : Opt)
  | conflict (first second : Opt)
  | surplusValue (value : String) (o : Opt)
  | invalidValue (value : String) (o : Opt) (fault : Text.NumeralFault)
  | notText
  deriving DecidableEq

def ArgumentError.message : ArgumentError → String
  | .unknownCommand text => "unrecognized subcommand '" ++ text ++ "'"
  | .unexpected text => "unexpected argument '" ++ text ++ "' found"
  | .missingValue o => "a value is required for '" ++ o.label ++ "' but none was supplied"
  | .repeated o => "the argument '" ++ o.label ++ "' cannot be used multiple times"
  | .conflict first second =>
    "the argument '" ++ first.label ++ "' cannot be used with '" ++ second.label ++ "'"
  | .surplusValue value o =>
    "unexpected value '" ++ value ++ "' for '" ++ o.label ++ "' found; no more were expected"
  | .invalidValue value o fault =>
    "invalid value '" ++ value ++ "' for '" ++ o.label ++ "': " ++ fault.message
  | .notText => "invalid UTF-8 was detected in one or more arguments"

end Brainfuck
