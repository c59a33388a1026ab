import Brainfuck.Execution.State
import Brainfuck.Text.Numeral

/-!
# Settings

What the command line needs to know beyond code and input. Settings come in layers (a file, the
environment, flags): a layer says something about some of the fields and nothing about the others,
and a later layer has precedence over an earlier one, field by field.
-/

namespace Brainfuck

/-- The word that a setting is compared with: blanks trimmed, ASCII letters in lower case. -/
def normalWord (s : String) : String :=
  String.ofList ((Text.trim s.toList).map Char.toLower)

def Policy.ofWord? : String → Option Policy
  | "strict" => some .strict
  | "permissive" => some .permissive
  | _ => none

def FeedMode.ofWord? : String → Option FeedMode
  | "tokens" => some .words
  | "stream" => some .stream
  | _ => none

def Policy.parse (s : String) : Except String Policy :=
  match Policy.ofWord? (normalWord s) with
  | some p => .ok p
  | none => .error ("unknown policy '" ++ normalWord s ++ "' (expected strict|permissive)")

def FeedMode.parse (s : String) : Except String FeedMode :=
  match FeedMode.ofWord? (normalWord s) with
  | some m => .ok m
  | none => .error ("unknown input mode '" ++ normalWord s ++ "' (expected tokens|stream)")

structure Settings where
  tapeSize : Nat := 30000
  policy : Policy := .strict
  feedMode : FeedMode := .words
  timeoutMs : Option Nat := none
  maxSteps : Option Nat := none
  deriving DecidableEq

/-- What one source of settings has to say. -/
structure Layer where
  tapeSize : Option Nat := none
  policy : Option Policy := none
  feedMode : Option FeedMode := none
  timeoutMs : Option Nat := none
  maxSteps : Option Nat := none
  deriving DecidableEq

namespace Settings

/-- Settings with a layer on top of them. -/
def override (s : Settings) (l : Layer) : Settings where
  tapeSize := l.tapeSize.getD s.tapeSize
  policy := l.policy.getD s.policy
  feedMode := l.feedMode.getD s.feedMode
  timeoutMs := l.timeoutMs <|> s.timeoutMs
  maxSteps := l.maxSteps <|> s.maxSteps

def machineConfig (s : Settings) : MachineConfig where
  tapeSize := s.tapeSize
  policy := s.policy
  feedMode := s.feedMode

end Settings

/-! ## The environment as a layer -/

/-- The variables that carry settings, in the order in which they are looked at. -/
inductive Variable where
  | tapeSize
  | policy
  | feedMode
  | timeoutMs
  | maxSteps
  deriving DecidableEq

namespace Variable

def all : List Variable := [.tapeSize, .policy, .feedMode, .timeoutMs, .maxSteps]

def name : Variable → String
  | .tapeSize => "BF_TAPE_SIZE"
  | .policy => "BF_POLICY"
  | .feedMode => "BF_INPUT_MODE"
  | .timeoutMs => "BF_TIMEOUT_MS"
  | .maxSteps => "BF_MAX_STEPS"

/-- Whether a value of the variable says anything. -/
def isReadable (v : Variable) (raw : String) : Bool :=
  match v with
  | .tapeSize | .timeoutMs | .maxSteps => (Text.numeral? raw).isSome
  | .policy => (Policy.parse raw).isOk
  | .feedMode => (FeedMode.parse raw).isOk

/-- The values that are set but cannot be read. -/
def unreadable (lookup : String → Option String) : List (Variable × String) :=
  all.filterMap fun v =>
    match lookup v.name with
    | some raw => if v.isReadable raw then none else some (v, raw)
    | none => none

end Variable

namespace Layer

/-- The layer of the environment. A value that cannot be read says nothing. -/
def ofEnvironment (lookup : String → Option String) : Layer where
  tapeSize := (lookup Variable.tapeSize.name).bind Text.numeral?
  policy := (lookup Variable.policy.name).bind fun raw => (Policy.parse raw).toOption
  feedMode := (lookup Variable.feedMode.name).bind fun raw => (FeedMode.parse raw).toOption
  timeoutMs := (lookup Variable.timeoutMs.name).bind Text.numeral?
  maxSteps := (lookup Variable.maxSteps.name).bind Text.numeral?

end Layer

end Brainfuck
