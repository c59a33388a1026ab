import Brainfuck.Command.Invocation

/-!
# The program

Gathers what an invocation needs from the system, carries it out, and passes its outcome on. A run
proceeds in slices: between two of them its output goes out and the clock is looked at.
-/

namespace Brainfuck.Main

/-- The words for a failed operation of the system. -/
def cause : IO.Error → String
  | .permissionDenied _ code details => words code details
  | .inappropriateType _ code details => words code details
  | .resourceExhausted _ code details => words code details
  | .resourceVanished code details => words code details
  | .invalidArgument _ code details => words code details
  | .otherError code details => words code details
  | e => toString e
where
  words (code : UInt32) (details : String) : String :=
    details ++ " (os error " ++ toString code ++ ")"

def lookupFile (path : String) : IO Lookup := do
  try
    return .contents (← IO.FS.readBinFile path).toList
  catch e =>
    match e with
    | .noFileOrDirectory _ _ _ => return FileTree.notFound
    | .inappropriateType _ 20 _ => return .absent (cause e)
    | e => return .unreadable (cause e)

partial def readAll (input : IO.FS.Stream) (sofar : ByteArray) : IO ByteArray := do
  let more ← input.read 65536
  if more.isEmpty then return sofar else readAll input (sofar ++ more)

/-- The names of the variables that matter. -/
def variableNames : List String :=
  ["BF_CONFIG", "XDG_CONFIG_HOME", "HOME", "RUST_LOG"] ++ Variable.all.map Variable.name

def readVariables : IO (List (String × List UInt8)) :=
  variableNames.filterMapM fun name => do
    return (← IO.getEnv name).map fun value => (name, Text.bytes value)

/-- The files that a request names. -/
def namedFiles : Request → List String
  | .usage _ => []
  | .run r => r.file.toList ++ r.inputFile.toList
  | .check r => r.file.toList

/-- The part of the world that the arguments ask for. -/
def gather (args : List String) : IO World := do
  let env ← readVariables
  let bare : World :=
    { args := args.map Text.bytes
      environment := fun name => (env.find? fun v => v.1 == name).map Prod.snd
      lookup := fun _ => FileTree.notFound }
  let named :=
    match bare.request with
    | .ok request => namedFiles request
    | .error _ => []
  let settingsFile := (bare.settingsPath?.bind Text.ofBytes?).toList
  let files ← (named ++ settingsFile).mapM fun path => do
    return (Text.bytes path, ← lookupFile path)
  let stdin ←
    if named.contains "-" then readAll (← IO.getStdin) ByteArray.empty else pure ByteArray.empty
  return { bare with
    lookup := fun path => ((files.find? fun f => f.1 == path).map Prod.snd).getD FileTree.notFound
    stdin := stdin.toList }

/-- Passes on what a console has sent. -/
def passOn (c : Console) : IO (Console × Except String Unit) := do
  let passed ←
    try
      unless c.sent.isEmpty do
        let out ← IO.getStdout
        out.write ⟨c.sent⟩
        out.flush
      pure (.ok ())
    catch e => pure (.error (cause e))
  return ({ c with sent := #[] }, passed)

/-- How many turns go by between two looks at the clock. -/
def slice : Nat := 100000

/-- The last output of a run that has ended. -/
def finish (p : Prepared) (program : String) (expired : Bool) (progress : Progress Console) :
    IO Outcome := do
  let report := progress.close (Console.hostAt expired)
  let (host, passed) ← passOn report.host
  let flushed := match passed with | .ok () => report.flushed | .error cause => .error cause
  return (p.conclude program expired { report with host, flushed }).getD { status := 1 }

/-- Continues a run until it ends. `expired` says whether its time is up. -/
partial def proceed (p : Prepared) (program : String) (began : Nat) (expired : Bool)
    (progress : Progress Console) : IO Outcome := do
  if progress.result.isSome then finish p program expired progress
  else
    match ← passOn progress.host with
    | (host, .error cause) =>
      let failure := Failure.io progress.machine.pc cause
      finish p program expired { progress with host, result := some (.error failure) }
    | (host, .ok ()) =>
      let elapsed := (← IO.monoMsNow) - began
      let expired := p.settings.timeoutMs.any (· ≤ elapsed)
      proceed p program began expired
        (Machine.loop (Console.hostAt expired) p.mode (some p.control) slice progress.machine host
          progress.steps)

def outcome (w : World) : IO Outcome := do
  match w.request with
  | .ok (.run r) =>
    if r.help || !World.hasCode r.file r.code then return (w.run 0 r).getD { status := 1 }
    else
      match w.prepare r with
      | .error outcome => return outcome
      | .ok p =>
        proceed p w.program (← IO.monoMsNow) false
          (p.machine.start (Console.hostAt false) p.mode (some p.control) 0 {})
  | _ => return (w.invoke 0).getD { status := 1 }

end Brainfuck.Main

def main (args : List String) : IO UInt32 := do
  let world ← Brainfuck.Main.gather args
  let outcome ← Brainfuck.Main.outcome world
  unless outcome.stdout.isEmpty do
    let out ← IO.getStdout
    out.write ⟨outcome.stdout.toArray⟩
    out.flush
  IO.eprint (world.errorText outcome)
  return outcome.status.toUInt32
