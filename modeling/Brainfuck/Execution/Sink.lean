import Brainfuck.Execution.Host

/-!
# Sinks

A sink that keeps what it is given and follows a script: it takes a limited number of bytes, refuses
flushes, or raises the cancel flag once it has taken enough. The empty script takes everything.
-/

namespace Brainfuck

structure SinkScript where
  /-- How many bytes are taken. A write beyond that is taken in part and refused. -/
  capacity : Option Nat := none
  refusal : String := "failed to write whole buffer"
  flushRefusal : Option String := none
  /-- After a write, the flag is raised if at least this many bytes have been taken. -/
  cancelAfter : Option Nat := none

structure Sink where
  taken : Array UInt8 := #[]
  flushes : Nat := 0
  canceled : Bool := false

namespace Sink

/-- Takes bytes and raises the flag if that is due. -/
def take (script : SinkScript) (s : Sink) (bs : List UInt8) : Sink :=
  let { taken, flushes, canceled } := s
  let taken := taken ++ bs
  { taken, flushes, canceled := canceled || script.cancelAfter.any (· ≤ taken.size) }

def write (script : SinkScript) (s : Sink) (bs : List UInt8) : Sink × Except String Unit :=
  match script.capacity with
  | none => (s.take script bs, .ok ())
  | some capacity =>
    let room := capacity - s.taken.size
    if bs.length ≤ room then (s.take script bs, .ok ())
    else if room = 0 then (s, .error script.refusal)
    else (s.take script (bs.take room), .error script.refusal)

def flush (script : SinkScript) (s : Sink) : Sink × Except String Unit :=
  let s := { s with flushes := s.flushes + 1 }
  match script.flushRefusal with
  | none => (s, .ok ())
  | some cause => (s, .error cause)

def host (script : SinkScript) : Host Sink where
  write := write script
  flush := flush script
  poll s := (s, s.canceled)
  passedOver s _ := s

end Sink

end Brainfuck
