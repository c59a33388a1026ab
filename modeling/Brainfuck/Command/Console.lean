import Brainfuck.Execution.Host

/-!
# Console

The host of a run from the command line. Output goes through a buffer, which is sent on when the
next piece does not fit into what is left of it. The cancel flag is up from a given check on.
-/

namespace Brainfuck

def bufferSize : Nat := 8192

/-- Where sent bytes go: a device that takes them all, or one that refuses them. -/
structure Device where
  refusal : Option String := none

structure Console where
  buffer : Array UInt8 := #[]
  sent : Array UInt8 := #[]
  /-- How often the cancel flag has been read. -/
  checks : Nat := 0
  /-- The faults passed over, the latest last. -/
  passedOver : Array Fault := #[]

namespace Console

/-- Sends what is in the buffer. A refused buffer is kept. -/
def flush (device : Device) (c : Console) : Console × Except String Unit :=
  if c.buffer.isEmpty then (c, .ok ())
  else
    match device.refusal with
    | some cause => (c, .error cause)
    | none => ({ c with buffer := #[], sent := c.sent ++ c.buffer }, .ok ())

/-- Keeps a piece that fits into an empty buffer, and sends a larger one at once. -/
def keep (device : Device) (c : Console) (bs : List UInt8) : Console × Except String Unit :=
  if bs.length < bufferSize then
    let { buffer, sent, checks, passedOver } := c
    ({ buffer := buffer ++ bs, sent, checks, passedOver }, .ok ())
  else
    match device.refusal with
    | some cause => (c, .error cause)
    | none => ({ c with sent := c.sent ++ bs }, .ok ())

def write (device : Device) (c : Console) (bs : List UInt8) : Console × Except String Unit :=
  if bs.length ≤ bufferSize - c.buffer.size then c.keep device bs
  else
    match c.flush device with
    | (c, .error cause) => (c, .error cause)
    | (c, .ok ()) => c.keep device bs

def poll (alarm : Option Nat) (c : Console) : Console × Bool :=
  let checks := c.checks
  ({ c with checks := checks + 1 }, alarm.any (· ≤ checks))

/-- The flag is up from check number `alarm` on, counted from zero. -/
def host (device : Device) (alarm : Option Nat) : Host Console where
  write := write device
  flush := flush device
  poll := poll alarm
  passedOver c fault := { c with passedOver := c.passedOver.push fault }

/-- The host while the flag is up or down for good, with a device that takes everything. -/
def hostAt (raised : Bool) : Host Console :=
  host {} (if raised then some 0 else none)

end Console

end Brainfuck
