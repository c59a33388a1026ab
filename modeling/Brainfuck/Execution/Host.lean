import Brainfuck.Failure

/-!
# Hosts

What a run needs of its surroundings: a place for its bytes, a cancel flag, and someone to tell of
the faults that a permissive machine passes over. A host is given by its operations on a state; the
state comes back from every operation, also from one that is refused.
-/

namespace Brainfuck

structure Host (σ : Type) where
  /-- Takes bytes over, or refuses with the words of the device. -/
  write : σ → List UInt8 → σ × Except String Unit
  flush : σ → σ × Except String Unit
  /-- Reads the cancel flag. -/
  poll : σ → σ × Bool
  passedOver : σ → Fault → σ

namespace Host

variable {σ : Type}

/-- Writes piece after piece, up to the first that is refused. -/
def writeAll (host : Host σ) (s : σ) : List (List UInt8) → σ × Except String Unit
  | [] => (s, .ok ())
  | piece :: pieces =>
    match host.write s piece with
    | (s, .error cause) => (s, .error cause)
    | (s, .ok ()) => host.writeAll s pieces

end Host

end Brainfuck
