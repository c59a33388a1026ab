import Brainfuck.Execution.Host
import Brainfuck.Execution.Table

/-!
# Runs

A run is a loop of turns. Each turn looks whether the code has ended, then at the controls, then
carries out one instruction, writes what the mode asks for, and steps past the instruction. So a
turn that is stopped by the controls or by a strict fault leaves the machine at the instruction it
was about to carry out, and a later run goes on from there.

The loop is bounded by fuel. A loop that runs out of fuel has no result yet, and its machine, host
state and step count are those after that many turns.
-/

namespace Brainfuck

/-- What a controlled run obeys besides the cancel flag of its host. -/
structure Control where
  budget : Option Nat := none
  deriving DecidableEq

/-- Where a loop stands. No result means that it has not ended. -/
structure Progress (σ : Type) where
  machine : Machine
  host : σ
  steps : Nat
  result : Option (Except Failure Unit)

/-- How a run went: the loop, and the flush after it. -/
structure Report (σ : Type) extends Progress σ where
  flushed : Except String Unit

namespace Control

variable {σ : Type}

/-- Whether a run that has completed `steps` instructions must stop. The flag is read before the
budget. -/
def halt? (control : Control) (host : Host σ) (s : σ) (steps : Nat) : σ × Option Failure :=
  match host.poll s with
  | (s, true) => (s, some .canceled)
  | (s, false) =>
    match control.budget with
    | some limit => (s, if limit ≤ steps then some (.stepLimit limit) else none)
    | none => (s, none)

end Control

namespace Machine

variable {σ : Type}

/-- Ends a turn after the instruction at `site`: passes on what it did and steps past it, unless it
was a fault or its output is refused. -/
@[noinline]
def settle (host : Host σ) (mode : Mode) (s : σ) (site : Site) :
    Machine × Except Fault Action → Machine × σ × Option (Except Failure Unit)
  | (m, .error cause) => (m, s, some (.error (.fault cause)))
  | (m, .ok action) =>
    let s :=
      match action with
      | .passedOver _ cause => host.passedOver s cause
      | _ => s
    match host.writeAll s (mode.pieces site action) with
    | (s, .error cause) => (m, s, some (.error (.io site.ip cause)))
    | (s, .ok ()) => (m.advance, s, none)

/-- Carries out the instruction `instr` at `m.pc` as number `step` of the run. -/
def perform (m : Machine) (host : Host σ) (mode : Mode) (s : σ) (step : Nat) (instr : Instr) :
    Machine × σ × Option (Except Failure Unit) :=
  settle host mode s { step, ip := m.pc, head := m.tape.head, cell := m.tape.cell, instr }
    (m.act instr)

/-- One turn of the loop. No result means that one instruction has been completed. -/
def turn (m : Machine) (host : Host σ) (mode : Mode) (control : Option Control) (s : σ)
    (steps : Nat) : Machine × σ × Option (Except Failure Unit) :=
  match m.code.instrs[m.pc]? with
  | none => (m, s, some (.ok ()))
  | some instr =>
    match control with
    | none => m.perform host mode s steps instr
    | some control =>
      match control.halt? host s steps with
      | (s, some failure) => (m, s, some (.error failure))
      | (s, none) => m.perform host mode s steps instr

def loop (host : Host σ) (mode : Mode) (control : Option Control) :
    Nat → Machine → σ → Nat → Progress σ
  | 0, machine, s, steps => { machine, host := s, steps, result := none }
  | fuel + 1, machine, s, steps =>
    match machine.turn host mode control s steps with
    | (machine, s, some result) => { machine, host := s, steps, result := some result }
    | (machine, s, none) => loop host mode control fuel machine s (steps + 1)

end Machine

namespace Progress

variable {σ : Type}

/-- The flush that follows every loop, whatever its result. A loop without a result is not followed
by anything. -/
def close (p : Progress σ) (host : Host σ) : Report σ :=
  match p.result with
  | none => { p with flushed := .ok () }
  | some _ =>
    let (s, flushed) := host.flush p.host
    { p with host := s, flushed }

end Progress

namespace Report

variable {σ : Type}

/-- The result of the whole run. A refused flush is reported only if nothing else went wrong. -/
def outcome (r : Report σ) : Option (Except Failure Unit) :=
  match r.result, r.flushed with
  | some (.ok ()), .error cause => some (.error (.io r.machine.pc cause))
  | result, _ => result

end Report

namespace Machine

variable {σ : Type}

/-- Writes the header and starts the loop. -/
def start (m : Machine) (host : Host σ) (mode : Mode) (control : Option Control) (fuel : Nat)
    (s : σ) : Progress σ :=
  match host.writeAll s mode.header with
  | (s, .error cause) =>
    { machine := m, host := s, steps := 0, result := some (.error (.io 0 cause)) }
  | (s, .ok ()) => loop host mode control fuel m s 0

/-- A run from the state that the machine is in. -/
def run (m : Machine) (host : Host σ) (mode : Mode) (control : Option Control) (fuel : Nat)
    (s : σ) : Report σ :=
  (m.start host mode control fuel s).close host

end Machine

end Brainfuck
