import Brainfuck.Command.Invocation
import Brainfuck.Proofs.Command.Console
import Brainfuck.Proofs.Execution.Transcript

/-!
# The threads of a run

A run has a worker, which carries out the code, and a main thread, which waits for its result.  They
share a cancel flag and a channel.  The main thread raises the flag when the timeout passes while it
waits, and an interrupt raises it from a thread of its own.  A step is a move of one of them, in any
order.  What the worker does on its own is made of the pieces of `Machine.run`: the header, the
check and the instruction of a turn, and the flush.
-/

namespace Brainfuck

open Machine

namespace Console

theorem accepting_hostAt (raised : Bool) : (hostAt raised).Accepting Console.written :=
  Console.accepting_host rfl _

theorem poll_hostAt (raised : Bool) (c : Console) :
    (hostAt raised).poll c = ({ c with checks := c.checks + 1 }, raised) := by
  cases raised <;> rfl

theorem halt?_hostAt (raised : Bool) (control : Control) (c : Console) (i : Nat) :
    control.halt? (hostAt raised) c i =
      ({ c with checks := c.checks + 1 },
        Control.verdict (fun _ => raised) i (some control)) := by
  have hask := Host.ask_some (hostAt raised) control c i
  rwa [poll_hostAt] at hask

section Alarm

variable (alarm : Option Nat) (raised : Bool) (mode : Mode)

theorem writeAll_hostAt (c : Console) (pieces : List (List UInt8)) :
    (hostAt raised).writeAll c pieces = (Console.host {} alarm).writeAll c pieces := by
  induction pieces generalizing c with
  | nil => rfl
  | cons piece pieces ih =>
      have hwrite : (hostAt raised).write c piece = (Console.host {} alarm).write c piece := rfl
      rw [Host.writeAll, Host.writeAll, hwrite]
      rcases (Console.host {} alarm).write c piece with ⟨c', _ | ⟨⟩⟩
      · rfl
      · exact ih c'

theorem perform_hostAt (m : Machine) (c : Console) (i : Nat) (instr : Instr) :
    m.perform (hostAt raised) mode c i instr =
      m.perform (Console.host {} alarm) mode c i instr := by
  rcases hact : m.act instr with ⟨after, cause | action⟩
  · rw [perform, perform, hact, settle, settle]
  · have htell : (hostAt raised).tell c action = (Console.host {} alarm).tell c action := by
      cases action <;> rfl
    rw [perform_eq_writeAll _ _ _ _ hact, perform_eq_writeAll _ _ _ _ hact, htell,
      writeAll_hostAt alarm]

theorem close_hostAt (progress : Progress Console) :
    progress.close (hostAt raised) = progress.close (Console.host {} alarm) := rfl

/-- A turn reads the flag once, so all it needs to know is whether it is up right then. -/
theorem turn_hostAt (control : Control) (m : Machine) (c : Console) (i : Nat) :
    m.turn (hostAt (Console.isRaised alarm c.checks)) mode (some control) c i =
      m.turn (Console.host {} alarm) mode (some control) c i := by
  cases hinstr : m.code.instrs[m.pc]? with
  | none => rw [turn, turn, hinstr]
  | some instr =>
      have hask : (hostAt (Console.isRaised alarm c.checks)).ask (some control) c i =
          (Console.host {} alarm).ask (some control) c i := by
        rw [Host.ask_some, Host.ask_some, poll_hostAt]
        rfl
      rw [turn_eq_ask hinstr, turn_eq_ask hinstr, hask]
      rcases (Console.host {} alarm).ask (some control) c i with ⟨c', _ | failure⟩
      · exact perform_hostAt alarm _ mode m c' i instr
      · rfl

end Alarm

end Console

/-- How far the worker is: before the header, before a check, between a check and its instruction,
before the flush, before it sends the result, and after that. -/
inductive Worker where
  | opening
  | looking (m : Machine) (steps : Nat)
  | carrying (m : Machine) (steps : Nat) (instr : Instr)
  | closing (m : Machine) (steps : Nat) (result : Except Failure Unit)
  | reporting (result : Except Failure Unit)
  | leaving
  | gone

namespace Worker

def work (p : Prepared) (raised : Bool) (c : Console) : Worker → Option (Worker × Console)
  | .opening =>
    match (Console.hostAt raised).writeAll c p.mode.header with
    | (c, .error cause) => some (.closing p.machine 0 (.error (.io 0 cause)), c)
    | (c, .ok ()) => some (.looking p.machine 0, c)
  | .looking m steps =>
    match m.code.instrs[m.pc]? with
    | none => some (.closing m steps (.ok ()), c)
    | some instr =>
      match p.control.halt? (Console.hostAt raised) c steps with
      | (c, some failure) => some (.closing m steps (.error failure), c)
      | (c, none) => some (.carrying m steps instr, c)
  | .carrying m steps instr =>
    match m.perform (Console.hostAt raised) p.mode c steps instr with
    | (m, c, some result) => some (.closing m steps result, c)
    | (m, c, none) => some (.looking m (steps + 1), c)
  | .closing machine steps result =>
    let progress : Progress Console := { machine, host := c, steps, result := some result }
    let report := progress.close (Console.hostAt raised)
    report.outcome.map fun result => (.reporting result, report.host)
  | _ => none

/-- A check and the instruction after it are a turn of the loop. -/
theorem work_looking_cases (p : Prepared) (raised : Bool) (c : Console) (m : Machine)
    (steps : Nat) :
    (∃ c' result, work p raised c (.looking m steps) = some (.closing m steps result, c') ∧
      m.turn (Console.hostAt raised) p.mode (some p.control) c steps = (m, c', some result)) ∨
    ∃ c' instr, work p raised c (.looking m steps) = some (.carrying m steps instr, c') ∧
      m.turn (Console.hostAt raised) p.mode (some p.control) c steps =
        m.perform (Console.hostAt raised) p.mode c' steps instr := by
  cases hinstr : m.code.instrs[m.pc]? with
  | none => exact .inl ⟨c, .ok (), by rw [work, hinstr], by rw [turn, hinstr]⟩
  | some instr =>
      rcases hhalt : p.control.halt? (Console.hostAt raised) c steps with ⟨c', _ | failure⟩
      · exact .inr ⟨c', instr, by simp only [work, hinstr, hhalt],
          by simp only [turn, hinstr, hhalt]⟩
      · exact .inl ⟨c', .error failure, by simp only [work, hinstr, hhalt],
          by simp only [turn, hinstr, hhalt]⟩

def turned (m : Machine) (steps : Nat) : Option (Except Failure Unit) → Worker
  | some result => .closing m steps result
  | none => .looking m (steps + 1)

theorem work_carrying (p : Prepared) (raised : Bool) (c : Console) (m : Machine) (steps : Nat)
    (instr : Instr) {turn : Machine × Console × Option (Except Failure Unit)}
    (h : m.perform (Console.hostAt raised) p.mode c steps instr = turn) :
    work p raised c (.carrying m steps instr) = some (turned turn.1 steps turn.2.2, turn.2.1) := by
  obtain ⟨m', c', _ | result⟩ := turn <;> simp only [work, h, turned]

theorem work_closing (p : Prepared) (raised : Bool) {progress : Progress Console}
    {result : Except Failure Unit} (h : progress.result = some result) :
    work p raised progress.host (.closing progress.machine progress.steps result) =
      (progress.close (Console.hostAt raised)).outcome.map fun result =>
        (.reporting result, (progress.close (Console.hostAt raised)).host) := by
  obtain ⟨machine, host, steps, _⟩ := progress
  obtain rfl := h
  rfl

end Worker

/-- Where the main thread is: it waits until the timeout, is about to raise the flag after it, waits
as long as it takes, or has received what it has received. -/
inductive Waiter where
  | timing
  | raising
  | blocking (expired : Bool)
  | finished (expired : Bool) (received : Option (Except Failure Unit))

namespace Waiter

def expired : Waiter → Bool
  | timing => false
  | raising => true
  | blocking expired => expired
  | finished expired _ => expired

def isWaiting : Waiter → Bool
  | timing => true
  | blocking _ => true
  | _ => false

end Waiter

structure Threads where
  worker : Worker := .opening
  console : Console := {}
  /-- The results that have been sent and not yet received, the oldest first. -/
  channel : List (Except Failure Unit) := []
  main : Waiter
  /-- The cancel flag. -/
  flag : Bool := false
  /-- Whether the user has interrupted. -/
  interrupted : Bool := false

inductive Move where
  | worked (raised : Bool)
  | sent (result : Except Failure Unit)
  | left
  | interrupted
  | handled
  | expired
  | raised
  | received (result : Except Failure Unit)
  | disconnected

namespace Move

def sent? : Move → Option (Except Failure Unit)
  | sent result => some result
  | _ => none

def received? : Move → Option (Except Failure Unit)
  | received result => some result
  | _ => none

end Move

namespace Prepared

def threads (p : Prepared) : Threads where
  main := if p.settings.timeoutMs.isSome then .timing else .blocking false

theorem main_threads (p : Prepared) :
    p.threads.main.isWaiting = true ∧ p.threads.main.expired = false := by
  rw [threads]
  split <;> exact ⟨rfl, rfl⟩

def exit (p : Prepared) (program : String) (expired : Bool) :
    Option (Except Failure Unit) → Nat × String
  | some (.ok ()) => (0, "")
  | some (.error failure) => (1, p.complain program expired failure)
  | none => (1, if expired then p.complain program true .canceled else "")

theorem conclude_eq_exit (p : Prepared) (program : String) (expired : Bool)
    {report : Report Console} {outcome : Except Failure Unit}
    (houtcome : report.outcome = some outcome) :
    p.conclude program expired report =
      some
        { status := (p.exit program expired (some outcome)).1
          stdout := report.host.sent.toList
          log := p.log ++ report.host.passedOver.toList.map Event.passedOver ++
            report.result.toList.map (Event.ended report.machine)
          message := (p.exit program expired (some outcome)).2 } := by
  cases hresult : report.result with
  | none =>
      simp only [Report.outcome, hresult] at houtcome
      cases houtcome
  | some result => cases outcome <;> simp [conclude, hresult, houtcome, exit]

end Prepared

namespace Threads

/-- One move of one thread.  The worker may read a flag that is up as one that is still down, and
the timeout may pass although there is a result to receive. -/
inductive Step (p : Prepared) : Threads → Move → Threads → Prop where
  | worked {s : Threads} {raised : Bool} {worker : Worker} {console : Console} :
      (raised = true → s.flag = true) →
      s.worker.work p raised s.console = some (worker, console) →
      Step p s (.worked raised) { s with worker, console }
  | sent {s : Threads} {result : Except Failure Unit} :
      s.worker = .reporting result →
      Step p s (.sent result) { s with worker := .leaving, channel := s.channel ++ [result] }
  | left {s : Threads} :
      s.worker = .leaving → Step p s .left { s with worker := .gone }
  | interrupted (s : Threads) : Step p s .interrupted { s with interrupted := true }
  | handled {s : Threads} :
      s.interrupted = true → Step p s .handled { s with flag := true }
  | expired {s : Threads} :
      s.main = .timing → Step p s .expired { s with main := .raising }
  | raised {s : Threads} :
      s.main = .raising → Step p s .raised { s with flag := true, main := .blocking true }
  | received {s : Threads} {result : Except Failure Unit} {rest : List (Except Failure Unit)} :
      s.main.isWaiting = true → s.channel = result :: rest →
      Step p s (.received result)
        { s with channel := rest, main := .finished s.main.expired (some result) }
  | disconnected {s : Threads} :
      s.main.isWaiting = true → s.channel = [] → s.worker = .gone →
      Step p s .disconnected { s with main := .finished s.main.expired none }

inductive Run (p : Prepared) : List Move → Threads → Prop where
  | start : Run p [] p.threads
  | step {moves : List Move} {s s' : Threads} {move : Move} :
      Run p moves s → Step p s move s' → Run p (moves ++ [move]) s'

end Threads

end Brainfuck
