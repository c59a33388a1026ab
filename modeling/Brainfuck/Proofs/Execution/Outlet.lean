import Brainfuck.Proofs.Execution.Course
import Brainfuck.Proofs.Execution.Session

/-!
# Outlets

An outlet is the other end of a call: a host, the state in which the call finds it, and a count of
the bytes that its sink takes.  An open outlet takes everything; a scheduled one reads its cancel
flag from a schedule, check by check.  What a call does to its machine and hands over is its course.
-/

namespace Brainfuck

/-- A host at the start of a call, whose sink takes a byte over or refuses it. -/
structure Outlet where
  {σ : Type}
  host : Host σ
  written : σ → List UInt8
  start : σ
  honest : host.Honest written

structure OpenOutlet extends Outlet where
  accepting : host.Accepting written
  honest := accepting.honest

/-- An open outlet whose cancel flag reads as `schedule` says at one check of the call after the
other. -/
structure ScheduledOutlet (schedule : Nat → Bool) extends OpenOutlet where
  seen : Nat → σ → Prop
  scheduled : host.Scheduled schedule seen
  ready : seen 0 start

def Sink.outlet (script : SinkScript) : Outlet where
  host := Sink.host script
  written s := s.taken.toList
  start := {}
  honest := Sink.honest_host script

def Sink.openOutlet : OpenOutlet where
  host := Sink.host {}
  written s := s.taken.toList
  start := {}
  accepting := Sink.accepting_host rfl rfl

def ScheduledOutlet.counting (schedule : Nat → Bool) : ScheduledOutlet schedule where
  σ := Nat × List UInt8
  host := {
    write s bs := ((s.1, s.2 ++ bs), .ok ())
    flush s := (s, .ok ())
    poll s := ((s.1 + 1, s.2), schedule s.1)
    passedOver s _ := s }
  written := Prod.snd
  start := (0, [])
  accepting := {
    write s bs := ⟨(s.1, s.2 ++ bs), rfl, rfl⟩
    flush s := ⟨s, rfl, rfl⟩
    poll _ := rfl
    passedOver _ _ := rfl }
  seen i s := s.1 = i
  scheduled := {
    poll hseen := by
      subst hseen
      exact ⟨rfl, rfl⟩
    write _ hseen := hseen
    passedOver _ hseen := hseen }
  ready := rfl

namespace Outlet

def report (o : Outlet) (m : Machine) (mode : Mode) (control : Option Control) (fuel : Nat) :
    Report o.σ :=
  m.run o.host mode control fuel o.start

def output (o : Outlet) (r : Report o.σ) : List UInt8 :=
  (o.written r.host).drop (o.written o.start).length

theorem output_eq {o : Outlet} {r : Report o.σ} {bytes : List UInt8}
    (h : o.written r.host = o.written o.start ++ bytes) : o.output r = bytes := by
  rw [output, h, List.drop_left]

end Outlet

open Machine

theorem ScheduledOutlet.exists_checked {schedule : Nat → Bool} (o : ScheduledOutlet schedule)
    (control : Option Control) :
    ∃ seen, o.host.Checked control (fun i => Control.verdict schedule i control) seen ∧
      seen 0 o.start := by
  cases control with
  | none => exact ⟨_, .free o.host, trivial⟩
  | some control => exact ⟨o.seen, .of_scheduled o.scheduled control, o.ready⟩

theorem Outlet.course (o : Outlet) {control : Option Control} {verdict : Nat → Option Failure}
    {seen : Nat → o.σ → Prop} (hchecked : o.host.Checked control verdict seen)
    (hseen : seen 0 o.start) (m : Machine) (fuel : Nat) :
    Course o.host o.written verdict fuel 0 m o.start (o.report m .plain control fuel).summary
      (o.report m .plain control fuel).steps (o.output (o.report m .plain control fuel)) := by
  obtain ⟨n, bytes, hcourse⟩ := exists_course_run o.honest hchecked hseen m fuel
  have hcount : (o.report m .plain control fuel).steps = n := hcourse.count.trans (Nat.zero_add n)
  rw [hcount, o.output_eq (r := o.report m .plain control fuel) hcourse.written]
  exact hcourse

/-! ## Runs into open outlets -/

/-- A run into an open outlet is its header, its loop and nothing else. -/
theorem OpenOutlet.exists_report_eq_loop (o : OpenOutlet) (m : Machine) (mode : Mode)
    (control : Option Control) :
    ∃ s, o.host.writeAll o.start mode.header = (s, .ok ()) ∧
      o.written s = o.written o.start ++ mode.header.flatten ∧ ∀ fuel,
        (o.report m mode control fuel).outcome = (loop o.host mode control fuel m s 0).result ∧
        (o.report m mode control fuel).machine = (loop o.host mode control fuel m s 0).machine ∧
        (o.report m mode control fuel).steps = (loop o.host mode control fuel m s 0).steps ∧
        o.written (o.report m mode control fuel).host =
          o.written (loop o.host mode control fuel m s 0).host := by
  obtain ⟨s, hheader, hwritten⟩ := o.accepting.writeAll o.start mode.header
  refine ⟨s, hheader, hwritten, fun fuel => ?_⟩
  rw [Outlet.report, run, start, hheader, Progress.steps_close]
  obtain ⟨houtcome, hmachine, hclosed⟩ :=
    close_of_accepting o.accepting (loop o.host mode control fuel m s 0)
  exact ⟨houtcome, hmachine, rfl, hclosed⟩

/-! ## Uncontrolled runs -/

namespace OpenOutlet

variable {o : OpenOutlet} {m m' : Machine} {n fuel : Nat} {bytes : List UInt8}
  {result : Except Failure Unit}

theorem course_free (o : OpenOutlet) (m : Machine) (fuel : Nat) :
    Course o.host o.written (fun _ => none) fuel 0 m o.start
      (o.report m .plain none fuel).summary (o.report m .plain none fuel).steps
      (o.output (o.report m .plain none fuel)) :=
  o.toOutlet.course (.free o.host) trivial m fuel

theorem report_of_steps (o : OpenOutlet) (h : Steps n m bytes m') :
    (o.report m .plain none n).steps = n ∧ (o.report m .plain none n).machine = m' ∧
      o.output (o.report m .plain none n) = bytes := by
  have hcourse := o.course_free m n
  rcases hcourse.ending with ⟨hcount, _⟩ | ⟨hlt, result, hresult, _⟩
  · have hsteps := hcourse.steps
    rw [hcount] at hsteps
    obtain ⟨hmachine, hbytes⟩ := hsteps.unique h
    exact ⟨hcount, hmachine, hbytes⟩
  · have hconclude := (hcourse.of_result o.accepting hresult).2
    rw [Next.conclude_none] at hconclude
    obtain ⟨i, _, hn, _⟩ := h.rest_of_halted hcourse.steps ⟨result, hconclude⟩
    omega

theorem exists_steps_of_outcome
    (h : (o.report m .plain none fuel).outcome = some result) :
    ∃ n, n < fuel ∧
      Steps n m (o.output (o.report m .plain none fuel)) (o.report m .plain none fuel).machine ∧
      (o.report m .plain none fuel).machine.next.result? = some result := by
  obtain ⟨n, bytes, hlt, hsteps, hwritten, hresult⟩ :=
    Machine.exists_steps_of_outcome o.accepting h
  rw [o.output_eq (r := o.report m .plain none fuel) hwritten]
  exact ⟨n, hlt, hsteps, hresult⟩

theorem report_of_halted (o : OpenOutlet) (h : Steps n m bytes m')
    (hresult : m'.next.result? = some result) (hfuel : n < fuel) :
    (o.report m .plain none fuel).outcome = some result ∧
      (o.report m .plain none fuel).machine = m' ∧
      o.output (o.report m .plain none fuel) = bytes := by
  obtain ⟨houtcome, hmachine, hwritten⟩ := run_of_halted o.accepting h hresult hfuel o.start
  exact ⟨houtcome, hmachine, o.output_eq (r := o.report m .plain none fuel) hwritten⟩

theorem exists_outcome_iff :
    (∃ fuel, (o.report m .plain none fuel).outcome = some result) ↔
      ∃ n bytes m', Steps n m bytes m' ∧ m'.next.result? = some result := by
  constructor
  · rintro ⟨fuel, houtcome⟩
    obtain ⟨n, _, hsteps, hresult⟩ := o.exists_steps_of_outcome houtcome
    exact ⟨n, _, _, hsteps, hresult⟩
  · rintro ⟨n, bytes, m', hsteps, hresult⟩
    exact ⟨n + 1, (o.report_of_halted hsteps hresult (Nat.lt_succ_self n)).1⟩

/-- The uncontrolled run of `m` comes by `m'`, and has put out `bytes` by then. -/
def Passes (o : OpenOutlet) (m : Machine) (bytes : List UInt8) (m' : Machine) : Prop :=
  ∃ n, (o.report m .plain none n).steps = n ∧ (o.report m .plain none n).machine = m' ∧
    o.output (o.report m .plain none n) = bytes

theorem passes_of_steps (o : OpenOutlet) (h : Steps n m bytes m') : o.Passes m bytes m' :=
  ⟨n, o.report_of_steps h⟩

end OpenOutlet

/-! ## Sequences of plain calls -/

structure PlainCall extends Outlet where
  control : Option Control
  fuel : Nat

namespace PlainCall

def toCall (c : PlainCall) : Call where
  host := c.host
  mode := .plain
  control := c.control
  start := c.start
  fuel := c.fuel

def reportOn (c : PlainCall) (m : Machine) : Report c.σ :=
  c.report m .plain c.control c.fuel

def resultOn (c : PlainCall) (m : Machine) : Option (Except Failure Unit) :=
  (c.reportOn m).outcome

def outputOn (c : PlainCall) (m : Machine) : List UInt8 :=
  c.output (c.reportOn m)

end PlainCall

namespace Machine

/-- The machine that a sequence of plain calls leaves behind, whatever they return. -/
def afterPlain (m : Machine) (calls : List PlainCall) : Machine :=
  m.after (calls.map PlainCall.toCall)

def outputOf : Machine → List PlainCall → List UInt8
  | _, [] => []
  | m, call :: calls => call.outputOn m ++ (m.afterCall call.toCall).outputOf calls

theorem afterPlain_cons (m : Machine) (call : PlainCall) (calls : List PlainCall) :
    m.afterPlain (call :: calls) = (call.reportOn m).machine.afterPlain calls := rfl

theorem outputOf_cons (m : Machine) (call : PlainCall) (calls : List PlainCall) :
    m.outputOf (call :: calls) = call.outputOn m ++ (call.reportOn m).machine.outputOf calls := rfl

theorem afterPlain_append (m : Machine) (front back : List PlainCall) :
    m.afterPlain (front ++ back) = (m.afterPlain front).afterPlain back := by
  rw [afterPlain, List.map_append]
  exact List.foldl_append

theorem outputOf_append (m : Machine) (front back : List PlainCall) :
    m.outputOf (front ++ back) = m.outputOf front ++ (m.afterPlain front).outputOf back := by
  induction front generalizing m with
  | nil => rfl
  | cons call calls ih =>
      rw [List.cons_append, outputOf_cons, outputOf_cons, afterPlain_cons, ih, List.append_assoc]

theorem afterPlain_concat (m : Machine) (front : List PlainCall) (last : PlainCall) :
    m.afterPlain (front ++ [last]) = (last.reportOn (m.afterPlain front)).machine :=
  afterPlain_append m front [last]

theorem outputOf_concat (m : Machine) (front : List PlainCall) (last : PlainCall) :
    m.outputOf (front ++ [last]) = m.outputOf front ++ last.outputOn (m.afterPlain front) := by
  rw [outputOf_append, outputOf_cons, outputOf, List.append_nil]

end Machine

end Brainfuck
