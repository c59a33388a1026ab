import Brainfuck.Proofs.Execution.Steps

/-!
# Turns under controls

What the controls of a run say at its check number `i` is a verdict, and neither the sink nor the
mode has a part in it.  `Machine.turn_inv` is everything that a turn can do: it is concluded, by
the end of the code, a fault or the verdict; what it writes is refused; or it is completed.
`Machine.turn_cases` says the same of a turn whose verdict is known.
-/

namespace Brainfuck

variable {σ : Type}

structure Host.Tallies (host : Host σ) (written : σ → List UInt8) : Prop where
  flush : ∀ s, written (host.flush s).1 = written s
  poll : ∀ s, written (host.poll s).1 = written s
  passedOver : ∀ s cause, written (host.passedOver s cause) = written s

/-- A sink that takes a single byte over or refuses it, and hands over nothing of its own. -/
structure Host.Honest (host : Host σ) (written : σ → List UInt8) : Prop
    extends host.Tallies written where
  take : ∀ {s s' b}, host.write s [b] = (s', .ok ()) → written s' = written s ++ [b]
  refuse : ∀ {s s' b cause}, host.write s [b] = (s', .error cause) → written s' = written s

theorem Host.Accepting.honest {host : Host σ} {written : σ → List UInt8}
    (h : host.Accepting written) : host.Honest written where
  flush s := by
    obtain ⟨s', hflush, hwritten⟩ := h.flush s
    rw [hflush, hwritten]
  poll := h.poll
  passedOver := h.passedOver
  take {s s' b} hwrite := by
    obtain ⟨s'', hwrite', hwritten⟩ := h.write s [b]
    rw [hwrite] at hwrite'
    obtain ⟨rfl, _⟩ := Prod.mk.inj hwrite'
    exact hwritten
  refuse {s s' b cause} hwrite := by
    obtain ⟨s'', hwrite', _⟩ := h.write s [b]
    rw [hwrite] at hwrite'
    cases hwrite'

theorem Sink.honest_host (script : SinkScript) :
    (Sink.host script).Honest fun s => s.taken.toList where
  flush s := by
    simp only [Sink.host, Sink.flush]
    split <;> rfl
  poll _ := rfl
  passedOver _ _ := rfl
  take {s s' b} hwrite := by
    simp only [Sink.host, Sink.write] at hwrite
    split at hwrite
    · obtain ⟨rfl, _⟩ := Prod.mk.inj hwrite
      simp [Sink.take]
    · split at hwrite
      · obtain ⟨rfl, _⟩ := Prod.mk.inj hwrite
        simp [Sink.take]
      · split at hwrite <;> cases hwrite
  refuse {s s' b cause} hwrite := by
    simp only [Sink.host, Sink.write] at hwrite
    split at hwrite
    · cases hwrite
    · next capacity _ =>
        split at hwrite
        · cases hwrite
        · next hroom =>
            have hfull : capacity - s.taken.size = 0 := by
              simp only [List.length_singleton] at hroom
              omega
            rw [if_pos hfull] at hwrite
            obtain ⟨rfl, _⟩ := Prod.mk.inj hwrite
            rfl

/-! ## Verdicts -/

/-- What the controls say before instruction number `i`, if the flag reads as `schedule` says. -/
def Control.verdict (schedule : Nat → Bool) (i : Nat) : Option Control → Option Failure
  | none => none
  | some control =>
    if schedule i then some .canceled
    else control.budget.bind fun limit => if limit ≤ i then some (.stepLimit limit) else none

theorem Control.verdict_eq_some {schedule : Nat → Bool} {i : Nat} {control : Option Control}
    {failure : Failure} (h : Control.verdict schedule i control = some failure) :
    failure = .canceled ∨ ∃ limit, failure = .stepLimit limit := by
  cases control with
  | none => cases h
  | some control =>
      simp only [Control.verdict] at h
      split at h
      · exact .inl (Option.some.inj h).symm
      · obtain ⟨limit, _, hlimit⟩ := Option.bind_eq_some_iff.1 h
        split at hlimit
        · exact .inr ⟨limit, (Option.some.inj hlimit).symm⟩
        · cases hlimit

theorem Control.verdict_ne_fault (schedule : Nat → Bool) (i : Nat) (control : Option Control)
    (cause : Fault) : Control.verdict schedule i control ≠ some (.fault cause) := by
  intro h
  rcases Control.verdict_eq_some h with hcanceled | ⟨limit, hlimit⟩
  · cases hcanceled
  · cases hlimit

theorem Control.verdict_zero_eq_none {schedule : Nat → Bool} {control : Option Control}
    (h : ∀ c, control = some c → schedule 0 = false ∧ c.budget ≠ some 0) :
    Control.verdict schedule 0 control = none := by
  cases control with
  | none => rfl
  | some control =>
      obtain ⟨hflag, hnonzero⟩ := h control rfl
      cases hlimit : control.budget with
      | none => simp [Control.verdict, hflag, hlimit]
      | some limit =>
          have hpos : limit ≠ 0 := by
            rintro rfl
            exact hnonzero hlimit
          simp [Control.verdict, hflag, hlimit, hpos]

def Host.ask (host : Host σ) (control : Option Control) (s : σ) (i : Nat) : σ × Option Failure :=
  match control with
  | none => (s, none)
  | some control => control.halt? host s i

theorem Host.ask_some (host : Host σ) (control : Control) (s : σ) (i : Nat) :
    host.ask (some control) s i =
      ((host.poll s).1, Control.verdict (fun _ => (host.poll s).2) i (some control)) := by
  rcases hpoll : host.poll s with ⟨s', flag⟩
  cases flag with
  | true => simp [Host.ask, Control.halt?, Control.verdict, hpoll]
  | false => cases hbudget : control.budget <;>
      simp [Host.ask, Control.halt?, Control.verdict, hpoll, hbudget]

theorem Host.ask_snd (host : Host σ) (control : Option Control) (s : σ) (i : Nat) :
    (host.ask control s i).2 = Control.verdict (fun _ => (host.poll s).2) i control := by
  cases control with
  | none => rfl
  | some control => rw [Host.ask_some]

theorem Host.Tallies.ask {host : Host σ} {written : σ → List UInt8} (h : host.Tallies written)
    (control : Option Control) (s : σ) (i : Nat) :
    written (host.ask control s i).1 = written s := by
  cases control with
  | none => rfl
  | some control =>
      rw [Host.ask_some]
      exact h.poll s

def Host.tell (host : Host σ) (s : σ) : Action → σ
  | .passedOver _ cause => host.passedOver s cause
  | _ => s

theorem Host.Tallies.tell {host : Host σ} {written : σ → List UInt8} (h : host.Tallies written)
    (s : σ) (action : Action) : written (host.tell s action) = written s := by
  cases action with
  | passedOver _ cause => exact h.passedOver s cause
  | _ => rfl

/-- The cancel flag reads as `schedule` says, from one check to the next.  `seen i s` says that the
state `s` comes before check number `i`. -/
structure Host.Scheduled (host : Host σ) (schedule : Nat → Bool) (seen : Nat → σ → Prop) :
    Prop where
  poll : ∀ {i s}, seen i s → (host.poll s).2 = schedule i ∧ seen (i + 1) (host.poll s).1
  write : ∀ {i s} bs, seen i s → seen i (host.write s bs).1
  passedOver : ∀ {i s} cause, seen i s → seen i (host.passedOver s cause)

structure Host.Checked (host : Host σ) (control : Option Control) (verdict : Nat → Option Failure)
    (seen : Nat → σ → Prop) : Prop where
  ask : ∀ {i s}, seen i s → ∃ s', host.ask control s i = (s', verdict i) ∧ seen (i + 1) s'
  write : ∀ {i s} bs, seen i s → seen i (host.write s bs).1
  passedOver : ∀ {i s} cause, seen i s → seen i (host.passedOver s cause)

namespace Host.Checked

variable {host : Host σ} {control : Option Control} {verdict : Nat → Option Failure}
  {seen : Nat → σ → Prop}

theorem free (host : Host σ) : host.Checked none (fun _ => none) fun _ _ => True where
  ask {_ s} _ := ⟨s, rfl, trivial⟩
  write _ _ := trivial
  passedOver _ _ := trivial

theorem of_scheduled {schedule : Nat → Bool} (h : host.Scheduled schedule seen)
    (control : Control) :
    host.Checked (some control) (fun i => Control.verdict schedule i (some control)) seen where
  ask {_ s} hseen := by
    obtain ⟨hpoll, hnext⟩ := h.poll hseen
    refine ⟨(host.poll s).1, ?_, hnext⟩
    rw [Host.ask_some, hpoll]
    rfl
  write := h.write
  passedOver := h.passedOver

theorem writeAll (h : host.Checked control verdict seen) {i : Nat} {s : σ} (hseen : seen i s)
    (pieces : List (List UInt8)) : seen i (host.writeAll s pieces).1 := by
  induction pieces generalizing s with
  | nil => exact hseen
  | cons piece pieces ih =>
      have hone := h.write piece hseen
      rw [Host.writeAll]
      rcases hwrite : host.write s piece with ⟨s', cause | ⟨⟩⟩
      · rwa [hwrite] at hone
      · rw [hwrite] at hone
        exact ih hone

theorem tell (h : host.Checked control verdict seen) {i : Nat} {s : σ} (hseen : seen i s)
    (action : Action) : seen i (host.tell s action) := by
  cases action with
  | passedOver _ cause => exact h.passedOver cause hseen
  | _ => exact hseen

end Host.Checked

/-! ## Turns -/

/-- The result with which a turn ends the loop before it has completed an instruction.  A verdict
comes before a fault, and after the end of the code. -/
def Next.conclude (verdict : Option Failure) : Next → Option (Except Failure Unit)
  | done => some (.ok ())
  | stuck cause => some (.error (verdict.getD (.fault cause)))
  | step _ _ => verdict.map .error

theorem Next.conclude_none (next : Next) : next.conclude none = next.result? := by
  cases next <;> rfl

theorem Next.of_conclude_some {next : Next} {failure : Failure} {result : Except Failure Unit}
    (h : next.conclude (some failure) = some result) :
    next = .done ∧ result = .ok () ∨ next ≠ .done ∧ result = .error failure := by
  cases next with
  | done => exact .inl ⟨rfl, (Option.some.inj h).symm⟩
  | stuck | step => exact .inr ⟨Next.noConfusion, (Option.some.inj h).symm⟩

theorem Next.eq_done_of_conclude {verdict : Option Failure} {next : Next}
    (h : next.conclude verdict = some (.ok ())) : next = .done := by
  cases next with
  | done => rfl
  | stuck cause => cases h
  | step bytes after => cases verdict <;> cases h

theorem Next.of_conclude_error {verdict : Option Failure} {next : Next} {failure : Failure}
    (h : next.conclude verdict = some (.error failure)) :
    verdict = some failure ∨ verdict = none ∧ ∃ cause, failure = .fault cause ∧
      next = .stuck cause := by
  cases verdict with
  | none =>
      cases next with
      | done | step => cases h
      | stuck cause => exact .inr ⟨rfl, cause, (Except.error.inj (Option.some.inj h)).symm, rfl⟩
  | some failure' =>
      rcases Next.of_conclude_some h with ⟨_, hok⟩ | ⟨_, hsame⟩
      · cases hok
      · rw [Except.error.inj hsame]
        exact .inl rfl

theorem Next.eq_none_of_conclude_fault {verdict : Option Failure} {next : Next} {cause : Fault}
    (h : next.conclude verdict = some (.error (.fault cause)))
    (hverdict : verdict ≠ some (.fault cause)) : verdict = none := by
  cases verdict with
  | none => rfl
  | some failure =>
      rcases Next.of_conclude_some h with ⟨_, hok⟩ | ⟨_, heq⟩
      · cases hok
      · rw [Except.error.inj heq] at hverdict
        exact absurd rfl hverdict

namespace Machine

variable {m after : Machine} {instr : Instr} {action : Action} {host : Host σ} {mode : Mode}
  {control : Option Control} {verdict : Nat → Option Failure} {seen : Nat → σ → Prop}
  {written : σ → List UInt8} {i : Nat} {s : σ}

def site (m : Machine) (step : Nat) (instr : Instr) : Site :=
  { step, ip := m.pc, head := m.tape.head, cell := m.tape.cell, instr }

theorem conclude_of_getElem? (h : m.code.instrs[m.pc]? = some instr) (failure : Failure) :
    m.next.conclude (some failure) = some (.error failure) := by
  cases hnext : m.next with
  | done =>
      rw [getElem?_eq_none_of_next_eq_done hnext] at h
      cases h
  | stuck cause => rfl
  | step bytes after => rfl

theorem turn_eq_ask (h : m.code.instrs[m.pc]? = some instr) :
    m.turn host mode control s i =
      match host.ask control s i with
      | (s', some failure) => (m, s', some (.error failure))
      | (s', none) => m.perform host mode s' i instr := by
  rw [turn, h]
  cases control with
  | none => rfl
  | some control =>
      rcases hhalt : control.halt? host s i with ⟨s', _ | failure⟩ <;>
        simp only [Host.ask, hhalt]

/-- Carrying out an instruction that is no fault comes down to writing its pieces. -/
theorem perform_eq_writeAll (host : Host σ) (mode : Mode) (s : σ) (step : Nat)
    (hact : m.act instr = (after, .ok action)) :
    m.perform host mode s step instr =
      match host.writeAll (host.tell s action) (mode.pieces (m.site step instr) action) with
      | (s', .error cause) => (after, s', some (.error (.io m.pc cause)))
      | (s', .ok ()) => (after.advance, s', none) := by
  rw [perform, hact]
  cases action <;> rfl

inductive Turn (host : Host σ) (mode : Mode) (control : Option Control) (s : σ) (i : Nat)
    (m : Machine) : Machine × σ × Option (Except Failure Unit) → Prop where
  | concluded {result : Except Failure Unit} {s' : σ} :
      m.next.conclude (host.ask control s i).2 = some result →
      s' = s ∨ s' = (host.ask control s i).1 →
      Turn host mode control s i m (m, s', some result)
  | refused {instr : Instr} {after : Machine} {action : Action} {s' : σ} {cause : String} :
      (host.ask control s i).2 = none → m.code.instrs[m.pc]? = some instr →
      m.act instr = (after, .ok action) →
      host.writeAll (host.tell (host.ask control s i).1 action)
        (mode.pieces (m.site i instr) action) = (s', .error cause) →
      Turn host mode control s i m (after, s', some (.error (.io m.pc cause)))
  | completed {instr : Instr} {after : Machine} {action : Action} {s' : σ} :
      (host.ask control s i).2 = none → m.code.instrs[m.pc]? = some instr →
      m.act instr = (after, .ok action) →
      host.writeAll (host.tell (host.ask control s i).1 action)
        (mode.pieces (m.site i instr) action) = (s', .ok ()) →
      Turn host mode control s i m (after.advance, s', none)

theorem turn_inv (host : Host σ) (mode : Mode) (control : Option Control) (s : σ) (i : Nat)
    (m : Machine) : Turn host mode control s i m (m.turn host mode control s i) := by
  cases hinstr : m.code.instrs[m.pc]? with
  | none =>
      have hturn : m.turn host mode control s i = (m, s, some (.ok ())) := by
        rw [turn, hinstr]
      rw [hturn]
      exact .concluded (by rw [next_of_getElem?_eq_none hinstr]; rfl) (.inl rfl)
  | some instr =>
      rw [turn_eq_ask hinstr]
      rcases hask : host.ask control s i with ⟨s₁, _ | failure⟩
      · rcases hact : m.act instr with ⟨after, cause | action⟩
        · obtain ⟨rfl, _⟩ := of_act_eq_error hact
          have hperform : after.perform host mode s₁ i instr =
              (after, s₁, some (.error (.fault cause))) := by
            rw [perform, hact, settle]
          simp only [hperform]
          refine .concluded ?_ (.inr (by rw [hask]))
          rw [hask, next_of_act_eq_error hinstr hact]
          rfl
        · simp only [perform_eq_writeAll host mode s₁ i hact]
          have hnone : (host.ask control s i).2 = none := by rw [hask]
          have hstate : (host.ask control s i).1 = s₁ := by rw [hask]
          rcases hwrite : host.writeAll (host.tell s₁ action)
              (mode.pieces (m.site i instr) action) with ⟨s₂, cause | ⟨⟩⟩
          · exact .refused hnone hinstr hact (by rw [hstate, hwrite])
          · exact .completed hnone hinstr hact (by rw [hstate, hwrite])
      · exact .concluded (by rw [hask]; exact conclude_of_getElem? hinstr failure)
          (.inr (by rw [hask]))

inductive Turned (host : Host σ) (mode : Mode) (written : σ → List UInt8) (seen : Nat → σ → Prop)
    (verdict : Option Failure) (i : Nat) (m : Machine) (s : σ) :
    Machine × σ × Option (Except Failure Unit) → Prop where
  | concluded {result : Except Failure Unit} {s' : σ} :
      m.next.conclude verdict = some result → written s' = written s →
      Turned host mode written seen verdict i m s (m, s', some result)
  | refused {instr : Instr} {after : Machine} {action : Action} {s' s'' : σ} {cause : String} :
      verdict = none → m.code.instrs[m.pc]? = some instr → m.act instr = (after, .ok action) →
      written s' = written s →
      host.writeAll s' (mode.pieces (m.site i instr) action) = (s'', .error cause) →
      Turned host mode written seen verdict i m s (after, s'', some (.error (.io m.pc cause)))
  | completed {instr : Instr} {after : Machine} {action : Action} {s' s'' : σ} :
      verdict = none → m.code.instrs[m.pc]? = some instr → m.act instr = (after, .ok action) →
      written s' = written s →
      host.writeAll s' (mode.pieces (m.site i instr) action) = (s'', .ok ()) →
      seen (i + 1) s'' →
      Turned host mode written seen verdict i m s (after.advance, s'', none)

theorem turn_cases (hhost : host.Tallies written) (hchecked : host.Checked control verdict seen)
    (hseen : seen i s) (m : Machine) (mode : Mode) :
    Turned host mode written seen (verdict i) i m s (m.turn host mode control s i) := by
  obtain ⟨s₁, hask, hseen₁⟩ := hchecked.ask hseen
  have hsame : written s₁ = written s := by
    have h := hhost.ask control s i
    rwa [hask] at h
  have hturn := turn_inv host mode control s i m
  generalize m.turn host mode control s i = outcome at hturn ⊢
  cases hturn with
  | concluded hconclude hstate =>
      rw [hask] at hconclude hstate
      refine .concluded hconclude ?_
      rcases hstate with rfl | rfl
      · rfl
      · exact hsame
  | @refused _ _ action _ _ hverdict hinstr hact hwrite =>
      rw [hask] at hverdict hwrite
      exact .refused hverdict hinstr hact ((hhost.tell s₁ action).trans hsame) hwrite
  | @completed instr _ action _ hverdict hinstr hact hwrite =>
      rw [hask] at hverdict hwrite
      have hlast := hchecked.writeAll (hchecked.tell hseen₁ action)
        (mode.pieces (m.site i instr) action)
      rw [hwrite] at hlast
      exact .completed hverdict hinstr hact ((hhost.tell s₁ action).trans hsame) hwrite hlast

end Machine

end Brainfuck
