import Brainfuck.Proofs.Execution.Transcript

/-!
# Calls that nobody interrupts

A call that has not been canceled might as well have had a flag that is never raised: until it ended
the flag was down at every check, or up only where the code had ended and nobody looked.  And a call
that has ended has ended for good, whatever more fuel there is.  A flag can only make a call end
earlier.
-/

namespace Brainfuck

open Machine

variable {schedule : Nat → Bool} {control : Option Control} {i : Nat}

theorem Control.verdict_down (h : Control.verdict schedule i control ≠ some .canceled) :
    Control.verdict (fun _ => false) i control = Control.verdict schedule i control := by
  cases control with
  | none => rfl
  | some control =>
      have hdown : schedule i = false := by
        apply Bool.eq_false_iff.2
        intro hup
        exact h (if_pos hup)
      simp only [Control.verdict, hdown]

theorem Control.verdict_down_of_eq_none (h : Control.verdict schedule i control = none) :
    Control.verdict (fun _ => false) i control = none := by
  have hdown : Control.verdict schedule i control ≠ some .canceled := by
    intro hcanceled
    cases h.symm.trans hcanceled
  exact (Control.verdict_down hdown).trans h

theorem Machine.Next.conclude_down {next : Next} {result : Except Failure Unit}
    (h : next.conclude (Control.verdict schedule i control) = some result)
    (hresult : result ≠ .error .canceled) :
    next.conclude (Control.verdict (fun _ => false) i control) = some result := by
  by_cases hcanceled : Control.verdict schedule i control = some .canceled
  · rw [hcanceled] at h
    -- The end of the code comes before the flag, so a flag that is up says nothing there.
    rcases Next.of_conclude_some h with ⟨rfl, rfl⟩ | ⟨_, rfl⟩
    · rfl
    · exact absurd rfl hresult
  · rwa [Control.verdict_down hcanceled]

namespace Machine.Reaches

variable {verdict : Nat → Option Failure} {fuel fuel' n k : Nat} {m m₁ m₂ : Machine}
  {result result' : Except Failure Unit}

theorem down (h : Reaches (fun j => Control.verdict schedule j control) fuel i m n m₁ (some result))
    (hresult : result ≠ .error .canceled) :
    Reaches (fun j => Control.verdict (fun _ => false) j control) fuel i m n m₁ (some result) where
  steps := h.steps
  free j hj := Control.verdict_down_of_eq_none (h.free j hj)
  ending := by
    rcases h.ending with ⟨_, hnone⟩ | ⟨hlt, r, hr, hconclude⟩
    · cases hnone
    · obtain rfl := Option.some.inj hr
      exact .inr ⟨hlt, _, rfl, Next.conclude_down hconclude hresult⟩

theorem raise (h : Reaches verdict fuel i m n m₁ (some result)) (hfuel : fuel ≤ fuel') :
    Reaches verdict fuel' i m n m₁ (some result) := by
  obtain ⟨bytes, hsteps⟩ := h.steps
  have hlt : n < fuel := by
    rcases h.ending with ⟨_, hnone⟩ | ⟨hlt, _⟩
    · cases hnone
    · exact hlt
  exact .of_conclude hsteps h.free (h.conclude_of_result rfl) (Nat.lt_of_lt_of_le hlt hfuel)

theorem agree (h : Reaches verdict fuel i m n m₁ (some result))
    (h' : Reaches verdict fuel' i m k m₂ (some result')) :
    n = k ∧ m₁ = m₂ ∧ result = result' := by
  have hraised := h.raise (Nat.le_max_left fuel fuel')
  have hraised' := h'.raise (Nat.le_max_right fuel fuel')
  obtain ⟨hcount, hmachine, hresult⟩ := hraised.unique hraised'
  exact ⟨hcount, hmachine, Option.some.inj hresult⟩

end Machine.Reaches

namespace ScheduledOutlet

variable {m : Machine} {mode : Mode} {fuel : Nat} {result : Except Failure Unit}

/-- A call that ends without being canceled returns the same, and has put out the same, as one whose
flag is never raised, into whatever outlet and with whatever fuel that one ends. -/
theorem report_of_ne_canceled (o : ScheduledOutlet schedule)
    (h : (o.report m mode control fuel).outcome = some result) (hresult : result ≠ .error .canceled)
    (o' : ScheduledOutlet fun _ => false) :
    (o'.report m mode control fuel).outcome = some result ∧
      ∀ k result', (o'.report m mode control k).outcome = some result' →
        result' = result ∧
          o'.output (o'.report m mode control k) = o.output (o.report m mode control fuel) := by
  obtain ⟨hreaches, houtput⟩ := o.reaches m mode control fuel
  rw [h] at hreaches
  have hdown := hreaches.down hresult
  refine ⟨(report_of_reaches hdown o' mode).1, ?_⟩
  intro k result' h'
  obtain ⟨hreaches', houtput'⟩ := o'.reaches m mode control k
  rw [h'] at hreaches'
  obtain ⟨hcount, _, hsame⟩ := hreaches'.agree hdown
  exact ⟨hsame, by rw [houtput, houtput', hcount]⟩

/-- Where a call with a flag that is never raised ends, one with any flag does not go on. -/
theorem exists_outcome_of_down {o' : ScheduledOutlet fun _ => false}
    (h : (o'.report m mode control fuel).outcome = some result) (o : ScheduledOutlet schedule) :
    ∃ result', (o.report m mode control fuel).outcome = some result' := by
  obtain ⟨hreaches', _⟩ := o'.reaches m mode control fuel
  obtain ⟨hreaches, _⟩ := o.reaches m mode control fuel
  rw [h] at hreaches'
  rcases hreaches.ending with ⟨hcount, hnone⟩ | ⟨_, result', hresult', _⟩
  · obtain ⟨bytes, hsteps⟩ := hreaches.steps
    rw [hcount] at hsteps
    have hdown : Reaches (fun j => Control.verdict (fun _ => false) j control) fuel 0 m fuel
        (o.report m mode control fuel).machine none := by
      refine .of_steps hsteps fun j hj => ?_
      exact Control.verdict_down_of_eq_none (hreaches.free j (by omega))
    obtain ⟨_, _, hsome⟩ := hreaches'.unique hdown
    cases hsome
  · exact ⟨result', hresult'⟩

end ScheduledOutlet

end Brainfuck
