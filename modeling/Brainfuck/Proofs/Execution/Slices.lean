import Brainfuck.Proofs.Execution.Outlet
import Mathlib.Algebra.GroupWithZero.Nat

/-!
# Slices of a run

A machine keeps all that a run needs to go on, and the step count starts again with every call.  So
a run that is cut into slices by budgets is the run under their sum.  `Stretch` is what one budget
allows: it is determined by the budget, and stretches add up.
-/

namespace Brainfuck

/-- A call under a budget, into a sink that takes everything, whose cancel flag stays down.  It has
the fuel to return. -/
structure Slice extends ScheduledOutlet (fun _ => false) where
  budget : Nat
  fuel : Nat
  budget_lt_fuel : budget < fuel

def Slice.toPlainCall (c : Slice) : PlainCall where
  toOutlet := c.toOutlet
  control := some { budget := some c.budget }
  fuel := c.fuel

namespace Machine

variable {m m₁ m₂ : Machine} {b b' n n' : Nat} {bytes rest : List UInt8}

/-- From `m` on, `n` instructions are completed: as many as the budget allows, or fewer if then no
more can be completed. -/
structure Stretch (budget n : Nat) (m : Machine) (bytes : List UInt8) (m' : Machine) : Prop where
  steps : Steps n m bytes m'
  le : n ≤ budget
  ending : n = budget ∨ m'.Halted

namespace Stretch

theorem nil (m : Machine) : Stretch 0 0 m [] m :=
  ⟨.refl m, Nat.le_refl 0, .inl rfl⟩

theorem trans (h : Stretch b n m bytes m₁) (h' : Stretch b' n' m₁ rest m₂) :
    Stretch (b + b') (n + n') m (bytes ++ rest) m₂ where
  steps := h.steps.trans h'.steps
  le := Nat.add_le_add h.le h'.le
  ending := by
    rcases h.ending with rfl | hhalted
    · rcases h'.ending with rfl | hhalted
      · exact .inl rfl
      · exact .inr hhalted
    · obtain rfl := h'.steps.eq_zero_of_halted hhalted
      cases h'.steps
      exact .inr hhalted

theorem count_le (h : Stretch b n m bytes m₁) (h' : Stretch b n' m rest m₂) : n ≤ n' := by
  rcases h'.ending with rfl | hhalted
  · exact h.le
  · obtain ⟨i, _, rfl, _, _⟩ := h.steps.rest_of_halted h'.steps hhalted
    exact Nat.le_add_right n i

theorem unique (h : Stretch b n m bytes m₁) (h' : Stretch b n' m rest m₂) :
    n = n' ∧ m₁ = m₂ ∧ bytes = rest := by
  obtain rfl := Nat.le_antisymm (h.count_le h') (h'.count_le h)
  exact ⟨rfl, h.steps.unique h'.steps⟩

/-- A budget that allows at least one instruction is spent exactly if the whole is: after a stretch
that did not spend its own there is nothing left to do. -/
theorem spent_iff (h : Stretch b n m bytes m₁) (h' : Stretch b' n' m₁ rest m₂) (hpos : 0 < b') :
    b' ≤ n' ↔ b + b' ≤ n + n' := by
  have hle := h.le
  have hle' := h'.le
  constructor
  · intro hspent
    rcases h.ending with rfl | hhalted
    · omega
    · have hzero := h'.steps.eq_zero_of_halted hhalted
      omega
  · intro hspent
    omega

end Stretch

end Machine

open Machine

def Slice.verdict (c : Slice) (n : Nat) : Option Failure :=
  if c.budget ≤ n then some (.stepLimit c.budget) else none

theorem Slice.course (c : Slice) (m : Machine) :
    Course c.host c.written c.verdict c.fuel 0 m c.start (c.toPlainCall.reportOn m).summary
      (c.toPlainCall.reportOn m).steps (c.toPlainCall.outputOn m) :=
  c.toOutlet.course (.of_scheduled c.scheduled { budget := some c.budget }) c.ready m c.fuel

theorem Slice.exists_stretch (c : Slice) (m : Machine) :
    ∃ n result, Stretch c.budget n m (c.toPlainCall.outputOn m) (c.toPlainCall.reportOn m).machine ∧
      c.toPlainCall.resultOn m = some result ∧
      (c.toPlainCall.reportOn m).machine.next.conclude (c.verdict n) = some result := by
  have hcourse := c.course m
  have hle : (c.toPlainCall.reportOn m).steps ≤ c.budget := by
    by_contra hlt
    have hfree := hcourse.free c.budget (Nat.not_le.1 hlt)
    rw [Nat.zero_add, Slice.verdict, if_pos (Nat.le_refl _)] at hfree
    cases hfree
  rcases hcourse.ending with ⟨hcount, _⟩ | ⟨_, result, hresult, _⟩
  · have hfuel := c.budget_lt_fuel
    omega
  · have hconclude := (hcourse.of_result c.accepting hresult).2
    refine ⟨_, result, ⟨hcourse.steps, hle, ?_⟩, hresult, hconclude⟩
    by_cases hspent : c.budget ≤ (c.toPlainCall.reportOn m).steps
    · exact .inl (Nat.le_antisymm hle hspent)
    · rw [Slice.verdict, if_neg hspent, Next.conclude_none] at hconclude
      exact .inr ⟨result, hconclude⟩

/-- Slices go through the stretch that the sum of their budgets allows. -/
theorem exists_stretch_of_slices (m : Machine) (slices : List Slice) :
    ∃ n, Stretch (slices.map Slice.budget).sum n m
      (m.outputOf (slices.map Slice.toPlainCall))
      (m.afterPlain (slices.map Slice.toPlainCall)) := by
  induction slices generalizing m with
  | nil => exact ⟨0, .nil m⟩
  | cons c slices ih =>
      obtain ⟨n, _, hone, _, _⟩ := c.exists_stretch m
      obtain ⟨n', hrest⟩ := ih (c.toPlainCall.reportOn m).machine
      exact ⟨n + n', hone.trans hrest⟩

/-- A machine that is run in slices goes through the same instructions as under one budget, the sum
of theirs: it is left the same, and the slices together put out what the one call puts out.  Every
slice returns.  Unless the last budget is zero, the last slice reports what the one call reports, or
both report that their limit is reached. -/
theorem slices_join (m : Machine) (front : List Slice) (last whole : Slice)
    (hsum : whole.budget = ((front ++ [last]).map Slice.budget).sum) :
    let before := m.afterPlain (front.map Slice.toPlainCall)
    m.afterPlain ((front ++ [last]).map Slice.toPlainCall) =
        (whole.toPlainCall.reportOn m).machine ∧
      m.outputOf ((front ++ [last]).map Slice.toPlainCall) = whole.toPlainCall.outputOn m ∧
      (∀ (c : Slice) (m' : Machine), ∃ result, c.toPlainCall.resultOn m' = some result) ∧
      (0 < last.budget →
        (∃ result, (result = .ok () ∨ ∃ cause, result = .error (.fault cause)) ∧
          last.toPlainCall.resultOn before = some result ∧
          whole.toPlainCall.resultOn m = some result) ∨
        last.toPlainCall.resultOn before = some (.error (.stepLimit last.budget)) ∧
          whole.toPlainCall.resultOn m = some (.error (.stepLimit whole.budget))) := by
  intro before
  obtain ⟨n, hfront⟩ := exists_stretch_of_slices m front
  obtain ⟨k, result, hlast, hresult, hconclude⟩ := last.exists_stretch before
  obtain ⟨t, result', hwhole, hresult', hconclude'⟩ := whole.exists_stretch m
  have hjoined := hfront.trans hlast
  rw [List.map_append, List.map_singleton, List.sum_append, List.sum_singleton] at hsum
  rw [hsum] at hwhole
  obtain ⟨hcount, hmachine, houtput⟩ := hjoined.unique hwhole
  rw [List.map_append, List.map_singleton, afterPlain_concat, outputOf_concat]
  refine ⟨hmachine, houtput, fun c m' => ?_, fun hpos => ?_⟩
  · obtain ⟨_, result, _, hresult, _⟩ := c.exists_stretch m'
    exact ⟨result, hresult⟩
  · have hspent := hfront.spent_iff hlast hpos
    rw [← hsum, hcount] at hspent
    rw [hmachine] at hconclude
    -- the last slice and the one call stand at the same machine, and either both have spent their
    -- budgets there or neither has
    by_cases hlimit : last.budget ≤ k
    · rw [Slice.verdict, if_pos hlimit] at hconclude
      rw [Slice.verdict, if_pos (hspent.1 hlimit)] at hconclude'
      rcases Next.of_conclude_some hconclude with ⟨hdone, rfl⟩ | ⟨hnot, rfl⟩
      · rw [hdone] at hconclude'
        obtain rfl := Option.some.inj hconclude'
        exact .inl ⟨_, .inl rfl, hresult, hresult'⟩
      · obtain ⟨_, rfl⟩ := (Next.of_conclude_some hconclude').resolve_left fun h => hnot h.1
        exact .inr ⟨hresult, hresult'⟩
    · rw [Slice.verdict, if_neg hlimit] at hconclude
      rw [Slice.verdict, if_neg fun hwhole => hlimit (hspent.2 hwhole)] at hconclude'
      obtain rfl := Option.some.inj (hconclude.symm.trans hconclude')
      rw [Next.conclude_none] at hconclude
      exact .inl ⟨result, Next.ok_or_fault hconclude, hresult, hresult'⟩

def Slice.counting (budget : Nat) : Slice where
  toScheduledOutlet := .counting _
  budget
  fuel := budget + 1
  budget_lt_fuel := Nat.lt_succ_self budget

def earlierSlices : List Slice :=
  [4, 0, 4].map Slice.counting

theorem slices_join_at_fault :
    ∃ m, load ",[.-]<" "\x02" { tapeSize := 1, feedMode := .stream } = .ok m ∧
      11 = ((earlierSlices ++ [Slice.counting 3]).map Slice.budget).sum ∧
      m.outputOf ((earlierSlices ++ [Slice.counting 3]).map Slice.toPlainCall) = [2, 1] ∧
      (Slice.counting 3).toPlainCall.resultOn
          (m.afterPlain (earlierSlices.map Slice.toPlainCall)) =
        some (.error (.fault (.outOfBounds 5 0 '<'))) := by
  have hload : load ",[.-]<" "\x02" { tapeSize := 1, feedMode := .stream } = .ok _ := rfl
  obtain ⟨_, houtput, _, hresult⟩ := slices_join _ earlierSlices (.counting 3) (.counting 11) rfl
  refine ⟨_, hload, rfl, houtput, ?_⟩
  rcases hresult (Nat.succ_pos 2) with ⟨result, _, hlast, hwhole⟩ | ⟨_, hwhole⟩
  · rw [hlast, ← hwhole]
    rfl
  · cases hwhole

end Brainfuck
