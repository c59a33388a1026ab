import Brainfuck.Proofs.Execution.Outlet

/-!
# Visited machines

A run visits the machines at which it carries out an instruction: those that it leaves by a
completed instruction, and the one at which it reports a fault.
-/

namespace Brainfuck

namespace Machine

variable {m after : Machine} {instr : Instr} {bytes : List UInt8} {cause : Fault} {σ : Type}
  {host : Host σ} {mode : Mode} {control : Option Control} {s s' : σ} {i : Nat}

theorem carried?_eq_some_iff :
    m.carried? host control s i = some instr ↔
      m.code.instrs[m.pc]? = some instr ∧ (host.ask control s i).2 = none := by
  unfold carried? Host.ask
  cases m.code.instrs[m.pc]? with
  | none => simp
  | some instr' =>
      cases control with
      | none => simp
      | some control =>
          rcases hhalt : control.halt? host s i with ⟨s', _ | failure⟩ <;> simp [hhalt]

theorem exists_next_of_turn (h : m.turn host mode control s i = (after, s', none)) :
    (m.carried? host control s i).isSome ∧ ∃ bytes, m.next = .step bytes after := by
  have hturn := turn_inv host mode control s i m
  rw [h] at hturn
  cases hturn with
  | completed hgoes hinstr hact _ =>
      rw [carried?_eq_some_iff.2 ⟨hinstr, hgoes⟩]
      exact ⟨rfl, _, next_of_act_eq_ok hinstr hact⟩

theorem exists_turn_of_stuck (mode : Mode) (hcarried : (m.carried? host control s i).isSome)
    (hstuck : m.next = .stuck cause) :
    ∃ s', m.turn host mode control s i = (m, s', some (.error (.fault cause))) := by
  obtain ⟨instr, hinstr⟩ := Option.isSome_iff_exists.1 hcarried
  have hgoes := (carried?_eq_some_iff.1 hinstr).2
  have hturn := turn_inv host mode control s i m
  generalize m.turn host mode control s i = outcome at hturn ⊢
  cases hturn with
  | @concluded result s' hconclude _ =>
      rw [hgoes, hstuck, Next.conclude_none] at hconclude
      cases hconclude
      exact ⟨s', rfl⟩
  | refused _ hinstr hact _ =>
      rw [next_of_act_eq_ok hinstr hact] at hstuck
      cases hstuck
  | completed _ hinstr hact _ =>
      rw [next_of_act_eq_ok hinstr hact] at hstuck
      cases hstuck

theorem carried_of_turn_eq_fault
    (h : m.turn host mode control s i = (after, s', some (.error (.fault cause)))) :
    after = m ∧ (m.carried? host control s i).isSome := by
  have hturn := turn_inv host mode control s i m
  rw [h] at hturn
  cases hturn with
  | concluded hconclude _ =>
      rw [Host.ask_snd] at hconclude
      rcases Next.of_conclude_error hconclude with hverdict | ⟨hgoes, _, _, hstuck⟩
      · exact absurd hverdict (Control.verdict_ne_fault _ _ _ _)
      · obtain ⟨instr, hinstr, _⟩ := exists_of_next_eq_stuck hstuck
        rw [← Host.ask_snd] at hgoes
        rw [carried?_eq_some_iff.2 ⟨hinstr, hgoes⟩]
        exact ⟨rfl, rfl⟩

/-! ## Loops -/

theorem visits_of_turn_eq_none (h : m.turn host mode control s i = (after, s', none))
    (fuel : Nat) :
    visits host mode control (fuel + 1) m s i =
      m :: visits host mode control fuel after s' (i + 1) := by
  rw [visits, if_pos (exists_next_of_turn h).1, h]

theorem visits_of_turn_eq_some {result : Except Failure Unit}
    (h : m.turn host mode control s i = (after, s', some result)) (fuel : Nat) :
    visits host mode control (fuel + 1) m s i =
      if (m.carried? host control s i).isSome then [m] else [] := by
  rw [visits, h]

theorem exists_steps_of_mem_visits {fuel : Nat} {v : Machine}
    (hv : v ∈ visits host mode control fuel m s i) : ∃ k bytes, Steps k m bytes v := by
  induction fuel generalizing m s i with
  | zero => cases hv
  | succ fuel ih =>
      rcases hturn : m.turn host mode control s i with ⟨after, s', _ | result⟩
      · rw [visits_of_turn_eq_none hturn] at hv
        rcases List.mem_cons.1 hv with rfl | hv
        · exact ⟨0, [], .refl v⟩
        · obtain ⟨_, _, hnext⟩ := exists_next_of_turn hturn
          obtain ⟨k, rest, hsteps⟩ := ih hv
          exact ⟨k + 1, _, .head hnext hsteps⟩
      · rw [visits_of_turn_eq_some hturn] at hv
        split at hv
        · obtain rfl := List.mem_singleton.1 hv
          exact ⟨0, [], .refl v⟩
        · cases hv

theorem mem_visits_of_steps {fuel k : Nat} {mid : Machine} (hsteps : Steps k m bytes mid)
    (hk : i + k < (loop host mode control fuel m s i).steps) :
    mid ∈ visits host mode control fuel m s i := by
  induction fuel generalizing m s i k bytes with
  | zero => exact absurd hk (Nat.not_lt.2 (Nat.le_add_right i k))
  | succ fuel ih =>
      rw [loop] at hk
      rcases hturn : m.turn host mode control s i with ⟨after, s', _ | result⟩
      · rw [visits_of_turn_eq_none hturn]
        rw [hturn] at hk
        cases hsteps with
        | refl => exact List.mem_cons_self
        | head hnext htail =>
            obtain ⟨_, _, hnext'⟩ := exists_next_of_turn hturn
            obtain ⟨rfl, rfl⟩ := Next.step.inj (hnext.symm.trans hnext')
            refine List.mem_cons_of_mem m (ih htail ?_)
            rwa [Nat.add_assoc, Nat.add_comm 1]
      · rw [hturn] at hk
        exact absurd hk (Nat.not_lt.2 (Nat.le_add_right i k))

theorem mem_visits_of_fault {fuel : Nat}
    (h : (loop host mode control fuel m s i).result = some (.error (.fault cause))) :
    (loop host mode control fuel m s i).machine ∈ visits host mode control fuel m s i := by
  induction fuel generalizing m s i with
  | zero => cases h
  | succ fuel ih =>
      rw [loop] at h ⊢
      rcases hturn : m.turn host mode control s i with ⟨after, s', _ | result⟩
      · rw [visits_of_turn_eq_none hturn]
        rw [hturn] at h
        exact List.mem_cons_of_mem m (ih h)
      · rw [hturn] at h
        cases h
        obtain ⟨rfl, hcarried⟩ := carried_of_turn_eq_fault hturn
        rw [visits_of_turn_eq_some hturn, if_pos hcarried]
        exact List.mem_cons_self

/-- An instruction that cannot be carried out is the last that is visited. -/
theorem result_of_mem_visits {fuel : Nat} {v : Machine}
    (hv : v ∈ visits host mode control fuel m s i) (hstuck : v.next = .stuck cause) :
    (loop host mode control fuel m s i).result = some (.error (.fault cause)) := by
  induction fuel generalizing m s i with
  | zero => cases hv
  | succ fuel ih =>
      rw [loop]
      rcases hturn : m.turn host mode control s i with ⟨after, s', _ | result⟩
      · rw [visits_of_turn_eq_none hturn] at hv
        rcases List.mem_cons.1 hv with rfl | hv
        · obtain ⟨_, _, hnext⟩ := exists_next_of_turn hturn
          rw [hstuck] at hnext
          cases hnext
        · exact ih hv
      · rw [visits_of_turn_eq_some hturn] at hv
        split at hv
        · next hcarried =>
            obtain rfl := List.mem_singleton.1 hv
            obtain ⟨_, hturn'⟩ := exists_turn_of_stuck mode hcarried hstuck
            rw [hturn] at hturn'
            cases hturn'
            rfl
        · cases hv

end Machine

open Machine

/-! ## Calls -/

def Outlet.visits (o : Outlet) (m : Machine) (mode : Mode) (control : Option Control)
    (fuel : Nat) : List Machine :=
  m.visitsOf { host := o.host, mode, control, start := o.start, fuel }

namespace OpenOutlet

variable {m v : Machine} {mode : Mode} {control : Option Control} {fuel k : Nat}
  {bytes : List UInt8} {cause : Fault}

theorem exists_visits_eq_loop (o : OpenOutlet) (m : Machine) (mode : Mode)
    (control : Option Control) :
    ∃ s, ∀ fuel,
      o.visits m mode control fuel = visits o.host mode control fuel m s 0 ∧
      (o.report m mode control fuel).outcome = (loop o.host mode control fuel m s 0).result ∧
      (o.report m mode control fuel).machine = (loop o.host mode control fuel m s 0).machine ∧
      (o.report m mode control fuel).steps = (loop o.host mode control fuel m s 0).steps := by
  obtain ⟨s, hheader, _, hreport⟩ := o.exists_report_eq_loop m mode control
  refine ⟨s, fun fuel => ?_⟩
  obtain ⟨houtcome, hmachine, hcount, _⟩ := hreport fuel
  refine ⟨?_, houtcome, hmachine, hcount⟩
  rw [Outlet.visits, visitsOf, hheader]

theorem exists_steps_of_mem_visits (o : OpenOutlet) (hv : v ∈ o.visits m mode control fuel) :
    ∃ k bytes, Steps k m bytes v := by
  obtain ⟨s, hloop⟩ := o.exists_visits_eq_loop m mode control
  rw [(hloop fuel).1] at hv
  exact Machine.exists_steps_of_mem_visits hv

theorem mem_visits_of_steps (o : OpenOutlet) (hsteps : Steps k m bytes v)
    (hk : k < (o.report m mode control fuel).steps) : v ∈ o.visits m mode control fuel := by
  obtain ⟨s, hloop⟩ := o.exists_visits_eq_loop m mode control
  obtain ⟨hvisits, _, _, hcount⟩ := hloop fuel
  rw [hcount, ← Nat.zero_add k] at hk
  rw [hvisits]
  exact Machine.mem_visits_of_steps hsteps hk

theorem mem_visits_of_fault (o : OpenOutlet)
    (h : (o.report m mode control fuel).outcome = some (.error (.fault cause))) :
    (o.report m mode control fuel).machine ∈ o.visits m mode control fuel := by
  obtain ⟨s, hloop⟩ := o.exists_visits_eq_loop m mode control
  obtain ⟨hvisits, houtcome, hmachine, _⟩ := hloop fuel
  rw [houtcome] at h
  rw [hvisits, hmachine]
  exact Machine.mem_visits_of_fault h

theorem outcome_of_mem_visits (o : OpenOutlet) (hv : v ∈ o.visits m mode control fuel)
    (hstuck : v.next = .stuck cause) :
    (o.report m mode control fuel).outcome = some (.error (.fault cause)) := by
  obtain ⟨s, hloop⟩ := o.exists_visits_eq_loop m mode control
  obtain ⟨hvisits, houtcome, _⟩ := hloop fuel
  rw [hvisits] at hv
  rw [houtcome]
  exact result_of_mem_visits hv hstuck

end OpenOutlet

end Brainfuck
