import Brainfuck.Proofs.Execution.Outlet

/-!
# Transcripts

In either mode, what a run writes into a sink that takes everything is decided by its machine: the
header, and then something for each completed instruction.  How far it comes and what it reports is
decided by the machine and the verdicts of the controls.  `Reaches` says this without a host, so two
runs are compared by comparing where they come to.
-/

namespace Brainfuck

namespace Machine

/-- What the instruction at `m` writes when it is completed as number `i` of a run: the byte of a
`.`, or a row. -/
def shown (mode : Mode) (i : Nat) (m : Machine) : List UInt8 :=
  match m.code.instrs[m.pc]? with
  | none => []
  | some instr =>
    match m.act instr with
    | (_, .error _) => []
    | (_, .ok action) => (mode.pieces (m.site i instr) action).flatten

def transcript (mode : Mode) : Nat → Nat → Machine → List UInt8
  | _, 0, _ => []
  | i, n + 1, m =>
    match m.next with
    | .step _ after => m.shown mode i ++ transcript mode (i + 1) n after
    | _ => []

variable {m m₁ m₂ after : Machine} {bytes : List UInt8} {i k n : Nat}

theorem shown_of_act_eq_ok {instr : Instr} {action : Action} (mode : Mode) (i : Nat)
    (hinstr : m.code.instrs[m.pc]? = some instr) (hact : m.act instr = (after, .ok action)) :
    m.shown mode i = (mode.pieces (m.site i instr) action).flatten := by
  simp only [shown, hinstr, hact]

theorem shown_plain (h : m.next = .step bytes after) (i : Nat) : m.shown .plain i = bytes := by
  obtain ⟨instr, mid, action, hinstr, hact, rfl, rfl⟩ := exists_of_next_eq_step h
  rw [shown_of_act_eq_ok .plain i hinstr hact]
  cases action <;> rfl

theorem transcript_succ (h : m.next = .step bytes after) (mode : Mode) (i n : Nat) :
    transcript mode i (n + 1) m = m.shown mode i ++ transcript mode (i + 1) n after := by
  rw [transcript, h]

theorem transcript_plain (h : Steps n m bytes m₁) (i : Nat) : transcript .plain i n m = bytes := by
  induction h generalizing i with
  | refl m => rfl
  | head hnext _ ih => rw [transcript_succ hnext, shown_plain hnext, ih]

theorem transcript_add (h : Steps n m bytes m₁) (mode : Mode) (i k : Nat) :
    transcript mode i (n + k) m =
      transcript mode i n m ++ transcript mode (i + n) k m₁ := by
  induction h generalizing i with
  | refl m => rw [Nat.zero_add]; rfl
  | @head n m m₁ m₂ _ _ hnext _ ih =>
      rw [Nat.add_right_comm, transcript_succ hnext, transcript_succ hnext, ih, List.append_assoc,
        Nat.add_right_comm i 1 n, Nat.add_assoc i n 1]

theorem transcript_concat (h : Steps n m bytes m₁) {rest : List UInt8}
    (hnext : m₁.next = .step rest after) (mode : Mode) (i : Nat) :
    transcript mode i (n + 1) m = transcript mode i n m ++ m₁.shown mode (i + n) := by
  rw [transcript_add h, transcript_succ hnext, transcript, List.append_nil]

/-! ## Where a run comes to -/

/-- A loop of at most `fuel` turns from `m`, before instruction number `i`, has completed `n`
instructions, stands at `m'` and has this result, if `verdict j` is what its controls say before
instruction number `j`. -/
structure Reaches (verdict : Nat → Option Failure) (fuel i : Nat) (m : Machine) (n : Nat)
    (m' : Machine) (result : Option (Except Failure Unit)) : Prop where
  steps : ∃ bytes, Steps n m bytes m'
  free : ∀ j < n, verdict (i + j) = none
  ending : n = fuel ∧ result = none ∨
    n < fuel ∧ ∃ r, result = some r ∧ m'.next.conclude (verdict (i + n)) = some r

namespace Reaches

variable {verdict : Nat → Option Failure} {fuel fuel' : Nat}
  {result result' : Option (Except Failure Unit)}

theorem le_fuel (h : Reaches verdict fuel i m n m₁ result) : n ≤ fuel := by
  rcases h.ending with ⟨hn, _⟩ | ⟨hlt, _⟩ <;> omega

theorem conclude_of_result {r : Except Failure Unit}
    (h : Reaches verdict fuel i m n m₁ result) (hresult : result = some r) :
    m₁.next.conclude (verdict (i + n)) = some r := by
  rcases h.ending with ⟨_, hnone⟩ | ⟨_, r', hr, hconclude⟩
  · rw [hresult] at hnone
    cases hnone
  · obtain rfl := Option.some.inj (hresult.symm.trans hr)
    exact hconclude

/-- More fuel leads no less far: whatever ends the longer loop would have ended the other as well.
-/
theorem count_mono (h : Reaches verdict fuel i m n m₁ result)
    (h' : Reaches verdict fuel' i m k m₂ result') (hfuel : fuel ≤ fuel') : n ≤ k := by
  by_contra hlt
  obtain ⟨d, rfl⟩ := Nat.exists_eq_add_of_le (Nat.le_of_not_le hlt)
  have hle := h.le_fuel
  rcases h'.ending with ⟨hk, _⟩ | ⟨_, r, _, hconclude⟩
  · omega
  · obtain ⟨bytes, hsteps⟩ := h.steps
    obtain ⟨bytes', hsteps'⟩ := h'.steps
    obtain ⟨tail, _, htail⟩ := hsteps'.rest_of_add hsteps
    rw [h.free k (by omega), Next.conclude_none] at hconclude
    have hzero := htail.eq_zero_of_halted ⟨r, hconclude⟩
    omega

theorem unique (h : Reaches verdict fuel i m n m₁ result)
    (h' : Reaches verdict fuel i m k m₂ result') : n = k ∧ m₁ = m₂ ∧ result = result' := by
  obtain rfl := Nat.le_antisymm (h.count_mono h' (Nat.le_refl _)) (h'.count_mono h (Nat.le_refl _))
  obtain ⟨bytes, hsteps⟩ := h.steps
  obtain ⟨bytes', hsteps'⟩ := h'.steps
  obtain ⟨rfl, _⟩ := hsteps.unique hsteps'
  refine ⟨rfl, rfl, ?_⟩
  rcases h.ending with ⟨hn, hnone⟩ | ⟨hlt, r, hr, hconclude⟩
  · rcases h'.ending with ⟨_, hnone'⟩ | ⟨hlt', _⟩
    · rw [hnone, hnone']
    · omega
  · rcases h'.ending with ⟨hn', _⟩ | ⟨_, r', hr', hconclude'⟩
    · omega
    · rw [hr, hr', ← hconclude, ← hconclude']

theorem of_steps (h : Steps n m bytes m₁) (hfree : ∀ j < n, verdict (i + j) = none) :
    Reaches verdict n i m n m₁ none where
  steps := ⟨bytes, h⟩
  free := hfree
  ending := .inl ⟨rfl, rfl⟩

theorem of_conclude {r : Except Failure Unit} (h : Steps n m bytes m₁)
    (hfree : ∀ j < n, verdict (i + j) = none)
    (hconclude : m₁.next.conclude (verdict (i + n)) = some r) (hfuel : n < fuel) :
    Reaches verdict fuel i m n m₁ (some r) where
  steps := ⟨bytes, h⟩
  free := hfree
  ending := .inr ⟨hfuel, r, rfl, hconclude⟩

theorem unstarted (verdict : Nat → Option Failure) (i : Nat) (m : Machine) :
    Reaches verdict 0 i m 0 m none :=
  of_steps (.refl m) fun _ hj => absurd hj (Nat.not_lt_zero _)

theorem ended {r : Except Failure Unit} (h : m.next.conclude (verdict i) = some r) (fuel : Nat) :
    Reaches verdict (fuel + 1) i m 0 m (some r) :=
  of_conclude (.refl m) (fun _ hj => absurd hj (Nat.not_lt_zero _)) h (Nat.succ_pos fuel)

theorem cons (hnext : m.next = .step bytes after) (hverdict : verdict i = none)
    (h : Reaches verdict fuel (i + 1) after n m₁ result) :
    Reaches verdict (fuel + 1) i m (n + 1) m₁ result where
  steps := by
    obtain ⟨rest, hsteps⟩ := h.steps
    exact ⟨bytes ++ rest, .head hnext hsteps⟩
  free j hj := by
    cases j with
    | zero => exact hverdict
    | succ j =>
        have hfree := h.free j (Nat.lt_of_succ_lt_succ hj)
        rwa [Nat.add_right_comm, Nat.add_assoc] at hfree
  ending := by
    rcases h.ending with ⟨rfl, hnone⟩ | ⟨hlt, hend⟩
    · exact .inl ⟨rfl, hnone⟩
    · rw [Nat.add_right_comm, Nat.add_assoc] at hend
      exact .inr ⟨Nat.succ_lt_succ hlt, hend⟩

theorem of_fault {cause : Fault}
    (h : Reaches verdict fuel i m n m₁ (some (.error (.fault cause))))
    (hverdict : ∀ j, verdict j ≠ some (.fault cause)) :
    verdict (i + n) = none ∧ m₁.next = .stuck cause := by
  rcases Next.of_conclude_error (h.conclude_of_result rfl) with
    hsome | ⟨hnone, cause', hsame, hstuck⟩
  · exact absurd hsome (hverdict (i + n))
  · obtain rfl := Failure.fault.inj hsame
    exact ⟨hnone, hstuck⟩

end Reaches

/-! ## What the loop does -/

section Loop

variable {σ : Type} {host : Host σ} {control : Option Control} {verdict : Nat → Option Failure}
  {seen : Nat → σ → Prop} {written : σ → List UInt8} {s : σ}

theorem turn_of_conclude_eq_some (hhost : host.Accepting written)
    (hchecked : host.Checked control verdict seen) (hseen : seen i s) (mode : Mode)
    {result : Except Failure Unit} (h : m.next.conclude (verdict i) = some result) :
    ∃ s', written s' = written s ∧ m.turn host mode control s i = (m, s', some result) := by
  have hturn := turn_cases hhost.honest.toTallies hchecked hseen m mode
  generalize m.turn host mode control s i = outcome at hturn ⊢
  cases hturn with
  | concluded h' hsame =>
      obtain rfl := Option.some.inj (h.symm.trans h')
      exact ⟨_, hsame, rfl⟩
  | refused _ _ _ _ hwrite => exact absurd hwrite hhost.writeAll_ne_error
  | completed hverdict hinstr hact =>
      rw [next_of_act_eq_ok hinstr hact, hverdict] at h
      cases h

theorem turn_of_conclude_eq_none (hhost : host.Accepting written)
    (hchecked : host.Checked control verdict seen) (hseen : seen i s) (mode : Mode)
    (h : m.next.conclude (verdict i) = none) :
    ∃ bytes after s', verdict i = none ∧ m.next = .step bytes after ∧ seen (i + 1) s' ∧
      written s' = written s ++ m.shown mode i ∧
      m.turn host mode control s i = (after, s', none) := by
  have hturn := turn_cases hhost.honest.toTallies hchecked hseen m mode
  generalize m.turn host mode control s i = outcome at hturn ⊢
  cases hturn with
  | concluded h' =>
      rw [h] at h'
      cases h'
  | refused _ _ _ _ hwrite => exact absurd hwrite hhost.writeAll_ne_error
  | @completed instr after action s₁ s₂ hverdict hinstr hact hsame hwrite hseen' =>
      refine ⟨_, _, s₂, hverdict, next_of_act_eq_ok hinstr hact, hseen', ?_, rfl⟩
      obtain ⟨s₃, hwrite', hwritten⟩ := hhost.writeAll s₁ (mode.pieces (m.site i instr) action)
      rw [hwrite] at hwrite'
      obtain ⟨rfl, _⟩ := Prod.mk.inj hwrite'
      rw [hwritten, hsame, shown_of_act_eq_ok mode i hinstr hact]

theorem exists_reaches_loop (hhost : host.Accepting written)
    (hchecked : host.Checked control verdict seen) (mode : Mode) (fuel : Nat) (hseen : seen i s)
    (m : Machine) :
    ∃ n, (loop host mode control fuel m s i).steps = i + n ∧
      Reaches verdict fuel i m n (loop host mode control fuel m s i).machine
        (loop host mode control fuel m s i).result ∧
      written (loop host mode control fuel m s i).host = written s ++ transcript mode i n m := by
  induction fuel generalizing m s i with
  | zero => exact ⟨0, rfl, .unstarted verdict i m, (List.append_nil _).symm⟩
  | succ fuel ih =>
      rw [loop]
      cases hconclude : m.next.conclude (verdict i) with
      | some result =>
          obtain ⟨s', hsame, hturn⟩ :=
            turn_of_conclude_eq_some hhost hchecked hseen mode hconclude
          rw [hturn]
          exact ⟨0, rfl, .ended hconclude fuel, hsame.trans (List.append_nil _).symm⟩
      | none =>
          obtain ⟨bytes, after, s', hverdict, hnext, hseen', hwritten, hturn⟩ :=
            turn_of_conclude_eq_none hhost hchecked hseen mode hconclude
          rw [hturn]
          obtain ⟨n, hcount, hreaches, hrest⟩ := ih hseen' after
          refine ⟨n + 1, ?_, .cons hnext hverdict hreaches, ?_⟩
          · rw [hcount, Nat.add_right_comm, Nat.add_assoc]
          · rw [hrest, hwritten, transcript_succ hnext, List.append_assoc]

end Loop

end Machine

open Machine

theorem OpenOutlet.reaches (o : OpenOutlet) {control : Option Control}
    {verdict : Nat → Option Failure} {seen : Nat → o.σ → Prop}
    (hchecked : o.host.Checked control verdict seen) (hseen : seen 0 o.start) (m : Machine)
    (mode : Mode) (fuel : Nat) :
    Reaches verdict fuel 0 m (o.report m mode control fuel).steps
        (o.report m mode control fuel).machine (o.report m mode control fuel).outcome ∧
      o.output (o.report m mode control fuel) =
        mode.header.flatten ++ transcript mode 0 (o.report m mode control fuel).steps m := by
  obtain ⟨s, hstart, hheader, hreport⟩ := o.exists_report_eq_loop m mode control
  obtain ⟨houtcome, hmachine, hcount, hwritten⟩ := hreport fuel
  have hready := hchecked.writeAll hseen mode.header
  rw [hstart] at hready
  obtain ⟨n, hsteps, hreaches, hrest⟩ :=
    exists_reaches_loop o.accepting hchecked mode fuel hready m
  obtain rfl : (o.report m mode control fuel).steps = n :=
    hcount.trans (hsteps.trans (Nat.zero_add n))
  refine ⟨?_, o.output_eq ?_⟩
  · rw [houtcome, hmachine]
    exact hreaches
  · rw [hwritten, hrest, hheader, List.append_assoc]

/-! ## Uncontrolled runs in either mode -/

namespace OpenOutlet

variable {m m' : Machine} {bytes : List UInt8} {n fuel : Nat}

theorem output_of_steps (o : OpenOutlet) (h : Steps n m bytes m') (mode : Mode) :
    o.output (o.report m mode none n) = mode.header.flatten ++ transcript mode 0 n m := by
  obtain ⟨hreaches, houtput⟩ := o.reaches (.free o.host) trivial m mode n
  obtain ⟨hcount, _⟩ := hreaches.unique (.of_steps h fun _ _ => rfl)
  rw [houtput, hcount]

theorem transcript_prefix_output (o : OpenOutlet) (h : Steps n m bytes m') (mode : Mode)
    (hfuel : n ≤ fuel) :
    mode.header.flatten ++ transcript mode 0 n m <+: o.output (o.report m mode none fuel) := by
  obtain ⟨hreaches, houtput⟩ := o.reaches (.free o.host) trivial m mode fuel
  obtain ⟨k, hk⟩ := Nat.exists_eq_add_of_le
    ((Reaches.of_steps h fun _ _ => rfl).count_mono hreaches hfuel)
  rw [houtput, hk, transcript_add h, ← List.append_assoc]
  exact List.prefix_append _ _

theorem report_of_result (o : OpenOutlet) {result : Except Failure Unit} (h : Steps n m bytes m')
    (hresult : m'.next.result? = some result) (mode : Mode) (hfuel : n < fuel) :
    (o.report m mode none fuel).outcome = some result ∧
      o.output (o.report m mode none fuel) =
        mode.header.flatten ++ transcript mode 0 n m := by
  obtain ⟨hreaches, houtput⟩ := o.reaches (.free o.host) trivial m mode fuel
  have hend : Reaches (fun _ => none) fuel 0 m n m' (some result) :=
    .of_conclude h (fun _ _ => rfl) (by rw [Next.conclude_none]; exact hresult) hfuel
  obtain ⟨hcount, _, hsame⟩ := hreaches.unique hend
  exact ⟨hsame, by rw [houtput, hcount]⟩

end OpenOutlet

namespace ScheduledOutlet

variable {schedule : Nat → Bool} {control : Option Control} {fuel n : Nat} {m m' : Machine}
  {result : Option (Except Failure Unit)}

theorem reaches (o : ScheduledOutlet schedule) (m : Machine) (mode : Mode)
    (control : Option Control) (fuel : Nat) :
    Reaches (fun i => Control.verdict schedule i control) fuel 0 m
        (o.report m mode control fuel).steps (o.report m mode control fuel).machine
        (o.report m mode control fuel).outcome ∧
      o.output (o.report m mode control fuel) =
        mode.header.flatten ++ transcript mode 0 (o.report m mode control fuel).steps m := by
  obtain ⟨seen, hchecked, hseen⟩ := o.exists_checked control
  exact o.toOpenOutlet.reaches hchecked hseen m mode fuel

/-- There is one place for a call to come to. -/
theorem report_of_reaches
    (h : Reaches (fun i => Control.verdict schedule i control) fuel 0 m n m' result)
    (o : ScheduledOutlet schedule) (mode : Mode) :
    (o.report m mode control fuel).outcome = result ∧ (o.report m mode control fuel).steps = n ∧
      (o.report m mode control fuel).machine = m' ∧
      o.output (o.report m mode control fuel) = mode.header.flatten ++ transcript mode 0 n m := by
  obtain ⟨hreaches, houtput⟩ := o.reaches m mode control fuel
  obtain ⟨hcount, hmachine, hresult⟩ := hreaches.unique h
  rw [hcount] at houtput
  exact ⟨hresult, hcount, hmachine, houtput⟩

/-- With fewer turns, any outlet is found where the call comes by after as many instructions. -/
theorem report_of_reaches_later {k : Nat} {mid : Machine} {bytes : List UInt8}
    (h : Reaches (fun i => Control.verdict schedule i control) fuel 0 m n m' result) (hk : k ≤ n)
    (hsteps : Steps k m bytes mid) (o : ScheduledOutlet schedule) (mode : Mode) :
    (o.report m mode control k).outcome = none ∧ (o.report m mode control k).steps = k ∧
      (o.report m mode control k).machine = mid ∧
      o.output (o.report m mode control k) = mode.header.flatten ++ transcript mode 0 k m :=
  report_of_reaches (.of_steps hsteps fun j hj => h.free j (Nat.lt_of_lt_of_le hj hk)) o mode

theorem stuck_of_fault {o : ScheduledOutlet schedule} {mode : Mode} {cause : Fault}
    (h : (o.report m mode control fuel).outcome = some (.error (.fault cause))) :
    ∃ n m' bytes, (o.report m mode control fuel).steps = n ∧
      (o.report m mode control fuel).machine = m' ∧ Steps n m bytes m' ∧
      m'.next = .stuck cause ∧ (∀ j < n + 1, Control.verdict schedule (0 + j) control = none) ∧
      o.output (o.report m mode control fuel) =
        mode.header.flatten ++ transcript mode 0 n m := by
  obtain ⟨hreaches, houtput⟩ := o.reaches m mode control fuel
  rw [h] at hreaches
  obtain ⟨bytes, hsteps⟩ := hreaches.steps
  obtain ⟨hlast, hstuck⟩ :=
    hreaches.of_fault fun j => Control.verdict_ne_fault schedule j control cause
  refine ⟨_, _, bytes, rfl, rfl, hsteps, hstuck, fun j hj => ?_, houtput⟩
  rcases Nat.lt_succ_iff_lt_or_eq.1 hj with hlt | rfl
  · exact hreaches.free j hlt
  · exact hlast

theorem next_eq_stuck_of_fault {o : ScheduledOutlet schedule} {mode : Mode} {cause : Fault}
    (h : (o.report m mode control fuel).outcome = some (.error (.fault cause))) :
    (o.report m mode control fuel).machine.next = .stuck cause := by
  obtain ⟨hreaches, _⟩ := o.reaches m mode control fuel
  rw [h] at hreaches
  exact (hreaches.of_fault fun j => Control.verdict_ne_fault schedule j control cause).2

/-- At an instruction that cannot be carried out, a call that returns anything else than its fault
has been stopped by its controls. -/
theorem verdict_ne_none_of_stuck (o : ScheduledOutlet schedule) {mode : Mode} {cause : Fault}
    (hstuck : (o.report m mode control fuel).machine.next = .stuck cause)
    (hreturns : (o.report m mode control fuel).outcome ≠ none)
    (hfault : (o.report m mode control fuel).outcome ≠ some (.error (.fault cause))) :
    Control.verdict schedule (o.report m mode control fuel).steps control ≠ none := by
  intro hverdict
  obtain ⟨result, hresult⟩ := Option.ne_none_iff_exists'.1 hreturns
  have hconclude := (o.reaches m mode control fuel).1.conclude_of_result hresult
  rw [Nat.zero_add, hverdict, hstuck, Next.conclude_none] at hconclude
  exact hfault (hresult.trans hconclude.symm)

end ScheduledOutlet

end Brainfuck
