import Brainfuck.Execution.Sink
import Brainfuck.Proofs.Execution.Step

/-!
# Runs as sequences of completed instructions

`Machine.next` is what a machine does next if neither controls nor a sink stop it, and `Steps` is
that many completed instructions in a row with the bytes they put out.  A machine determines its
steps, so of two sequences that start from it the shorter one begins the longer one, and there is
at most one place where they come to an end.
-/

namespace Brainfuck

/-- A sink that never refuses, with the bytes it has taken so far. -/
structure Host.Accepting {σ : Type} (host : Host σ) (written : σ → List UInt8) : Prop where
  write : ∀ s bs, ∃ s', host.write s bs = (s', .ok ()) ∧ written s' = written s ++ bs
  flush : ∀ s, ∃ s', host.flush s = (s', .ok ()) ∧ written s' = written s
  poll : ∀ s, written (host.poll s).1 = written s
  passedOver : ∀ s cause, written (host.passedOver s cause) = written s

theorem Host.Accepting.writeAll {σ : Type} {host : Host σ} {written : σ → List UInt8}
    (h : host.Accepting written) (s : σ) (pieces : List (List UInt8)) :
    ∃ s', host.writeAll s pieces = (s', .ok ()) ∧ written s' = written s ++ pieces.flatten := by
  induction pieces generalizing s with
  | nil => exact ⟨s, rfl, by simp⟩
  | cons piece pieces ih =>
      obtain ⟨s₁, hwrite, hone⟩ := h.write s piece
      obtain ⟨s₂, hrest, htwo⟩ := ih s₁
      refine ⟨s₂, ?_, ?_⟩
      · simp only [Host.writeAll, hwrite]
        exact hrest
      · rw [htwo, hone, List.flatten_cons, List.append_assoc]

theorem Host.Accepting.writeAll_ne_error {σ : Type} {host : Host σ} {written : σ → List UInt8}
    (h : host.Accepting written) {s s' : σ} {pieces : List (List UInt8)} {cause : String} :
    host.writeAll s pieces ≠ (s', .error cause) := by
  intro hrefused
  obtain ⟨s₁, hwrite, _⟩ := h.writeAll s pieces
  rw [hwrite] at hrefused
  cases hrefused

theorem Sink.accepting_host {script : SinkScript} (hcapacity : script.capacity = none)
    (hflush : script.flushRefusal = none) :
    (Sink.host script).Accepting fun s => s.taken.toList where
  write s bs := by
    refine ⟨s.take script bs, ?_, ?_⟩
    · simp only [Sink.host, Sink.write, hcapacity]
    · simp [Sink.take]
  flush s := by
    refine ⟨{ s with flushes := s.flushes + 1 }, ?_, rfl⟩
    simp only [Sink.host, Sink.flush, hflush]
  poll _ := rfl
  passedOver _ _ := rfl

def Action.bytes : Action → List UInt8
  | .emitted byte => [byte]
  | _ => []

inductive Next where
  | done
  | stuck (cause : Fault)
  | step (bytes : List UInt8) (after : Machine)

def Next.result? : Next → Option (Except Failure Unit)
  | done => some (.ok ())
  | stuck cause => some (.error (.fault cause))
  | step _ _ => none

theorem Next.exists_step_of_result?_eq_none {next : Next} (h : next.result? = none) :
    ∃ bytes after, next = .step bytes after := by
  cases next with
  | done | stuck => cases h
  | step bytes after => exact ⟨bytes, after, rfl⟩

theorem Next.ok_or_fault {next : Next} {result : Except Failure Unit}
    (h : next.result? = some result) :
    result = .ok () ∨ ∃ cause, result = .error (.fault cause) := by
  cases next with
  | done => exact .inl (Option.some.inj h).symm
  | stuck cause => exact .inr ⟨cause, (Option.some.inj h).symm⟩
  | step bytes after => cases h

namespace Machine

def next (m : Machine) : Next :=
  match m.code.instrs[m.pc]? with
  | none => .done
  | some instr =>
    match m.act instr with
    | (_, .error cause) => .stuck cause
    | (after, .ok action) => .step action.bytes after.advance

/-- From `m` on, `n` instructions are completed, which put out `bytes` and lead to `m'`. -/
inductive Steps : Nat → Machine → List UInt8 → Machine → Prop where
  | refl (m : Machine) : Steps 0 m [] m
  | head {n : Nat} {m m₁ m₂ : Machine} {bytes rest : List UInt8} :
      m.next = .step bytes m₁ → Steps n m₁ rest m₂ → Steps (n + 1) m (bytes ++ rest) m₂

def Halted (m : Machine) : Prop :=
  ∃ result, m.next.result? = some result

variable {m m' : Machine}

theorem next_of_getElem?_eq_none (h : m.code.instrs[m.pc]? = none) : m.next = .done := by
  rw [next, h]

theorem next_of_act_eq_error {instr : Instr} {after : Machine} {cause : Fault}
    (h : m.code.instrs[m.pc]? = some instr) (hact : m.act instr = (after, .error cause)) :
    m.next = .stuck cause := by
  simp only [next, h, hact]

theorem next_of_act_eq_ok {instr : Instr} {after : Machine} {action : Action}
    (h : m.code.instrs[m.pc]? = some instr) (hact : m.act instr = (after, .ok action)) :
    m.next = .step action.bytes after.advance := by
  simp only [next, h, hact]

theorem exists_of_next_eq_step {bytes : List UInt8} (h : m.next = .step bytes m') :
    ∃ instr after action, m.code.instrs[m.pc]? = some instr ∧
      m.act instr = (after, .ok action) ∧ bytes = action.bytes ∧ m' = after.advance := by
  unfold next at h
  split at h
  · cases h
  · next instr hinstr =>
      split at h
      · cases h
      · next after action hact =>
          obtain ⟨rfl, rfl⟩ := Next.step.inj h
          exact ⟨instr, after, action, hinstr, hact, rfl, rfl⟩

theorem exists_of_next_eq_stuck {cause : Fault} (h : m.next = .stuck cause) :
    ∃ instr, m.code.instrs[m.pc]? = some instr ∧ m.act instr = (m, .error cause) := by
  unfold next at h
  split at h
  · cases h
  · next instr hinstr =>
      split at h
      · next after cause' hact =>
          obtain rfl := Next.stuck.inj h
          obtain ⟨rfl, _⟩ := of_act_eq_error hact
          exact ⟨instr, hinstr, hact⟩
      · cases h

theorem getElem?_eq_none_of_next_eq_done (h : m.next = .done) :
    m.code.instrs[m.pc]? = none := by
  unfold next at h
  split at h
  · assumption
  · split at h <;> cases h

theorem size_le_of_next_eq_done (h : m.next = .done) : m.code.size ≤ m.pc :=
  Array.getElem?_eq_none_iff.1 (getElem?_eq_none_of_next_eq_done h)

theorem code_of_next_eq_step {bytes : List UInt8} (h : m.next = .step bytes m') :
    m'.code = m.code := by
  obtain ⟨instr, after, action, _, hact, _, rfl⟩ := exists_of_next_eq_step h
  have hcode := code_act m instr
  rwa [hact] at hcode

theorem policy_of_next_eq_step {bytes : List UInt8} (h : m.next = .step bytes m') :
    m'.policy = m.policy := by
  obtain ⟨instr, after, action, _, hact, _, rfl⟩ := exists_of_next_eq_step h
  have hpolicy := policy_act m instr
  rwa [hact] at hpolicy

theorem size_of_next_eq_step {bytes : List UInt8} (h : m.next = .step bytes m') :
    m'.tape.size = m.tape.size := by
  obtain ⟨instr, after, action, _, hact, _, rfl⟩ := exists_of_next_eq_step h
  have hsize := size_tape_act m instr
  rwa [hact] at hsize

theorem halted_of_next_eq_done (h : m.next = .done) : m.Halted :=
  ⟨.ok (), by rw [h]; rfl⟩

theorem halted_of_next_eq_stuck {cause : Fault} (h : m.next = .stuck cause) : m.Halted :=
  ⟨.error (.fault cause), by rw [h]; rfl⟩

theorem not_halted_of_next_eq_step {bytes : List UInt8} (h : m.next = .step bytes m') :
    ¬m.Halted := by
  rintro ⟨result, hresult⟩
  rw [h] at hresult
  cases hresult

theorem exists_step_of_not_halted (h : ¬m.Halted) : ∃ bytes after, m.next = .step bytes after := by
  refine Next.exists_step_of_result?_eq_none ?_
  rw [Option.eq_none_iff_forall_ne_some]
  exact fun result hresult => h ⟨result, hresult⟩

namespace Steps

variable {n k i : Nat} {m m₁ m₂ : Machine} {bytes rest : List UInt8}

theorem one (h : m.next = .step bytes m₁) : Steps 1 m bytes m₁ := by
  have hstep := Steps.head h (.refl m₁)
  rwa [List.append_nil] at hstep

theorem trans (h : Steps n m bytes m₁) (h' : Steps k m₁ rest m₂) :
    Steps (n + k) m (bytes ++ rest) m₂ := by
  induction h with
  | refl m => simpa using h'
  | @head n m m' m₁ first last hnext _ ih =>
      rw [Nat.add_right_comm, List.append_assoc]
      exact .head hnext (ih h')

/-- Completed instructions are determined, so fewer of them are the first of more. -/
theorem rest_of_add (h' : Steps k m rest m₂) (h : Steps (k + i) m bytes m₁) :
    ∃ tail, bytes = rest ++ tail ∧ Steps i m₂ tail m₁ := by
  induction h' generalizing bytes with
  | refl m => exact ⟨bytes, rfl, by rwa [Nat.zero_add] at h⟩
  | head hnext _ ih =>
      rw [Nat.add_right_comm] at h
      cases h with
      | head hnext' htail =>
          rw [hnext] at hnext'
          obtain ⟨rfl, rfl⟩ := Next.step.inj hnext'
          obtain ⟨tail, rfl, hrest⟩ := ih htail
          exact ⟨tail, by rw [List.append_assoc], hrest⟩

theorem unique (h : Steps n m bytes m₁) (h' : Steps n m rest m₂) : m₁ = m₂ ∧ bytes = rest := by
  obtain ⟨tail, rfl, hrest⟩ := h'.rest_of_add (i := 0) h
  cases hrest
  exact ⟨rfl, List.append_nil rest⟩

theorem exists_first (h : Steps (k + i) m bytes m₁) : ∃ first mid, Steps k m first mid := by
  induction k generalizing m bytes with
  | zero => exact ⟨[], m, .refl m⟩
  | succ k ih =>
      rw [Nat.add_right_comm] at h
      cases h with
      | head hnext htail =>
          obtain ⟨first, mid, hfirst⟩ := ih htail
          exact ⟨_, mid, .head hnext hfirst⟩

theorem eq_zero_of_halted (h : Steps n m bytes m₁) (hhalted : m.Halted) : n = 0 := by
  cases h with
  | refl => rfl
  | head hnext _ => exact absurd hhalted (not_halted_of_next_eq_step hnext)

theorem rest_of_halted (h' : Steps k m rest m₂) (h : Steps n m bytes m₁) (hhalted : m₁.Halted) :
    ∃ i tail, n = k + i ∧ bytes = rest ++ tail ∧ Steps i m₂ tail m₁ := by
  rcases Nat.le_total k n with hle | hle
  · obtain ⟨i, rfl⟩ := Nat.exists_eq_add_of_le hle
    obtain ⟨tail, hbytes, hrest⟩ := h'.rest_of_add h
    exact ⟨i, tail, rfl, hbytes, hrest⟩
  · obtain ⟨i, rfl⟩ := Nat.exists_eq_add_of_le hle
    obtain ⟨tail, rfl, hrest⟩ := h.rest_of_add h'
    obtain rfl := hrest.eq_zero_of_halted hhalted
    cases hrest
    exact ⟨0, [], rfl, by rw [List.append_nil, List.append_nil], .refl m₁⟩

theorem eq_of_halted (h : Steps n m bytes m₁) (hhalted : m₁.Halted) (h' : Steps k m rest m₂)
    (hhalted' : m₂.Halted) : m₁ = m₂ ∧ bytes = rest := by
  obtain ⟨i, tail, rfl, rfl, hrest⟩ := h'.rest_of_halted h hhalted
  cases hrest with
  | refl => exact ⟨rfl, List.append_nil rest⟩
  | head hnext _ => exact absurd hhalted' (not_halted_of_next_eq_step hnext)

/-- What the steps of a machine come to is decided by any machine on the way. -/
theorem exists_result_iff (h : Steps k m rest m₁) {result : Except Failure Unit} :
    (∃ n bytes, Steps n m bytes m₂ ∧ m₂.next.result? = some result) ↔
      ∃ n bytes, Steps n m₁ bytes m₂ ∧ m₂.next.result? = some result := by
  constructor
  · rintro ⟨n, bytes, hsteps, hresult⟩
    obtain ⟨i, tail, _, _, htail⟩ := h.rest_of_halted hsteps ⟨result, hresult⟩
    exact ⟨i, tail, htail, hresult⟩
  · rintro ⟨n, bytes, hsteps, hresult⟩
    exact ⟨k + n, rest ++ bytes, h.trans hsteps, hresult⟩

theorem code_eq (h : Steps n m bytes m₁) : m₁.code = m.code := by
  induction h with
  | refl m => rfl
  | head hnext _ ih => exact ih.trans (code_of_next_eq_step hnext)

theorem policy_eq (h : Steps n m bytes m₁) : m₁.policy = m.policy := by
  induction h with
  | refl m => rfl
  | head hnext _ ih => exact ih.trans (policy_of_next_eq_step hnext)

theorem size_eq (h : Steps n m bytes m₁) : m₁.tape.size = m.tape.size := by
  induction h with
  | refl m => rfl
  | head hnext _ ih => exact ih.trans (size_of_next_eq_step hnext)

end Steps

def HaltsAfter (n : Nat) (m : Machine) : Prop :=
  ∃ bytes m', Steps n m bytes m' ∧ m'.Halted

theorem HaltsAfter.rest {n k : Nat} {bytes : List UInt8} (h : m.HaltsAfter n)
    (hsteps : Steps k m bytes m') : ∃ i, n = k + i ∧ m'.HaltsAfter i := by
  obtain ⟨whole, last, hwhole, hhalted⟩ := h
  obtain ⟨i, tail, hn, _, hrest⟩ := hsteps.rest_of_halted hwhole hhalted
  exact ⟨i, hn, tail, last, hrest, hhalted⟩

end Machine

end Brainfuck
