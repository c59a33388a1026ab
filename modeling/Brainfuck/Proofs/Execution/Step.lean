import Brainfuck.Execution.Run
import Brainfuck.Proofs.Brackets.Linking

/-!
# What one turn does

One lemma for each field of the machine says what carrying out an instruction does to it, and one
inversion lemma says what a turn does to the machine, for every host, mode and control.  Nothing
below this module opens `Machine.act` for a property that holds of all instructions.
-/

namespace Brainfuck

namespace Code

variable {code : Code}

theorem partner_eq_of_getElem? {i j : Nat} (h : code.partners[i]? = some j) :
    code.partner i = j := by
  rw [partner, Array.getD_eq_getD_getElem?, h, Option.getD_some]

theorem partner_of_partners (h : Linked code.size code.instrs.toList [] code.partners) {i j : Nat}
    (hij : Partners Instr.bracket? code.instrs.toList i j) :
    code.partner i = j ∧ code.partner j = i :=
  ⟨partner_eq_of_getElem? (h.linked i j hij).1, partner_eq_of_getElem? (h.linked i j hij).2⟩

theorem partner_lt (h : Linked code.size code.instrs.toList [] code.partners) {i : Nat}
    (hi : i < code.size) : code.partner i < code.size := by
  obtain ⟨j, hj, hto, _⟩ := (matched_of_linked h).involutive i hi
  rw [partner_eq_of_getElem? hto]
  exact hj

end Code

namespace Machine

variable {m : Machine} {instr : Instr}

def IsLinked (m : Machine) : Prop :=
  Linked m.code.size m.code.instrs.toList [] m.code.partners

@[simp] theorem code_advance (m : Machine) : m.advance.code = m.code := rfl

@[simp] theorem pc_advance (m : Machine) : m.advance.pc = m.pc + 1 := rfl

theorem meet_eq_error_iff {after : Machine} {cause cause' : Fault} :
    m.meet instr cause' = (after, .error cause) ↔
      after = m ∧ cause' = cause ∧ m.policy = .strict := by
  unfold meet
  cases m.policy with
  | strict => simp [eq_comm]
  | permissive => simp

/-- A fault leaves everything as it was, and only a strict machine lets it happen. -/
theorem of_act_eq_error {after : Machine} {cause : Fault}
    (h : m.act instr = (after, .error cause)) : after = m ∧ m.policy = .strict := by
  cases instr with
  | left | right | get =>
      simp only [act] at h
      split at h
      · cases h
      · obtain ⟨hafter, _, hpolicy⟩ := meet_eq_error_iff.1 h
        exact ⟨hafter, hpolicy⟩
  | inc | dec | put => cases h
  | opening | closing =>
      simp only [act] at h
      split at h <;> cases h

theorem act_pc_cases (m : Machine) (instr : Instr) :
    (m.act instr).1.pc = m.pc ∨ (m.act instr).1 = { m with pc := m.code.partner m.pc } ∧
      (instr = .opening ∧ m.tape.cell = 0 ∨ instr = .closing ∧ m.tape.cell ≠ 0) := by
  cases instr with
  | left | right | get =>
      simp only [act]
      split
      · exact .inl rfl
      · exact .inl (by rw [meet_fst])
  | inc | dec | put => exact .inl rfl
  | opening =>
      by_cases hzero : m.tape.cell = 0
      · exact .inr ⟨by rw [act, if_pos hzero], .inl ⟨rfl, hzero⟩⟩
      · exact .inl (by rw [act, if_neg hzero])
  | closing =>
      by_cases hzero : m.tape.cell = 0
      · exact .inl (by rw [act, if_pos hzero])
      · exact .inr ⟨by rw [act, if_neg hzero], .inr ⟨rfl, hzero⟩⟩

theorem pc_act (m : Machine) (instr : Instr) :
    (m.act instr).1.pc = m.pc ∨ (m.act instr).1.pc = m.code.partner m.pc := by
  rcases m.act_pc_cases instr with hpc | ⟨hjumped, _⟩
  · exact .inl hpc
  · exact .inr (by rw [hjumped])

/-- The byte that a turn at this machine takes from the queue: the front one at a `,` that meets a
queue with something in it. -/
def read? (m : Machine) : Option UInt8 :=
  if m.code.instrs[m.pc]? = some .get then m.feed.pending.head? else none

theorem feed_act (h : m.code.instrs[m.pc]? = some instr) :
    m.feed.pending = m.read?.toList ++ (m.act instr).1.feed.pending := by
  cases instr with
  | get =>
      rw [read?, if_pos h]
      cases hpending : m.feed.pending with
      | nil => simp [act, Feed.next?, hpending]
      | cons b bs => simp [act, Feed.next?, hpending]
  | left | right =>
      rw [read?, if_neg (by simp [h])]
      simp only [act]
      split
      · rfl
      · rw [meet_fst]
        rfl
  | inc | dec | put =>
      rw [read?, if_neg (by simp [h])]
      rfl
  | opening | closing =>
      rw [read?, if_neg (by simp [h])]
      simp only [act]
      split <;> rfl

/-! ## Turns -/

variable {σ : Type} {host : Host σ} {control : Option Control} {s : σ} {steps : Nat}

/-- The instruction that a turn carries out: none at the end of the code, and none if the controls
stop the turn. -/
def carried? (m : Machine) (host : Host σ) (control : Option Control) (s : σ) (steps : Nat) :
    Option Instr :=
  match m.code.instrs[m.pc]?, control with
  | none, _ => none
  | some instr, none => some instr
  | some instr, some control =>
    match control.halt? host s steps with
    | (_, some _) => none
    | (_, none) => some instr

theorem turn_of_carried?_eq_none (mode : Mode) (h : m.carried? host control s steps = none) :
    ∃ s' result, m.turn host mode control s steps = (m, s', some result) := by
  unfold carried? at h
  unfold turn
  cases hinstr : m.code.instrs[m.pc]? with
  | none => exact ⟨s, .ok (), rfl⟩
  | some instr =>
      cases control with
      | none => simp [hinstr] at h
      | some control =>
          rcases hhalt : control.halt? host s steps with ⟨s', _ | failure⟩
          · simp [hinstr, hhalt] at h
          · exact ⟨s', .error failure, by simp [hhalt]⟩

theorem turn_of_carried?_eq_some (mode : Mode)
    (h : m.carried? host control s steps = some instr) :
    m.code.instrs[m.pc]? = some instr ∧
      ∃ s', m.turn host mode control s steps = m.perform host mode s' steps instr := by
  unfold carried? at h
  unfold turn
  cases hinstr : m.code.instrs[m.pc]? with
  | none => simp [hinstr] at h
  | some instr' =>
      cases control with
      | none =>
          simp only [hinstr, Option.some.injEq] at h
          subst h
          exact ⟨rfl, s, rfl⟩
      | some control =>
          rcases hhalt : control.halt? host s steps with ⟨s', _ | failure⟩
          · simp only [hinstr, hhalt, Option.some.injEq] at h
            subst h
            exact ⟨rfl, s', by simp [hhalt]⟩
          · simp [hinstr, hhalt] at h

/-- A turn that carries out an instruction either steps past it, or ends the loop where the
instruction left the machine. -/
theorem perform_cases (m : Machine) (host : Host σ) (mode : Mode) (s : σ) (step : Nat)
    (instr : Instr) :
    (∃ s', m.perform host mode s step instr = ((m.act instr).1.advance, s', none)) ∨
      ∃ s' result, m.perform host mode s step instr = ((m.act instr).1, s', some result) := by
  unfold perform
  obtain ⟨after, answer⟩ := m.act instr
  cases answer with
  | error cause => exact .inr ⟨s, _, rfl⟩
  | ok action =>
      simp only [settle]
      split
      · exact .inr ⟨_, _, rfl⟩
      · exact .inl ⟨_, rfl⟩

/-! ## Loaded machines -/

theorem load_eq_ok_iff {source input : String} {config : MachineConfig} :
    load source input config = .ok m ↔
      ∃ (h : 0 < config.tapeSize) (code : Code), Code.parse source = .ok code ∧
        m = {
          code
          tape := Tape.blank config.tapeSize h
          pc := 0
          feed := Feed.ofText config.feedMode input
          policy := config.policy } := by
  unfold load
  by_cases h : 0 < config.tapeSize
  · rw [dif_pos h]
    cases hparse : Code.parse source with
    | error u => simp
    | ok code => simp [h, eq_comm]
  · rw [dif_neg h]
    simp [h]

theorem exists_load {source : String} {config : MachineConfig}
    (hbalanced : Balanced (brackets source.toList)) (hsize : 0 < config.tapeSize)
    (input : String) : ∃ m, load source input config = .ok m :=
  ⟨_, load_eq_ok_iff.2 ⟨hsize, _, Code.parse_eq_ok_iff.2 ⟨hbalanced, rfl⟩, rfl⟩⟩

theorem isLinked_of_load {source input : String} {config : MachineConfig}
    (h : load source input config = .ok m) : m.IsLinked := by
  obtain ⟨_, code, hparse, rfl⟩ := load_eq_ok_iff.1 h
  exact Code.linked_of_parse hparse

theorem policy_of_load {source input : String} {config : MachineConfig}
    (h : load source input config = .ok m) : m.policy = config.policy := by
  obtain ⟨_, code, _, rfl⟩ := load_eq_ok_iff.1 h
  rfl

theorem pc_le_of_load {source input : String} {config : MachineConfig}
    (h : load source input config = .ok m) : m.pc ≤ m.code.size := by
  obtain ⟨_, code, _, rfl⟩ := load_eq_ok_iff.1 h
  exact Nat.zero_le _

end Machine

end Brainfuck
