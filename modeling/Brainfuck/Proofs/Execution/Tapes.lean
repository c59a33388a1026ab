import Brainfuck.Proofs.Execution.Faults
import Brainfuck.Proofs.Execution.Lockstep

/-!
# Tapes of different sizes

More cells on the right of a tape are noticed by one instruction alone, a move to the right at what
was the last cell.  So strict runs on a tape and on a larger one are in lockstep until such a move
ends the first run.  The second one then moves on to the first of its additional cells, and has not
written to any of them before.
-/

namespace Brainfuck

namespace Tape

def widen (k : Nat) (t : Tape) : Tape where
  cells := t.cells ++ Array.replicate k 0
  head := t.head
  head_lt := by
    rw [Array.size_append]
    exact Nat.lt_add_right _ t.head_lt

variable {k : Nat} {t u : Tape}

@[simp] theorem head_widen (k : Nat) (t : Tape) : (t.widen k).head = t.head := rfl

@[simp] theorem cells_widen (k : Nat) (t : Tape) :
    (t.widen k).cells = t.cells ++ Array.replicate k 0 := rfl

@[simp] theorem size_widen (k : Nat) (t : Tape) : (t.widen k).size = t.size + k := by
  simp [Tape.size]

@[simp] theorem cell_widen (k : Nat) (t : Tape) : (t.widen k).cell = t.cell :=
  Array.getElem_append_left t.head_lt

theorem put_widen (k : Nat) (t : Tape) (b : UInt8) : (t.widen k).put b = (t.put b).widen k := by
  ext1
  · exact Array.set_append_left t.head_lt
  · rfl

theorem left?_widen (k : Nat) (t : Tape) : (t.widen k).left? = t.left?.map (widen k) := by
  unfold left?
  by_cases hzero : t.head = 0
  · rw [if_pos hzero, if_pos (show (t.widen k).head = 0 from hzero)]
    rfl
  · rw [if_neg hzero, if_neg (show (t.widen k).head ≠ 0 from hzero)]
    rfl

theorem right?_widen (h : t.right? = some u) : (t.widen k).right? = some (u.widen k) := by
  unfold right? at h ⊢
  split at h
  · next hlt =>
      obtain rfl := Option.some.inj h
      have hwide : t.head + 1 < (t.cells ++ Array.replicate k (0 : UInt8)).size := by
        rw [Array.size_append]
        omega
      exact dif_pos hwide
  · cases h

theorem exists_right?_widen (h : t.right? = none) (hk : 0 < k) :
    ∃ u, (t.widen k).right? = some u ∧ u.head = t.size ∧ u.cells = (t.widen k).cells := by
  rw [right?_eq_none_iff] at h
  cases hright : (t.widen k).right? with
  | none =>
      rw [right?_eq_none_iff, head_widen, size_widen] at hright
      omega
  | some u =>
      obtain ⟨hcells, hhead⟩ := of_right?_eq_some hright
      exact ⟨u, rfl, hhead.trans h, hcells⟩

theorem widen_blank {n m : Nat} (hn : 0 < n) (hm : 0 < m) (h : n ≤ m) :
    (blank n hn).widen (m - n) = blank m hm := by
  ext1
  · rw [cells_widen, blank, blank, Array.replicate_append_replicate, Nat.add_sub_cancel' h]
  · rfl

end Tape

namespace Machine

def widen (k : Nat) (m : Machine) : Machine :=
  { m with tape := m.tape.widen k }

def AtRightEdge (m : Machine) : Prop :=
  m.code.instrs[m.pc]? = some .right ∧ m.tape.right? = none

variable {m m' : Machine} {k n : Nat} {instr : Instr} {bytes : List UInt8}

@[simp] theorem tape_widen (k : Nat) (m : Machine) : (m.widen k).tape = m.tape.widen k := rfl

@[simp] theorem feed_widen (k : Nat) (m : Machine) : (m.widen k).feed = m.feed := rfl

/-- Only at the right edge does an instruction notice that there are more cells. -/
theorem act_widen (hinstr : m.code.instrs[m.pc]? = some instr) (hedge : ¬m.AtRightEdge) (k : Nat) :
    (m.widen k).act instr = ((m.act instr).1.widen k, (m.act instr).2) := by
  cases instr with
  | left =>
      -- The left edge is where it was, and so are the faults there.
      rw [act, act, tape_widen, Tape.left?_widen]
      cases m.tape.left? with
      | some tape => rfl
      | none => exact meet_map rfl .left _
  | right =>
      cases hright : m.tape.right? with
      | none => exact absurd ⟨hinstr, hright⟩ hedge
      | some tape =>
          rw [act, act, tape_widen, Tape.right?_widen hright, hright]
          rfl
  | inc | dec =>
      simp only [act, tape_widen, Tape.put_widen, Tape.cell_widen, Tape.head_widen]
      rfl
  | put =>
      simp only [act, tape_widen, Tape.cell_widen]
  | get =>
      rw [act, act, feed_widen, tape_widen]
      rcases m.feed.next? with _ | ⟨byte, feed⟩
      · exact meet_map rfl .get _
      · simp only [Tape.put_widen]
        rfl
  | opening | closing =>
      simp only [act, tape_widen, Tape.cell_widen]
      split <;> rfl

theorem lockstep_widen (k : Nat) : Lockstep (widen k) AtRightEdge where
  code _ := rfl
  pc _ := rfl
  head _ := rfl
  cell m := m.tape.cell_widen k
  advance _ := rfl
  act hinstr hedge := act_widen hinstr hedge k

theorem load_widen {source input : String} {n size : Nat} (config : MachineConfig)
    (h : load source input { config with tapeSize := n } = .ok m) (hle : n ≤ size) :
    load source input { config with tapeSize := size } = .ok (m.widen (size - n)) := by
  obtain ⟨hpos, code, hparse, rfl⟩ := load_eq_ok_iff.1 h
  have hpos' : 0 < size := Nat.lt_of_lt_of_le hpos hle
  refine load_eq_ok_iff.2 ⟨hpos', code, hparse, ?_⟩
  rw [widen, Tape.widen_blank hpos hpos' hle]

/-! ## The right edge -/

theorem AtRightEdge.next_eq_stuck (h : m.AtRightEdge) (hstrict : m.policy = .strict) :
    m.next = .stuck (.outOfBounds m.pc m.tape.head '>') := by
  apply next_of_act_eq_error h.1
  rw [act, h.2, meet, hstrict]

theorem atRightEdge_of_next_eq_stuck {ip head : Nat}
    (h : m.next = .stuck (.outOfBounds ip head '>')) :
    m.AtRightEdge ∧ m.tape.head = head ∧ head = m.tape.size - 1 := by
  obtain ⟨_, rfl, rfl, hsign⟩ := of_next_eq_stuck h
  have hlt : m.tape.head < m.tape.size := m.tape.head_lt
  rcases hsign with ⟨hleft, _⟩ | ⟨_, hinstr, hlast⟩
  · cases hleft
  · refine ⟨⟨hinstr, Tape.right?_eq_none_iff.2 ?_⟩, rfl, hlast⟩
    omega

theorem Steps.avoids_rightEdge (h : Steps n m bytes m') (hstrict : m.policy = .strict) :
    Avoids AtRightEdge n m := by
  refine .of_halted (fun mid hpolicy hedge => ?_) h
  exact halted_of_next_eq_stuck (hedge.next_eq_stuck (hpolicy.trans hstrict))

theorem AtRightEdge.exists_next_widen (h : m.AtRightEdge) (hk : 0 < k) :
    ∃ tape, tape.head = m.tape.size ∧ tape.cells = m.tape.cells ++ Array.replicate k 0 ∧
      (m.widen k).next = .step [] { m with tape, pc := m.pc + 1 } := by
  obtain ⟨tape, hright, hhead, hcells⟩ := Tape.exists_right?_widen h.2 hk
  refine ⟨tape, hhead, hcells, ?_⟩
  have hact : (m.widen k).act .right = ({ m with tape }, .ok (.moved tape.head)) := by
    rw [act, tape_widen, hright]
    rfl
  exact next_of_act_eq_ok (m := m.widen k) h.1 hact

end Machine

open Machine

/-- Balanced code is loaded on tapes of any two sizes above zero under the strict policy, and calls
on the two machines, in the same mode, with the same budget and the same readings of the cancel
flag, compare as follows.  At no number of turns do they differ before the one on the smaller tape
reports a move past its last cell, in what they return or in what they have written, and the larger
machine is the smaller one with more cells, all of them zero.  If the call on the smaller tape
reports such a move after a number of instructions, its head is on the last cell, and the larger
machine has come as far after that many.  With one turn more its head is on the first of the
additional cells. -/
theorem larger_tape_postpones_right_edge {source : String} {n size : Nat} (config : MachineConfig)
    (hbalanced : Balanced (brackets source.toList)) (hpos : 0 < n) (hle : n ≤ size)
    (input : String) :
    ∃ small large,
      load source input { config with policy := .strict, tapeSize := n } = .ok small ∧
      load source input { config with policy := .strict, tapeSize := size } = .ok large ∧
      ∀ (schedule : Nat → Bool) (o o' : ScheduledOutlet schedule) (mode : Mode)
        (control : Option Control) (fuel : Nat),
        let r := o.report small mode control fuel
        let p := o'.report large mode control
        ((∀ ip head, r.outcome ≠ some (.error (.fault (.outOfBounds ip head '>')))) →
          (p fuel).outcome = r.outcome ∧ (p fuel).steps = r.steps ∧
          (p fuel).machine = r.machine.widen (size - n) ∧ o'.output (p fuel) = o.output r) ∧
        ∀ ip head, r.outcome = some (.error (.fault (.outOfBounds ip head '>'))) →
          head = n - 1 ∧ r.machine.tape.head = head ∧
          (n < size →
            ((p r.steps).outcome = none ∧ (p r.steps).steps = r.steps ∧
              (p r.steps).machine = r.machine.widen (size - n) ∧
              o'.output (p r.steps) = o.output r) ∧
            ∃ tape : Tape,
              tape.head = n ∧ tape.cells = r.machine.tape.cells ++ Array.replicate (size - n) 0 ∧
              (p (r.steps + 1)).outcome = none ∧ (p (r.steps + 1)).steps = r.steps + 1 ∧
              (p (r.steps + 1)).machine = { r.machine with tape, pc := r.machine.pc + 1 } ∧
              (mode = .plain → o'.output (p (r.steps + 1)) = o.output r)) := by
  have hpos' : 0 < { config with policy := .strict, tapeSize := n }.tapeSize := hpos
  obtain ⟨m, hload⟩ := exists_load hbalanced hpos' input
  have hstrict := policy_of_load hload
  have hcells : m.tape.size = n := by
    obtain ⟨_, code, _, rfl⟩ := load_eq_ok_iff.1 hload
    exact Tape.size_blank n hpos
  refine ⟨m, m.widen (size - n), hload, load_widen { config with policy := .strict } hload hle,
    fun schedule o o' mode control fuel => ?_⟩
  obtain ⟨bytes, hsteps⟩ := (o.reaches m mode control fuel).1.steps
  have havoids := hsteps.avoids_rightEdge hstrict
  have hwide := lockstep_widen (size - n)
  refine ⟨fun hinside => ?_, fun ip head hfault => ?_⟩
  · refine o.report_of_lockstep hwide o' havoids fun hreturns hedge => ?_
    have hstuck := hedge.next_eq_stuck (hsteps.policy_eq.trans hstrict)
    exact o.verdict_ne_none_of_stuck hstuck hreturns (hinside _ _)
  · have hstuck := ScheduledOutlet.next_eq_stuck_of_fault hfault
    obtain ⟨hedge, hsame, hlast⟩ := atRightEdge_of_next_eq_stuck hstuck
    rw [hsteps.size_eq, hcells] at hlast
    refine ⟨hlast, hsame, fun hlt => ?_⟩
    obtain ⟨tape, hhead, htape, hnext⟩ := hedge.exists_next_widen (Nat.sub_pos_of_lt hlt)
    rw [hsteps.size_eq, hcells] at hhead
    obtain ⟨hthere, hafter⟩ := ScheduledOutlet.report_past_fault hwide hfault havoids hnext o'
    exact ⟨hthere, tape, hhead, htape, hafter⟩

/-- A loop that moves on and reads, on two cells and on five. -/
theorem loop_past_right_edge :
    ∃ small large,
      load "+[>,]" "ab" { tapeSize := 2, feedMode := .stream } = .ok small ∧
      load "+[>,]" "ab" { tapeSize := 5, feedMode := .stream } = .ok large ∧
      let o := ScheduledOutlet.counting fun _ => false
      (o.report small .plain none 9).outcome = some (.error (.fault (.outOfBounds 2 1 '>'))) ∧
      (o.report large .plain none 5).machine = (o.report small .plain none 9).machine.widen 3 ∧
      (o.report large .plain none 6).machine.tape.head = 2 := by
  have hbalanced : Balanced (brackets "+[>,]".toList) := .loop .nil .nil
  obtain ⟨small, large, hsmall, hlarge, hcompare⟩ := larger_tape_postpones_right_edge
    { feedMode := .stream } hbalanced Nat.two_pos (show 2 ≤ 5 by decide) "ab"
  obtain rfl := Except.ok.inj (hsmall.symm.trans rfl)
  obtain ⟨_, _, hgoes⟩ := (hcompare _ (.counting fun _ => false) (.counting fun _ => false)
    .plain none 9).2 2 1 rfl
  obtain ⟨hthere, tape, hhead, _, _, _, hafter, _⟩ := hgoes (by decide)
  refine ⟨_, large, hsmall, hlarge, rfl, hthere.2.2.1, ?_⟩
  exact (congrArg (fun m : Machine => m.tape.head) hafter).trans hhead

end Brainfuck
