import Brainfuck.Proofs.Execution.Steps
import Brainfuck.Proofs.Structured.Eval

/-!
# Single instructions of a block

Where the instructions of a block stand in the code, and what the machine does at them: at an
instruction that is no bracket, what the store allows, and at either bracket of a loop, to go on
behind the loop or in its body.
-/

namespace Brainfuck

/-! ## Where a block stands in the code -/

def Occurs (code : Code) (k : Nat) (is : List Instr) : Prop :=
  ∃ front back, code.instrs.toList = front ++ is ++ back ∧ front.length = k

namespace Occurs

variable {code : Code} {k : Nat} {is is' : List Instr} {x : Instr}

theorem whole (code : Code) : Occurs code 0 code.instrs.toList :=
  ⟨[], [], by simp, rfl⟩

theorem left (h : Occurs code k (is ++ is')) : Occurs code k is := by
  obtain ⟨front, back, hcode, hfront⟩ := h
  exact ⟨front, is' ++ back, by simp [hcode], hfront⟩

theorem right (h : Occurs code k (is ++ is')) : Occurs code (k + is.length) is' := by
  obtain ⟨front, back, hcode, hfront⟩ := h
  exact ⟨front ++ is, back, by simp [hcode], by simp [hfront]⟩

theorem tail (h : Occurs code k (x :: is)) : Occurs code (k + 1) is := by
  rw [← List.singleton_append] at h
  exact h.right

theorem getElem? (h : Occurs code k (x :: is)) : code.instrs[k]? = some x := by
  obtain ⟨front, back, hcode, rfl⟩ := h
  rw [← Array.getElem?_toList, hcode]
  simp

end Occurs

namespace Block

variable {code : Code} {k : Nat} {a : Atom} {body rest : Block}

theorem occurs_body (h : Occurs code k (loop body rest).instrs) :
    Occurs code (k + 1) body.instrs :=
  h.tail.left

theorem occurs_closing (h : Occurs code k (loop body rest).instrs) :
    Occurs code (k + body.size + 1) (.closing :: rest.instrs) := by
  have hclosing := h.tail.right
  rwa [Nat.add_right_comm] at hclosing

theorem occurs_rest (h : Occurs code k (loop body rest).instrs) :
    Occurs code (k + body.size + 2) rest.instrs :=
  (occurs_closing h).tail

/-- The brackets of a loop are partners, for its body is balanced. -/
theorem partners_of_occurs (h : Occurs code k (loop body rest).instrs) :
    Partners Instr.bracket? code.instrs.toList k (k + body.size + 1) where
  lt := by omega
  opening := Code.bracketAt_eq_opening.2 h.getElem?
  closing := Code.bracketAt_eq_closing.2 (occurs_closing h).getElem?
  balanced := by
    obtain ⟨front, back, hcode, rfl⟩ := h
    have hsplit : front ++ (loop body rest).instrs ++ back =
        front ++ [.opening] ++ body.instrs ++ (.closing :: rest.instrs ++ back) := by
      simp [instrs]
    rw [hcode, hsplit, List.take_left' (by simp [size]; omega), List.drop_left' (by simp)]
    exact body.balanced_instrs

/-- Where a machine enters a block: at its first instruction, or at the end of the loop that stands
there. -/
def Entered (k : Nat) : Block → Nat → Prop
  | .loop body _, pc => pc = k ∨ pc = k + body.size + 1
  | _, pc => pc = k

theorem entered_first (k : Nat) (b : Block) : b.Entered k k := by
  cases b with
  | done | atom a rest => rfl
  | loop body rest => exact .inl rfl

end Block

/-! ## What the machine does there -/

namespace Machine

variable {m : Machine} {out : List UInt8} {k : Nat} {a : Atom} {body rest : Block}

/-- What a program can see of a machine that has put out `out`. -/
def store (m : Machine) (out : List UInt8) : Store where
  cells := m.tape.cells.toList
  head := m.tape.head
  input := m.feed.pending
  output := out

@[simp] theorem head_store (m : Machine) (out : List UInt8) : (m.store out).head = m.tape.head :=
  rfl

@[simp] theorem length_cells_store (m : Machine) (out : List UInt8) :
    (m.store out).cells.length = m.tape.size := rfl

@[simp] theorem input_store (m : Machine) (out : List UInt8) :
    (m.store out).input = m.feed.pending := rfl

@[simp] theorem store_advance (m : Machine) (out : List UInt8) :
    m.advance.store out = m.store out := rfl

@[simp] theorem cell_store (m : Machine) (out : List UInt8) : (m.store out).cell = m.tape.cell := by
  have hlt : m.tape.head < m.tape.cells.toList.length := m.tape.head_lt
  simp [Store.cell, store, Tape.cell, List.getD_eq_getElem?_getD, List.getElem?_eq_getElem hlt]

theorem put_store (m : Machine) (out : List UInt8) (b : UInt8) :
    (m.store out).put b = { m with tape := m.tape.put b }.store out := by
  simp [Store.put, store, Tape.put]

theorem act_toInstr (m : Machine) (out : List UInt8) (a : Atom) :
    match a.apply m.pc (m.store out) with
    | .ok s => ∃ after action, m.act a.toInstr = (after, .ok action) ∧ after.pc = m.pc ∧
        after.store (out ++ action.bytes) = s
    | .error cause => m.act a.toInstr = m.meet a.toInstr cause := by
  cases a with
  | left =>
      cases hleft : m.tape.left? with
      | none =>
          have hhead : (m.store out).head = 0 := Tape.left?_eq_none_iff.1 hleft
          simp only [Atom.apply, if_pos hhead, Atom.toInstr, act, hleft]
          rfl
      | some tape =>
          obtain ⟨hcells, hhead⟩ := Tape.of_left?_eq_some hleft
          have hne : (m.store out).head ≠ 0 := by
            rw [head_store]
            omega
          simp only [Atom.apply, if_neg hne, Atom.toInstr, act, hleft]
          refine ⟨_, _, rfl, rfl, ?_⟩
          simp [store, Action.bytes, hcells, ← hhead]
  | right =>
      cases hright : m.tape.right? with
      | none =>
          have hhead : ¬(m.store out).head + 1 < (m.store out).cells.length := by
            rw [head_store, length_cells_store, Tape.right?_eq_none_iff.1 hright]
            exact Nat.lt_irrefl _
          simp only [Atom.apply, if_neg hhead, Atom.toInstr, act, hright]
          rfl
      | some tape =>
          obtain ⟨hcells, hhead⟩ := Tape.of_right?_eq_some hright
          have hlt : (m.store out).head + 1 < (m.store out).cells.length := by
            rw [head_store, length_cells_store, ← hhead, Tape.size, ← hcells]
            exact tape.head_lt
          simp only [Atom.apply, if_pos hlt, Atom.toInstr, act, hright]
          refine ⟨_, _, rfl, rfl, ?_⟩
          simp [store, Action.bytes, hcells, hhead]
  | inc | dec =>
      refine ⟨_, _, rfl, rfl, ?_⟩
      simp [put_store, Action.bytes]
  | put =>
      refine ⟨_, _, rfl, rfl, ?_⟩
      rw [cell_store]
      rfl
  | get =>
      cases hpending : m.feed.pending with
      | nil => simp only [Atom.apply, Atom.toInstr, act, Feed.next?, input_store, hpending]
      | cons b bs =>
          simp only [Atom.apply, Atom.toInstr, act, Feed.next?, input_store, hpending]
          refine ⟨_, _, rfl, rfl, ?_⟩
          rw [put_store]
          simp [store, Action.bytes]

theorem next_of_apply_eq_ok (h : m.code.instrs[m.pc]? = some a.toInstr) {s : Store}
    (happly : a.apply m.pc (m.store out) = .ok s) :
    ∃ bytes m', m.next = .step bytes m' ∧ m'.pc = m.pc + 1 ∧ m'.store (out ++ bytes) = s := by
  have hact := act_toInstr m out a
  rw [happly] at hact
  obtain ⟨after, action, hact, hpc, hstore⟩ := hact
  exact ⟨action.bytes, after.advance, next_of_act_eq_ok h hact, by rw [pc_advance, hpc], hstore⟩

theorem next_of_strict (h : m.code.instrs[m.pc]? = some a.toInstr) (hpolicy : m.policy = .strict)
    {cause : Fault} (happly : a.apply m.pc (m.store out) = .error cause) :
    m.next = .stuck cause := by
  have hact := act_toInstr m out a
  rw [happly] at hact
  simp only [meet, hpolicy] at hact
  exact next_of_act_eq_error h hact

theorem next_of_permissive (h : m.code.instrs[m.pc]? = some a.toInstr)
    (hpolicy : m.policy = .permissive) {cause : Fault}
    (happly : a.apply m.pc (m.store out) = .error cause) : m.next = .step [] m.advance := by
  have hact := act_toInstr m out a
  rw [happly] at hact
  simp only [meet, hpolicy] at hact
  exact next_of_act_eq_ok h hact

/-- At either bracket of a loop the machine goes on behind the loop if the cell is zero, and in its
body otherwise. -/
theorem next_of_loop (hlinked : m.IsLinked) (h : Occurs m.code k (Block.loop body rest).instrs)
    (hpc : (Block.loop body rest).Entered k m.pc) :
    ∃ m', m.next = .step [] m' ∧ (∀ out, m'.store out = m.store out) ∧
      m'.pc = if m.tape.cell = 0 then k + body.size + 2 else k + 1 := by
  obtain ⟨hforward, hback⟩ := Code.partner_of_partners hlinked (Block.partners_of_occurs h)
  rcases hpc with hpc | hpc
  · have hinstr : m.code.instrs[m.pc]? = some .opening := by
      rw [hpc]
      exact h.getElem?
    by_cases hcell : m.tape.cell = 0
    · have hact : m.act .opening = ({ m with pc := m.code.partner m.pc },
          .ok (.jumpedForward (m.code.partner m.pc))) := if_pos hcell
      refine ⟨_, next_of_act_eq_ok hinstr hact, fun _ => rfl, ?_⟩
      rw [if_pos hcell, pc_advance, hpc, hforward]
    · have hact : m.act .opening = (m, .ok .entered) := if_neg hcell
      refine ⟨_, next_of_act_eq_ok hinstr hact, fun _ => rfl, ?_⟩
      rw [if_neg hcell, pc_advance, hpc]
  · have hinstr : m.code.instrs[m.pc]? = some .closing := by
      rw [hpc]
      exact (Block.occurs_closing h).getElem?
    by_cases hcell : m.tape.cell = 0
    · have hact : m.act .closing = (m, .ok .exited) := if_pos hcell
      refine ⟨_, next_of_act_eq_ok hinstr hact, fun _ => rfl, ?_⟩
      rw [if_pos hcell, pc_advance, hpc]
    · have hact : m.act .closing = ({ m with pc := m.code.partner m.pc },
          .ok (.jumpedBack (m.code.partner m.pc))) := if_neg hcell
      refine ⟨_, next_of_act_eq_ok hinstr hact, fun _ => rfl, ?_⟩
      rw [if_neg hcell, pc_advance, hpc, hback]

end Machine

end Brainfuck
