import Brainfuck.Proofs.Brackets.Linking

/-!
# Instruction sequences as trees

A block is a derivation of `P ::= ε | op P | [ P ] P`.  Every sequence of instructions with
balanced brackets is spelled by exactly one block.
-/

namespace Brainfuck

inductive Atom where
  | left
  | right
  | inc
  | dec
  | put
  | get
  deriving DecidableEq

def Atom.toInstr : Atom → Instr
  | .left => .left
  | .right => .right
  | .inc => .inc
  | .dec => .dec
  | .put => .put
  | .get => .get

theorem Atom.exists_toInstr {x : Instr} (h : x.bracket? = none) : ∃ a : Atom, a.toInstr = x := by
  cases x with
  | left => exact ⟨.left, rfl⟩
  | right => exact ⟨.right, rfl⟩
  | inc => exact ⟨.inc, rfl⟩
  | dec => exact ⟨.dec, rfl⟩
  | put => exact ⟨.put, rfl⟩
  | get => exact ⟨.get, rfl⟩
  | opening | closing => cases h

theorem Atom.toInstr_injective {a b : Atom} (h : a.toInstr = b.toInstr) : a = b := by
  cases a <;> cases b <;> first | rfl | cases h

@[simp] theorem Atom.bracket?_toInstr (a : Atom) : a.toInstr.bracket? = none := by
  cases a <;> rfl

inductive Block where
  | done
  | atom (a : Atom) (rest : Block)
  | loop (body rest : Block)

namespace Block

def instrs : Block → List Instr
  | done => []
  | atom a rest => a.toInstr :: rest.instrs
  | loop body rest => .opening :: (body.instrs ++ .closing :: rest.instrs)

def size (b : Block) : Nat :=
  b.instrs.length

@[simp] theorem size_atom (a : Atom) (rest : Block) : (atom a rest).size = rest.size + 1 := rfl

@[simp] theorem size_loop (body rest : Block) :
    (loop body rest).size = body.size + rest.size + 2 := by
  simp only [size, instrs, List.length_cons, List.length_append]
  omega

theorem balanced_instrs (b : Block) : Balanced (b.instrs.filterMap Instr.bracket?) := by
  induction b with
  | done => exact .nil
  | atom a rest ih => simpa [instrs] using ih
  | loop body rest ihbody ihrest =>
      have hloop := Balanced.loop ihbody ihrest
      simpa [instrs, Instr.bracket?] using hloop

/-! ## Existence -/

/-- Instructions before a block that are no brackets belong to a longer block. -/
theorem exists_prepend {is : List Instr} (h : ∀ x ∈ is, x.bracket? = none) (b : Block) :
    ∃ b' : Block, b'.instrs = is ++ b.instrs := by
  induction is with
  | nil => exact ⟨b, rfl⟩
  | cons x is ih =>
      obtain ⟨b', hb'⟩ := ih fun y hy => h y (List.mem_cons_of_mem _ hy)
      obtain ⟨a, ha⟩ := Atom.exists_toInstr (h x List.mem_cons_self)
      exact ⟨.atom a b', by rw [instrs, ha, hb', List.cons_append]⟩

theorem exists_of_balanced {w : List Bracket} (hw : Balanced w) {is : List Instr}
    (h : is.filterMap Instr.bracket? = w) : ∃ b : Block, b.instrs = is := by
  induction hw generalizing is with
  | nil =>
      obtain ⟨b, hb⟩ := exists_prepend (List.filterMap_eq_nil_iff.1 h) done
      exact ⟨b, by rw [hb, instrs, List.append_nil]⟩
  | @loop body rest _ _ ihbody ihrest =>
      -- Cut the sequence at the first bracket and at the bracket that closes it.
      obtain ⟨front, x, tail, rfl, hfront, hx, htail⟩ := List.filterMap_eq_cons_iff.1 h
      obtain ⟨inner, outer, rfl, hinner, houter⟩ := List.filterMap_eq_append_iff.1 htail
      obtain ⟨gap, y, back, rfl, hgap, hy, hback⟩ := List.filterMap_eq_cons_iff.1 houter
      obtain rfl := Instr.bracket?_eq_opening.1 hx
      obtain rfl := Instr.bracket?_eq_closing.1 hy
      have hbody : (inner ++ gap).filterMap Instr.bracket? = body := by
        rw [List.filterMap_append, hinner, List.filterMap_eq_nil_iff.2 hgap, List.append_nil]
      obtain ⟨inside, hinside⟩ := ihbody hbody
      obtain ⟨after, hafter⟩ := ihrest hback
      obtain ⟨b, hb⟩ := exists_prepend hfront (.loop inside after)
      refine ⟨b, ?_⟩
      rw [hb, instrs, hinside, hafter]
      simp

/-! ## Uniqueness -/

/-- Nothing follows, or the end of an enclosing loop does. -/
def Ends (is : List Instr) : Prop :=
  ∀ x ∈ is.head?, x = .closing

theorem eq_of_instrs_append {b b' : Block} {is is' : List Instr} (his : Ends is)
    (his' : Ends is') (h : b.instrs ++ is = b'.instrs ++ is') : b = b' ∧ is = is' := by
  induction b generalizing b' is is' with
  | done =>
      cases b' with
      | done => exact ⟨rfl, h⟩
      | atom a rest =>
          have hclose := his a.toInstr (by rw [show is = _ from h]; rfl)
          cases a <;> cases hclose
      | loop body rest =>
          have hclose := his .opening (by rw [show is = _ from h]; rfl)
          cases hclose
  | atom a rest ih =>
      cases b' with
      | done =>
          have hclose := his' a.toInstr (by rw [show is' = _ from h.symm]; rfl)
          cases a <;> cases hclose
      | atom a' rest' =>
          obtain ⟨hhead, htail⟩ := List.cons.inj h
          obtain rfl := Atom.toInstr_injective hhead
          obtain ⟨rfl, hend⟩ := ih his his' htail
          exact ⟨rfl, hend⟩
      | loop body rest =>
          obtain ⟨hhead, _⟩ := List.cons.inj h
          cases a <;> cases hhead
  | loop body rest ihbody ihrest =>
      cases b' with
      | done =>
          have hclose := his' .opening (by rw [show is' = _ from h.symm]; rfl)
          cases hclose
      | atom a rest' =>
          obtain ⟨hhead, _⟩ := List.cons.inj h
          cases a <;> cases hhead
      | loop body' rest' =>
          simp only [instrs, List.cons_append, List.append_assoc] at h
          obtain ⟨_, htail⟩ := List.cons.inj h
          obtain ⟨rfl, houter⟩ := ihbody (by simp [Ends]) (by simp [Ends]) htail
          obtain ⟨rfl, hend⟩ := ihrest his his' (List.cons.inj houter).2
          exact ⟨rfl, hend⟩

theorem instrs_injective {b b' : Block} (h : b.instrs = b'.instrs) : b = b' := by
  have hnil : Ends [] := by
    simp [Ends]
  have hends : b.instrs ++ [] = b'.instrs ++ [] := by
    rw [h]
  exact (eq_of_instrs_append hnil hnil hends).1

end Block

end Brainfuck
