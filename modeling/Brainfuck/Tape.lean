/-!
# Tape

A row of byte cells, fixed in number, with a head on one of them. Cell arithmetic wraps around.
-/

namespace Brainfuck

@[ext]
structure Tape where
  cells : Array UInt8
  head : Nat
  head_lt : head < cells.size

namespace Tape

def blank (size : Nat) (h : 0 < size) : Tape where
  cells := Array.replicate size 0
  head := 0
  head_lt := by simpa using h

def size (t : Tape) : Nat :=
  t.cells.size

/-- The cell under the head. -/
def cell (t : Tape) : UInt8 :=
  getElem t.cells t.head t.head_lt

def put (t : Tape) (b : UInt8) : Tape where
  cells := t.cells.set t.head b t.head_lt
  head := t.head
  head_lt := by simpa using t.head_lt

def left? (t : Tape) : Option Tape :=
  if t.head = 0 then none
  else some { t with head := t.head - 1, head_lt := Nat.lt_of_le_of_lt (Nat.sub_le _ _) t.head_lt }

def right? (t : Tape) : Option Tape :=
  if h : t.head + 1 < t.cells.size then some { t with head := t.head + 1, head_lt := h } else none

@[simp] theorem size_blank (size : Nat) (h : 0 < size) : (blank size h).size = size := by
  simp [blank, Tape.size]

@[simp] theorem size_put (t : Tape) (b : UInt8) : (t.put b).size = t.size := by
  simp [put, Tape.size]

@[simp] theorem head_put (t : Tape) (b : UInt8) : (t.put b).head = t.head := rfl

@[simp] theorem cell_put (t : Tape) (b : UInt8) : (t.put b).cell = b := by
  simp [put, cell]

theorem left?_eq_none_iff {t : Tape} : t.left? = none ↔ t.head = 0 := by
  simp [left?]

theorem right?_eq_none_iff {t : Tape} : t.right? = none ↔ t.head + 1 = t.size := by
  have h := t.head_lt
  unfold right? Tape.size
  split
  · next hlt =>
      refine ⟨fun hsome => by simp at hsome, fun heq => absurd hlt ?_⟩
      omega
  · next hge =>
      refine ⟨fun _ => ?_, fun _ => rfl⟩
      omega

theorem of_left?_eq_some {t u : Tape} (h : t.left? = some u) :
    u.cells = t.cells ∧ u.head + 1 = t.head := by
  unfold left? at h
  split at h
  · simp at h
  · next hne =>
      obtain rfl := Option.some.inj h
      exact ⟨rfl, Nat.sub_add_cancel (Nat.pos_of_ne_zero hne)⟩

theorem of_right?_eq_some {t u : Tape} (h : t.right? = some u) :
    u.cells = t.cells ∧ u.head = t.head + 1 := by
  unfold right? at h
  split at h
  · obtain rfl := Option.some.inj h
    exact ⟨rfl, rfl⟩
  · simp at h

/-- The cells that differ from zero, with their indices. -/
def marks (t : Tape) : List (Nat × UInt8) :=
  let collect (s : Nat × List (Nat × UInt8)) (b : UInt8) : Nat × List (Nat × UInt8) :=
    (s.1 + 1, if b = 0 then s.2 else (s.1, b) :: s.2)
  (t.cells.foldl collect (0, [])).2.reverse

end Tape

end Brainfuck
