import Brainfuck.Proofs.Execution.Session

/-!
# Comments

The bracket check walks over all characters of a source, and what is loaded is made of its
instructions alone.  To the walk a comment is a character that moves the ones behind it.  So the
walk over a source without its comments is the walk over the source, with the characters numbered
anew: each gets the number of instruction characters before it.
-/

namespace Brainfuck

namespace Instr

def spells (c : Char) : Bool :=
  (ofChar? c).isSome

theorem spells_of_ofChar? {c : Char} {x : Instr} (h : ofChar? c = some x) : spells c = true := by
  rw [spells, h]
  rfl

theorem toChar_of_ofChar? {c : Char} {x : Instr} (h : ofChar? c = some x) : x.toChar = c := by
  unfold ofChar? at h
  split at h
  all_goals first | cases h; rfl | cases h

theorem bracket_of_not_spells {c : Char} (h : spells c = false) : Bracket.ofChar? c = none := by
  rw [spells, Option.isSome_eq_false_iff, Option.isNone_iff_eq_none] at h
  rw [Bracket.ofChar?_eq_bind, h]
  rfl

end Instr

/-! ## The check without comments -/

/-- The number of instruction characters before index `pos` of a source.  A character that is kept
has this index once the comments are left out. -/
def strippedPos (source : String) (pos : Nat) : Nat :=
  (source.toList.take pos).countP Instr.spells

def Unmatched.stripped (source : String) (u : Unmatched) : Unmatched :=
  { u with pos := strippedPos source u.pos }

/-- From index `i` on, where `cs` stands, `f` counts the instruction characters. -/
def Renumbers (f : Nat → Nat) (i : Nat) (cs : List Char) : Prop :=
  ∀ k, f (i + k) = f i + (cs.take k).countP Instr.spells

namespace Renumbers

variable {f : Nat → Nat} {i : Nat} {c : Char} {cs : List Char}

theorem head (h : Renumbers f i (c :: cs)) :
    f (i + 1) = f i + if Instr.spells c then 1 else 0 := by
  have hone := h 1
  rwa [List.take_succ_cons, List.take_zero, List.countP_singleton] at hone

theorem tail (h : Renumbers f i (c :: cs)) : Renumbers f (i + 1) cs := by
  intro k
  have hmore := h (k + 1)
  rw [List.take_succ_cons, List.countP_cons] at hmore
  rw [h.head, Nat.add_assoc, Nat.add_comm 1 k, hmore]
  omega

end Renumbers

theorem renumbers_strippedPos (source : String) :
    Renumbers (strippedPos source) 0 source.toList := by
  intro k
  rw [Nat.zero_add, strippedPos, strippedPos, List.take_zero, List.countP_nil, Nat.zero_add]

def renumber (f : Nat → Nat) : Except Unmatched (List Nat) → Except Unmatched (List Nat)
  | .ok opened => .ok (opened.map f)
  | .error u => .error { u with pos := f u.pos }

/-- The two walks have the same brackets open all along, each under its own index. -/
theorem openBrackets_filter {f : Nat → Nat} {i : Nat} {cs : List Char} (h : Renumbers f i cs)
    (opened : List Nat) :
    openBrackets (cs.filter Instr.spells) (f i) (opened.map f) =
      renumber f (openBrackets cs i opened) := by
  induction cs generalizing i opened with
  | nil => rfl
  | cons c cs ih =>
      cases hspells : Instr.spells c with
      | false =>
          -- a comment: only the walk over the whole text takes a step
          have hbracket := Instr.bracket_of_not_spells hspells
          have hsame : f (i + 1) = f i := by simpa [hspells] using h.head
          rw [List.filter_cons_of_neg (by simp [hspells]), ← hsame, ih h.tail]
          simp only [openBrackets, hbracket]
      | true =>
          have hnext : f (i + 1) = f i + 1 := by simpa [hspells] using h.head
          rw [List.filter_cons_of_pos hspells]
          cases hbracket : Bracket.ofChar? c with
          | none =>
              simp only [openBrackets, hbracket]
              rw [← hnext, ih h.tail]
          | some b =>
              cases b with
              | opening =>
                  have hrest := ih h.tail (i :: opened)
                  rw [List.map_cons, hnext] at hrest
                  simpa only [openBrackets, hbracket] using hrest
              | closing =>
                  cases opened with
                  | nil =>
                      simp only [List.map_nil, openBrackets, hbracket]
                      rfl
                  | cons j opened =>
                      simp only [List.map_cons, openBrackets, hbracket]
                      rw [← hnext, ih h.tail]

theorem toList_strip_spells (source : String) :
    (strip source).toList = source.toList.filter Instr.spells :=
  toList_strip source

theorem checkBrackets_strip (source : String) :
    checkBrackets (strip source) = (checkBrackets source).mapError (Unmatched.stripped source) := by
  have hwalk := openBrackets_filter (renumbers_strippedPos source) []
  have hzero : strippedPos source 0 = 0 := rfl
  rw [List.map_nil, hzero] at hwalk
  rw [checkBrackets, checkBrackets, toList_strip_spells, hwalk]
  rcases openBrackets source.toList 0 [] with u | (_ | ⟨pos, opened⟩) <;> rfl

/-! ## Code without comments -/

theorem map_toChar_instrs (source : String) :
    (instrs source).map Instr.toChar = source.toList.filter Instr.spells := by
  rw [instrs]
  induction source.toList with
  | nil => rfl
  | cons c cs ih =>
      cases hc : Instr.ofChar? c with
      | none =>
          have hspells : Instr.spells c = false := by
            rw [Instr.spells, hc]
            rfl
          rw [List.filterMap_cons_none hc, ih, List.filter_cons_of_neg (by simp [hspells])]
      | some x =>
          rw [List.filterMap_cons_some hc, List.map_cons, Instr.toChar_of_ofChar? hc, ih,
            List.filter_cons_of_pos (Instr.spells_of_ofChar? hc)]

namespace Code

theorem text_of_parse {source : String} {code : Code} (h : parse source = .ok code) :
    code.text = strip source := by
  rw [text, toList_instrs_of_parse h, map_toChar_instrs]
  rfl

theorem parse_strip (source : String) :
    parse (strip source) = (parse source).mapError (Unmatched.stripped source) := by
  rw [parse, parse, checkBrackets_strip, instrs_strip]
  cases checkBrackets source <;> rfl

example : parse "é+[-] ü]" = .error ⟨.closing, 7⟩ ∧
    parse (strip "é+[-] ü]") = .error ⟨.closing, 4⟩ := by
  exact ⟨rfl, rfl⟩

theorem parse_strip_eq_ok_iff {source : String} {code : Code} :
    parse (strip source) = .ok code ↔ parse source = .ok code := by
  rw [parse_strip]
  cases parse source with
  | error u =>
      constructor
      · intro h
        cases h
      · intro h
        cases h
  | ok code' => rfl

theorem parse_eq_ok_congr {source other : String} (h : strip other = strip source) {code : Code} :
    parse source = .ok code ↔ parse other = .ok code :=
  calc parse source = .ok code
      ↔ parse (strip source) = .ok code := parse_strip_eq_ok_iff.symm
    _ ↔ parse (strip other) = .ok code := by rw [h]
    _ ↔ parse other = .ok code := parse_strip_eq_ok_iff

end Code

namespace Machine

theorem load_eq_ok_congr {source other : String} (h : strip other = strip source) {input : String}
    {config : MachineConfig} {m : Machine} :
    load source input config = .ok m ↔ load other input config = .ok m := by
  simp only [load_eq_ok_iff, Code.parse_eq_ok_congr h]

end Machine

open Machine

/-- The code of a source spells the source without its comments.  Without them it is parsed to the
same code, with the same table, or it is refused for the same kind of bracket, whose index counts
the instruction characters before it.  Two sources that differ in their comments alone are both
loaded or both refused, and the machines are left the same by every session and report the same of
every call after it. -/
theorem comments_have_no_influence (source : String) :
    (∀ code, Code.parse source = .ok code → code.text = strip source) ∧
    strip (strip source) = strip source ∧
    ((∃ code, Code.parse source = .ok code ∧ Code.parse (strip source) = .ok code) ∨
      ∃ bracket pos, Code.parse source = .error ⟨bracket, pos⟩ ∧
        Code.parse (strip source) = .error ⟨bracket, strippedPos source pos⟩) ∧
    ∀ other, strip other = strip source → ∀ (input : String) (config : MachineConfig),
      ((∃ m, load source input config = .ok m) ↔ ∃ m, load other input config = .ok m) ∧
      ∀ m m', load source input config = .ok m → load other input config = .ok m' →
        ∀ calls : List Call, m.after calls = m'.after calls ∧
          ∀ call : Call,
            (m.after calls).run call.host call.mode call.control call.fuel call.start =
              (m'.after calls).run call.host call.mode call.control call.fuel call.start := by
  refine ⟨fun code => Code.text_of_parse, strip_strip source, ?_, ?_⟩
  · cases hparse : Code.parse source with
    | ok code =>
        exact .inl ⟨code, rfl, Code.parse_strip_eq_ok_iff.2 hparse⟩
    | error u =>
        have hstripped := Code.parse_strip source
        rw [hparse] at hstripped
        exact .inr ⟨u.bracket, u.pos, rfl, hstripped⟩
  · intro other hother input config
    refine ⟨exists_congr fun m => load_eq_ok_congr hother, ?_⟩
    intro m m' hload hload' calls
    rw [load_eq_ok_congr hother, hload'] at hload
    obtain rfl := Except.ok.inj hload
    exact ⟨rfl, fun call => rfl⟩

end Brainfuck
