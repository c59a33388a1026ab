import Brainfuck.Proofs.Brackets.Scan

/-!
# What the bracket check says

The check accepts exactly the texts whose brackets are a word of the grammar, and the bracket it
names otherwise is described without the stack: the first closing bracket that closes nothing
stands behind a balanced text, and the innermost bracket that stays open stands before one.  A text
fits exactly one of the three descriptions.
-/

namespace Brainfuck

/-- The text before `pos` is balanced, and the `]` there closes nothing in it. -/
structure IsFirstStray (cs : List Char) (pos : Nat) : Prop where
  char : cs[pos]? = some ']'
  balanced : Balanced (brackets (cs.take pos))

/-- The text after `pos` is balanced, and nothing in it closes the `[` there; no closing bracket of
the whole text is stray. -/
structure IsInnermostOpen (cs : List Char) (pos : Nat) : Prop where
  char : cs[pos]? = some '['
  balanced : Balanced (brackets (cs.drop (pos + 1)))
  count_le : ∀ n, (cs.take n).count ']' ≤ (cs.take n).count '['

def IsStray (cs : List Char) (i : Nat) : Prop :=
  cs[i]? = some ']' ∧ ∀ j, ¬Partners Bracket.ofChar? cs j i

def IsUnclosed (cs : List Char) (i : Nat) : Prop :=
  cs[i]? = some '[' ∧ ∀ j, ¬Partners Bracket.ofChar? cs i j

inductive Verdict (cs : List Char) : Except Unmatched Unit → Prop where
  | balanced : Balanced (brackets cs) → Verdict cs (.ok ())
  | stray {pos : Nat} : IsFirstStray cs pos → Verdict cs (.error ⟨.closing, pos⟩)
  | unclosed {pos : Nat} : IsInnermostOpen cs pos → Verdict cs (.error ⟨.opening, pos⟩)

/-! ## Brackets among characters -/

theorem Bracket.ofChar?_eq_opening {c : Char} : ofChar? c = some .opening ↔ c = '[' := by
  unfold ofChar?
  split <;> simp_all

theorem Bracket.ofChar?_eq_closing {c : Char} : ofChar? c = some .closing ↔ c = ']' := by
  unfold ofChar?
  split <;> simp_all

theorem bracketAt_eq_opening {cs : List Char} {i : Nat} :
    bracketAt Bracket.ofChar? cs i = some .opening ↔ cs[i]? = some '[' := by
  simp [bracketAt, Option.bind_eq_some_iff, Bracket.ofChar?_eq_opening]

theorem bracketAt_eq_closing {cs : List Char} {i : Nat} :
    bracketAt Bracket.ofChar? cs i = some .closing ↔ cs[i]? = some ']' := by
  simp [bracketAt, Option.bind_eq_some_iff, Bracket.ofChar?_eq_closing]

theorem excess_brackets (cs : List Char) :
    excess (brackets cs) = (cs.count '[' : Int) - (cs.count ']' : Int) := by
  induction cs with
  | nil => rfl
  | cons c cs ih =>
      cases hc : Bracket.ofChar? c with
      | none =>
          have hopening : c ≠ '[' := fun h => by simp [Bracket.ofChar?_eq_opening.2 h] at hc
          have hclosing : c ≠ ']' := fun h => by simp [Bracket.ofChar?_eq_closing.2 h] at hc
          rw [brackets, List.filterMap_cons_none hc, List.count_cons_of_ne hopening,
            List.count_cons_of_ne hclosing]
          exact ih
      | some b =>
          rw [brackets] at ih
          rw [brackets, List.filterMap_cons_some hc]
          cases b with
          | opening =>
              obtain rfl := Bracket.ofChar?_eq_opening.1 hc
              simp only [excess_opening_cons, List.count_cons_self, ih]
              rw [List.count_cons_of_ne (by decide)]
              omega
          | closing =>
              obtain rfl := Bracket.ofChar?_eq_closing.1 hc
              simp only [excess_closing_cons, List.count_cons_self, ih]
              rw [List.count_cons_of_ne (by decide)]
              omega

theorem height_chars (cs : List Char) (n : Nat) :
    height Bracket.ofChar? cs n = ((cs.take n).count '[' : Int) - ((cs.take n).count ']' : Int) :=
  excess_brackets (cs.take n)

/-! ## A text has one verdict -/

namespace IsFirstStray

variable {cs : List Char} {pos : Nat}

theorem height_pos (h : IsFirstStray cs pos) : height Bracket.ofChar? cs pos = 0 :=
  h.balanced.excess_eq_zero

theorem height_nonneg (h : IsFirstStray cs pos) {n : Nat} (hn : n ≤ pos) :
    0 ≤ height Bracket.ofChar? cs n := by
  have hfrom := height_le_of_balanced (f := Bracket.ofChar?) (l := cs) (Nat.zero_le n) hn
    h.balanced
  rwa [height_zero] at hfrom

theorem height_succ (h : IsFirstStray cs pos) : height Bracket.ofChar? cs (pos + 1) = -1 := by
  rw [height_succ_of_closing (bracketAt_eq_closing.2 h.char), h.height_pos]
  rfl

theorem le (h : IsFirstStray cs pos) {pos' : Nat} (h' : IsFirstStray cs pos') : pos ≤ pos' := by
  by_contra hlt
  have hbelow := h'.height_succ
  have habove := h.height_nonneg (n := pos' + 1) (by omega)
  omega

theorem isStray (h : IsFirstStray cs pos) : IsStray cs pos := by
  refine ⟨h.char, fun j hj => ?_⟩
  have hopen := height_succ_of_opening hj.opening
  have hbefore := h.height_nonneg (Nat.le_of_lt hj.lt)
  have hend := hj.height_closing
  have hzero := h.height_pos
  omega

end IsFirstStray

namespace IsInnermostOpen

variable {cs : List Char} {pos : Nat}

theorem height_nonneg (h : IsInnermostOpen cs pos) (n : Nat) :
    0 ≤ height Bracket.ofChar? cs n := by
  have hcount := h.count_le n
  rw [height_chars]
  omega

theorem lt_length (h : IsInnermostOpen cs pos) : pos < cs.length :=
  lt_length_of_bracketAt (bracketAt_eq_opening.2 h.char)

theorem height_succ (h : IsInnermostOpen cs pos) :
    height Bracket.ofChar? cs (pos + 1) = height Bracket.ofChar? cs pos + 1 :=
  height_succ_of_opening (bracketAt_eq_opening.2 h.char)

theorem balanced_rest (h : IsInnermostOpen cs pos) :
    Balanced (((cs.take cs.length).drop (pos + 1)).filterMap Bracket.ofChar?) := by
  rw [List.take_length]
  exact h.balanced

theorem height_length (h : IsInnermostOpen cs pos) :
    height Bracket.ofChar? cs cs.length = height Bracket.ofChar? cs (pos + 1) :=
  height_eq_of_balanced h.lt_length h.balanced_rest

theorem height_le (h : IsInnermostOpen cs pos) {n : Nat} (hpos : pos < n) (hn : n ≤ cs.length) :
    height Bracket.ofChar? cs (pos + 1) ≤ height Bracket.ofChar? cs n :=
  height_le_of_balanced hpos hn h.balanced_rest

theorem le (h : IsInnermostOpen cs pos) {pos' : Nat} (h' : IsInnermostOpen cs pos') :
    pos' ≤ pos := by
  by_contra hlt
  have hinside := h.height_le (n := pos') (by omega) (Nat.le_of_lt h'.lt_length)
  have hstep := h'.height_succ
  have hend := h.height_length
  have hend' := h'.height_length
  omega

theorem isUnclosed (h : IsInnermostOpen cs pos) : IsUnclosed cs pos := by
  refine ⟨h.char, fun j hj => ?_⟩
  have hinside := h.height_le (n := j + 1) (by have := hj.lt; omega) hj.lt_length
  have hafter := height_succ_of_closing hj.closing
  have hend := hj.height_closing
  omega

end IsInnermostOpen

namespace Verdict

variable {cs : List Char} {r r' : Except Unmatched Unit}

theorem not_balanced_of_stray {pos : Nat} (h : IsFirstStray cs pos) : ¬Balanced (brackets cs) := by
  intro hcs
  have hbelow := h.height_succ
  have habove := height_nonneg_of_balanced (f := Bracket.ofChar?) hcs (pos + 1)
  omega

theorem not_balanced_of_unclosed {pos : Nat} (h : IsInnermostOpen cs pos) :
    ¬Balanced (brackets cs) := by
  intro hcs
  have hend := h.height_length
  have hstep := h.height_succ
  have hnonneg := h.height_nonneg pos
  have hzero : height Bracket.ofChar? cs cs.length = 0 := by
    rw [height_of_length_le (Nat.le_refl _)]
    exact hcs.excess_eq_zero
  omega

theorem not_unclosed_of_stray {pos pos' : Nat} (h : IsFirstStray cs pos) :
    ¬IsInnermostOpen cs pos' := by
  intro h'
  have hbelow := h.height_succ
  have habove := h'.height_nonneg (pos + 1)
  omega

theorem unique (h : Verdict cs r) (h' : Verdict cs r') : r = r' := by
  cases h with
  | balanced hcs =>
      cases h' with
      | balanced _ => rfl
      | stray hpos => exact absurd hcs (not_balanced_of_stray hpos)
      | unclosed hpos => exact absurd hcs (not_balanced_of_unclosed hpos)
  | stray hpos =>
      cases h' with
      | balanced hcs => exact absurd hcs (not_balanced_of_stray hpos)
      | stray hpos' =>
          rw [Nat.le_antisymm (hpos.le hpos') (hpos'.le hpos)]
      | unclosed hpos' => exact absurd hpos' (not_unclosed_of_stray hpos)
  | unclosed hpos =>
      cases h' with
      | balanced hcs => exact absurd hcs (not_balanced_of_unclosed hpos)
      | stray hpos' => exact absurd hpos (not_unclosed_of_stray hpos')
      | unclosed hpos' =>
          rw [Nat.le_antisymm (hpos'.le hpos) (hpos.le hpos')]

end Verdict

/-! ## The walk of the check -/

/-- How the walk over a text ends: it reads all of it, or stops at a closing bracket that finds
nothing open. -/
inductive Walked (cs : List Char) : Except Unmatched (List Nat) → Prop where
  | through {opened : List Nat} : Scan Bracket.ofChar? cs opened → Walked cs (.ok opened)
  | stopped {front back : List Char} :
      cs = front ++ ']' :: back → Scan Bracket.ofChar? front [] →
        Walked cs (.error ⟨.closing, front.length⟩)

theorem walked_openBrackets (cs : List Char) {l : List Char} {opened : List Nat}
    (h : Scan Bracket.ofChar? l opened) :
    Walked (l ++ cs) (openBrackets cs l.length opened) := by
  induction cs generalizing l opened with
  | nil =>
      rw [List.append_nil]
      exact .through h
  | cons c cs ih =>
      cases hc : Bracket.ofChar? c with
      | none =>
          have hrest := ih (h.comment hc)
          rw [← List.append_cons] at hrest
          simpa [openBrackets, hc] using hrest
      | some b =>
          cases b with
          | opening =>
              have hrest := ih (h.push hc)
              rw [← List.append_cons] at hrest
              simpa [openBrackets, hc] using hrest
          | closing =>
              cases opened with
              | cons i opened =>
                  have hrest := ih (h.pop hc)
                  rw [← List.append_cons] at hrest
                  simpa [openBrackets, hc] using hrest
              | nil =>
                  obtain rfl := Bracket.ofChar?_eq_closing.1 hc
                  have hstop : Walked (l ++ ']' :: cs) (.error ⟨.closing, l.length⟩) :=
                    .stopped rfl h
                  simpa [openBrackets, hc] using hstop

theorem walked (cs : List Char) : Walked cs (openBrackets cs 0 []) := by
  simpa using walked_openBrackets cs Scan.nil

theorem Scan.isInnermostOpen {cs : List Char} {pos : Nat} {opened : List Nat}
    (h : Scan Bracket.ofChar? cs (pos :: opened)) : IsInnermostOpen cs pos where
  char := bracketAt_eq_opening.1 (h.pending.bracketAt_of_mem List.mem_cons_self)
  balanced := h.pending.balanced_drop
  count_le := by
    intro n
    have hnonneg := h.pending.height_nonneg n
    rw [height_chars] at hnonneg
    omega

theorem Scan.isFirstStray {front back : List Char} (h : Scan Bracket.ofChar? front []) :
    IsFirstStray (front ++ ']' :: back) front.length where
  char := by simp
  balanced := by
    rw [List.take_left]
    exact h.pending.balanced

theorem verdict_checkBrackets (source : String) :
    Verdict source.toList (checkBrackets source) := by
  have hwalk := walked source.toList
  rw [checkBrackets]
  generalize openBrackets source.toList 0 [] = r at hwalk ⊢
  cases hwalk with
  | @through opened h =>
      cases opened with
      | nil => exact .balanced h.pending.balanced
      | cons pos opened => exact .unclosed h.isInnermostOpen
  | stopped hcs h =>
      rw [hcs]
      exact .stray h.isFirstStray

/-- The check returns the one verdict that the text allows. -/
theorem checkBrackets_eq_iff {source : String} {r : Except Unmatched Unit} :
    checkBrackets source = r ↔ Verdict source.toList r := by
  constructor
  · rintro rfl
    exact verdict_checkBrackets source
  · exact (verdict_checkBrackets source).unique

/-! ## First and innermost

The culprit is extreme among the brackets without a partner.
-/

theorem exists_scan_or_stray (cs : List Char) :
    (∃ opened, Scan Bracket.ofChar? cs opened) ∨
      ∃ front back, cs = front ++ ']' :: back ∧ Scan Bracket.ofChar? front [] := by
  have hwalk := walked cs
  generalize openBrackets cs 0 [] = r at hwalk
  cases hwalk with
  | through h => exact .inl ⟨_, h⟩
  | stopped hcs h => exact .inr ⟨_, _, hcs, h⟩

theorem scan_of_balanced {cs : List Char} (h : Balanced (brackets cs)) :
    Scan Bracket.ofChar? cs [] := by
  rcases exists_scan_or_stray cs with ⟨opened, hscan⟩ | ⟨front, back, rfl, hscan⟩
  · obtain rfl := hscan.pending.eq_nil_of_balanced h
    exact hscan
  · exact absurd h (Verdict.not_balanced_of_stray hscan.isFirstStray)

theorem IsInnermostOpen.exists_scan {cs : List Char} {pos : Nat} (h : IsInnermostOpen cs pos) :
    ∃ opened, Scan Bracket.ofChar? cs (pos :: opened) := by
  rcases exists_scan_or_stray cs with ⟨opened, hscan⟩ | ⟨front, back, rfl, hscan⟩
  · cases opened with
    | nil =>
        exact absurd hscan.pending.balanced (Verdict.not_balanced_of_unclosed h)
    | cons pos' opened =>
        have htop := hscan.isInnermostOpen
        have heq : pos = pos' := Nat.le_antisymm (htop.le h) (h.le htop)
        exact ⟨opened, heq ▸ hscan⟩
  · exact absurd h (Verdict.not_unclosed_of_stray hscan.isFirstStray)

/-- Every closing bracket before the first stray one has a partner. -/
theorem IsFirstStray.le_of_isStray {cs : List Char} {pos i : Nat} (h : IsFirstStray cs pos)
    (hi : IsStray cs i) : pos ≤ i := by
  by_contra hlt
  have hscan := scan_of_balanced h.balanced
  have hfront : bracketAt Bracket.ofChar? (cs.take pos) i = some .closing := by
    rw [bracketAt_eq_closing, List.getElem?_take_of_lt (by omega)]
    exact hi.1
  obtain ⟨j, hj⟩ := hscan.closing i hfront
  have hwhole := hj.append (cs.drop pos)
  rw [List.take_append_drop] at hwhole
  exact hi.2 j hwhole

theorem IsInnermostOpen.le_of_isUnclosed {cs : List Char} {pos i : Nat}
    (h : IsInnermostOpen cs pos) (hi : IsUnclosed cs i) : i ≤ pos := by
  obtain ⟨opened, hscan⟩ := h.exists_scan
  rcases hscan.opening i (bracketAt_eq_opening.2 hi.1) with hmem | ⟨j, hj⟩
  · rcases List.mem_cons.1 hmem with rfl | hmem
    · exact Nat.le_refl _
    · exact Nat.le_of_lt ((List.pairwise_cons.1 hscan.pending.pairwise_gt).1 i hmem)
  · exact absurd hj (hi.2 j)

/-! ## The check -/

theorem checkBrackets_eq_ok_iff (source : String) :
    checkBrackets source = .ok () ↔ Balanced (brackets source.toList) := by
  rw [checkBrackets_eq_iff]
  refine ⟨fun h => ?_, .balanced⟩
  cases h with
  | balanced h => exact h

theorem checkBrackets_eq_closing_iff (source : String) (pos : Nat) :
    checkBrackets source = .error ⟨.closing, pos⟩ ↔ IsFirstStray source.toList pos := by
  rw [checkBrackets_eq_iff]
  refine ⟨fun h => ?_, .stray⟩
  cases h with
  | stray h => exact h

theorem checkBrackets_eq_opening_iff (source : String) (pos : Nat) :
    checkBrackets source = .error ⟨.opening, pos⟩ ↔ IsInnermostOpen source.toList pos := by
  rw [checkBrackets_eq_iff]
  refine ⟨fun h => ?_, .unclosed⟩
  cases h with
  | unclosed h => exact h

/-- The check decides the grammar, and names exactly one bracket otherwise: the first closing
bracket without a partner if there is one, else the last opening bracket without one. -/
theorem checkBrackets_decides_and_locates (source : String) :
    (checkBrackets source = .ok () ↔ Balanced (brackets source.toList)) ∧
    (∀ pos, checkBrackets source = .error ⟨.closing, pos⟩ ↔
      source.toList[pos]? = some ']' ∧ Balanced (brackets (source.toList.take pos))) ∧
    (∀ pos, checkBrackets source = .error ⟨.opening, pos⟩ ↔
      source.toList[pos]? = some '[' ∧ Balanced (brackets (source.toList.drop (pos + 1))) ∧
        ∀ n, (source.toList.take n).count ']' ≤ (source.toList.take n).count '[') ∧
    (∀ pos, checkBrackets source = .error ⟨.closing, pos⟩ →
      IsStray source.toList pos ∧ (∀ i, IsStray source.toList i → pos ≤ i) ∧
        ∀ i, IsFirstStray source.toList i → i = pos) ∧
    (∀ pos, checkBrackets source = .error ⟨.opening, pos⟩ →
      IsUnclosed source.toList pos ∧ (∀ i, IsUnclosed source.toList i → i ≤ pos) ∧
        ∀ i, IsInnermostOpen source.toList i → i = pos) := by
  refine ⟨checkBrackets_eq_ok_iff source, fun pos => ?_, fun pos => ?_, fun pos hpos => ?_,
    fun pos hpos => ?_⟩
  · rw [checkBrackets_eq_closing_iff]
    exact ⟨fun h => ⟨h.char, h.balanced⟩, fun ⟨hchar, hfront⟩ => ⟨hchar, hfront⟩⟩
  · rw [checkBrackets_eq_opening_iff]
    exact ⟨fun h => ⟨h.char, h.balanced, h.count_le⟩,
      fun ⟨hchar, hback, hcount⟩ => ⟨hchar, hback, hcount⟩⟩
  · have hfirst := (checkBrackets_eq_closing_iff source pos).1 hpos
    refine ⟨hfirst.isStray, fun i hi => hfirst.le_of_isStray hi, fun i hi => ?_⟩
    exact Nat.le_antisymm (hi.le hfirst) (hfirst.le hi)
  · have hinner := (checkBrackets_eq_opening_iff source pos).1 hpos
    refine ⟨hinner.isUnclosed, fun i hi => hinner.le_of_isUnclosed hi, fun i hi => ?_⟩
    exact Nat.le_antisymm (hinner.le hi) (hi.le hinner)

example : checkBrackets "[+[-]  [" = .error ⟨.opening, 7⟩ := by
  rfl

end Brainfuck
