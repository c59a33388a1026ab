import Brainfuck.Code
import Brainfuck.Proofs.Brackets.Verdict

/-!
# The table of partners

Balance is checked on the characters of a source, and the table is built over its instructions.
Both have the same brackets in the same order, so a source that passes the check leaves a walk over
its instructions without stray and without open brackets.

`Linked` is the invariant of that walk.  Besides the stack it speaks about the table as far as it
is filled in: brackets with a partner point at each other, and everything else points at itself.
-/

namespace Brainfuck

def Instr.bracket? : Instr → Option Bracket
  | .opening => some .opening
  | .closing => some .closing
  | _ => none

theorem Instr.bracket?_eq_opening {x : Instr} : x.bracket? = some .opening ↔ x = .opening := by
  cases x <;> simp [bracket?]

theorem Instr.bracket?_eq_closing {x : Instr} : x.bracket? = some .closing ↔ x = .closing := by
  cases x <;> simp [bracket?]

theorem Bracket.ofChar?_eq_bind (c : Char) :
    Bracket.ofChar? c = (Instr.ofChar? c).bind Instr.bracket? := by
  unfold Instr.ofChar?
  split <;> try rfl
  next hleft hright hinc hdec hput hget hopening hclosing =>
    unfold Bracket.ofChar?
    split
    · exact absurd rfl hopening
    · exact absurd rfl hclosing
    · rfl

theorem filterMap_instrs (source : String) :
    (instrs source).filterMap Instr.bracket? = brackets source.toList := by
  rw [instrs, List.filterMap_filterMap, brackets]
  congr 1
  funext c
  exact (Bracket.ofChar?_eq_bind c).symm

theorem bracketAt_instrs_eq_opening {is : List Instr} {i : Nat} :
    bracketAt Instr.bracket? is i = some .opening ↔ is[i]? = some .opening := by
  simp [bracketAt, Option.bind_eq_some_iff, Instr.bracket?_eq_opening]

theorem bracketAt_instrs_eq_closing {is : List Instr} {i : Nat} :
    bracketAt Instr.bracket? is i = some .closing ↔ is[i]? = some .closing := by
  simp [bracketAt, Option.bind_eq_some_iff, Instr.bracket?_eq_closing]

structure Linked (n : Nat) (is : List Instr) (opened : List Nat) (table : Array Nat) : Prop where
  scan : Scan Instr.bracket? is opened
  size : table.size = n
  linked : ∀ i j, Partners Instr.bracket? is i j → table[i]? = some j ∧ table[j]? = some i
  self : ∀ i < n, (∀ j, ¬Partners Instr.bracket? is i j ∧ ¬Partners Instr.bracket? is j i) →
    table[i]? = some i

namespace Linked

variable {n : Nat} {is : List Instr} {opened : List Nat} {table : Array Nat}

theorem nil (n : Nat) : Linked n [] [] (Array.range n) where
  scan := .nil
  size := Array.size_range
  linked i j h := by
    have hlt := h.lt_length
    simp at hlt
  self i hi _ := by simp [hi]

theorem self_of_concat (h : Linked n is opened table) {x : Instr} {i : Nat} (hi : i < n)
    (hnone : ∀ j, ¬Partners Instr.bracket? (is ++ [x]) i j ∧
      ¬Partners Instr.bracket? (is ++ [x]) j i) : table[i]? = some i := by
  refine h.self i hi fun j => ⟨fun hij => ?_, fun hji => ?_⟩
  · exact (hnone j).1 (hij.append [x])
  · exact (hnone j).2 (hji.append [x])

theorem extend (h : Linked n is opened table) {x : Instr} {opened' : List Nat}
    (hscan : Scan Instr.bracket? (is ++ [x]) opened') (hx : x.bracket? ≠ some .closing) :
    Linked n (is ++ [x]) opened' table where
  scan := hscan
  size := h.size
  linked i j hij := h.linked i j (hij.of_concat hx)
  self _ hi hnone := h.self_of_concat hi hnone

theorem comment (h : Linked n is opened table) {x : Instr} (hx : x.bracket? = none) :
    Linked n (is ++ [x]) opened table :=
  h.extend (h.scan.comment hx) (by simp [hx])

theorem push (h : Linked n is opened table) :
    Linked n (is ++ [.opening]) (is.length :: opened) table :=
  h.extend (h.scan.push rfl) (by simp [Instr.bracket?])

theorem getElem?_link {k e : Nat} (hk : k < e) (he : e < table.size) (i : Nat) :
    ((table.setIfInBounds k e).setIfInBounds e k)[i]? =
      if i = e then some k else if i = k then some e else table[i]? := by
  rw [Array.getElem?_setIfInBounds, Array.getElem?_setIfInBounds, Array.size_setIfInBounds]
  grind

theorem pop {k : Nat} (h : Linked n is (k :: opened) table) (hn : is.length < n) :
    Linked n (is ++ [.closing]) opened
      ((table.setIfInBounds k is.length).setIfInBounds is.length k) := by
  have hnew : Partners Instr.bracket? (is ++ [.closing]) k is.length := h.scan.partners rfl
  have hget := getElem?_link hnew.lt (by rw [h.size]; exact hn)
  refine ⟨h.scan.pop rfl, by simpa using h.size, fun i j hij => ?_, fun i hi hnone => ?_⟩
  · rcases h.scan.partners_concat rfl hij with hold | ⟨rfl, rfl⟩
    · have hj := hold.lt_length
      have hi := hold.lt
      have hik : i ≠ k := by
        rintro rfl
        have := hij.closing_unique hnew
        omega
      have hjk : j ≠ k := by
        rintro rfl
        have hopen := hnew.opening
        rw [hij.closing] at hopen
        cases hopen
      rw [hget, hget, if_neg (by omega), if_neg hik, if_neg (by omega), if_neg hjk]
      exact h.linked i j hold
    · have hi := hnew.lt
      rw [hget, hget, if_neg (by omega), if_pos rfl, if_pos rfl]
      exact ⟨rfl, rfl⟩
  · have hend : i ≠ is.length := by
      rintro rfl
      exact (hnone k).2 hnew
    have hik : i ≠ k := by
      rintro rfl
      exact (hnone _).1 hnew
    rw [hget, if_neg hend, if_neg hik]
    exact h.self_of_concat hi hnone

/-- What one instruction does to the stack and the table, for a text without stray brackets. -/
theorem walk {rest : List Instr} (h : Linked n is opened table)
    (hn : (is ++ rest).length ≤ n) (hheight : ∀ m, 0 ≤ height Instr.bracket? (is ++ rest) m) :
    Linked n (is ++ rest) (linkBrackets rest is.length opened table).1
      (linkBrackets rest is.length opened table).2 := by
  induction rest generalizing is opened table with
  | nil => simpa [linkBrackets] using h
  | cons x rest ih =>
      have hlen : is.length < n := by
        rw [List.length_append, List.length_cons] at hn
        omega
      have hhead := hheight
      rw [List.append_cons] at hn hheight ⊢
      cases hx : x.bracket? with
      | none =>
          have hrest := ih (h.comment hx) hn hheight
          rw [List.length_append] at hrest
          cases x <;> first | exact hrest | cases hx
      | some b =>
          cases b with
          | opening =>
              obtain rfl := Instr.bracket?_eq_opening.1 hx
              have hrest := ih h.push hn hheight
              rw [List.length_append] at hrest
              exact hrest
          | closing =>
              obtain rfl := Instr.bracket?_eq_closing.1 hx
              cases opened with
              | nil => exact absurd rfl (h.scan.ne_nil_of_closing rfl hhead)
              | cons k opened =>
                  have hrest := ih (h.pop hlen) hn hheight
                  rw [List.length_append] at hrest
                  exact hrest

end Linked

theorem linkBrackets_append (front back : List Instr) (i : Nat) (opened : List Nat)
    (table : Array Nat) :
    linkBrackets (front ++ back) i opened table =
      linkBrackets back (i + front.length) (linkBrackets front i opened table).1
        (linkBrackets front i opened table).2 := by
  induction front generalizing i opened table with
  | nil => rfl
  | cons x front ih =>
      rw [List.length_cons, Nat.add_comm front.length 1, ← Nat.add_assoc]
      cases x <;> cases opened <;> exact ih _ _ _

theorem linked_linkBrackets {is : List Instr} (h : ∀ m, 0 ≤ height Instr.bracket? is m) {n : Nat}
    (hn : is.length ≤ n) :
    Linked n is (linkBrackets is 0 [] (Array.range n)).1
      (linkBrackets is 0 [] (Array.range n)).2 :=
  (Linked.nil n).walk hn h

/-- The walk over a balanced text meets every closing bracket with its partner on the stack, and
takes it off. -/
theorem linkBrackets_closing {front back : List Instr}
    (h : Balanced ((front ++ .closing :: back).filterMap Instr.bracket?)) {n : Nat}
    (hn : (front ++ .closing :: back).length ≤ n) :
    ∃ i opened table, Partners Instr.bracket? (front ++ .closing :: back) i front.length ∧
      linkBrackets front 0 [] (Array.range n) = (i :: opened, table) ∧
      linkBrackets (front ++ .closing :: back) 0 [] (Array.range n) =
        linkBrackets back (front.length + 1) opened
          ((table.setIfInBounds i front.length).setIfInBounds front.length i) := by
  have hheight := height_nonneg_of_balanced h
  have hfront : ∀ m, 0 ≤ height Instr.bracket? front m := by
    intro m
    have hm := hheight (min m front.length)
    rw [height, List.take_append_of_le_length (Nat.min_le_right _ _), ← List.take_take,
      List.take_length] at hm
    exact hm
  have hlinked := linked_linkBrackets hfront (n := n) (by
    rw [List.length_append] at hn
    omega)
  have hsplit := linkBrackets_append front (.closing :: back) 0 [] (Array.range n)
  rw [Nat.zero_add] at hsplit
  rw [hsplit]
  generalize linkBrackets front 0 [] (Array.range n) = state at hlinked ⊢
  obtain ⟨opened, table⟩ := state
  cases opened with
  | nil => exact absurd rfl (hlinked.scan.ne_nil_of_closing rfl hheight)
  | cons i opened =>
      refine ⟨i, opened, table, ?_, rfl, rfl⟩
      have hpair := (hlinked.scan.partners (a := Instr.closing) rfl).append back
      rwa [List.append_assoc, List.singleton_append] at hpair

theorem linked_of_balanced {is : List Instr} (h : Balanced (is.filterMap Instr.bracket?)) :
    (linkBrackets is 0 [] (Array.range is.length)).1 = [] ∧
      Linked is.length is [] (Code.ofInstrs is).partners := by
  have hlinked := linked_linkBrackets (height_nonneg_of_balanced h) (Nat.le_refl is.length)
  have hopened := hlinked.scan.pending.eq_nil_of_balanced h
  rw [hopened] at hlinked
  exact ⟨hopened, hlinked⟩

namespace Code

theorem bracketAt_eq_opening {code : Code} {i : Nat} :
    bracketAt Instr.bracket? code.instrs.toList i = some .opening ↔
      code.instrs[i]? = some .opening := by
  rw [bracketAt_instrs_eq_opening, Array.getElem?_toList]

theorem bracketAt_eq_closing {code : Code} {i : Nat} :
    bracketAt Instr.bracket? code.instrs.toList i = some .closing ↔
      code.instrs[i]? = some .closing := by
  rw [bracketAt_instrs_eq_closing, Array.getElem?_toList]

/-- The table pairs each bracket with the one that the grammar pairs it with, and every other
instruction with itself. -/
structure Matched (code : Code) : Prop where
  size_eq : code.partners.size = code.instrs.size
  self : ∀ (i : Nat) (x : Instr), code.instrs[i]? = some x → x ≠ .opening → x ≠ .closing →
    code.partners[i]? = some i
  opening : ∀ i : Nat, code.instrs[i]? = some .opening → ∃ j, code.partners[i]? = some j ∧
    i < j ∧ j < code.instrs.size ∧ code.instrs[j]? = some .closing ∧
    Balanced (((code.instrs.toList.take j).drop (i + 1)).filterMap Instr.bracket?) ∧
    code.partners[j]? = some i
  closing : ∀ j : Nat, code.instrs[j]? = some .closing → ∃ i, code.partners[j]? = some i ∧
    i < j ∧ code.instrs[i]? = some .opening ∧
    Balanced (((code.instrs.toList.take j).drop (i + 1)).filterMap Instr.bracket?) ∧
    code.partners[i]? = some j
  involutive : ∀ i < code.instrs.size, ∃ j < code.instrs.size,
    code.partners[i]? = some j ∧ code.partners[j]? = some i
  nested : ∀ i j i' j' : Nat, code.instrs[i]? = some .opening → code.partners[i]? = some j →
    code.instrs[i']? = some .opening → code.partners[i']? = some j' →
    i < i' → i' < j → j' < j

variable {source : String} {code : Code}

theorem exists_partners_of_opening (h : Linked code.size code.instrs.toList [] code.partners)
    {i : Nat} (hi : code.instrs[i]? = some .opening) :
    ∃ j, Partners Instr.bracket? code.instrs.toList i j := by
  rcases h.scan.opening i (bracketAt_eq_opening.2 hi) with hmem | hpair
  · cases hmem
  · exact hpair

theorem exists_partners_of_closing (h : Linked code.size code.instrs.toList [] code.partners)
    {j : Nat} (hj : code.instrs[j]? = some .closing) :
    ∃ i, Partners Instr.bracket? code.instrs.toList i j :=
  h.scan.closing j (bracketAt_eq_closing.2 hj)

theorem self_of_not_bracket (h : Linked code.size code.instrs.toList [] code.partners) {i : Nat}
    {x : Instr} (hi : code.instrs[i]? = some x) (hopening : x ≠ .opening)
    (hclosing : x ≠ .closing) : code.partners[i]? = some i := by
  have hlt : i < code.size := (Array.getElem?_eq_some_iff.1 hi).1
  refine h.self i hlt fun j => ⟨fun hij => ?_, fun hji => ?_⟩
  · have hopen := bracketAt_eq_opening.1 hij.opening
    rw [hi] at hopen
    exact hopening (Option.some.inj hopen)
  · have hclose := bracketAt_eq_closing.1 hji.closing
    rw [hi] at hclose
    exact hclosing (Option.some.inj hclose)

theorem matched_of_linked (h : Linked code.size code.instrs.toList [] code.partners) :
    code.Matched where
  size_eq := h.size
  self _ _ hi hopening hclosing := self_of_not_bracket h hi hopening hclosing
  opening i hi := by
    obtain ⟨j, hij⟩ := exists_partners_of_opening h hi
    obtain ⟨hto, hback⟩ := h.linked i j hij
    exact ⟨j, hto, hij.lt, by simpa using hij.lt_length, bracketAt_eq_closing.1 hij.closing,
      hij.balanced, hback⟩
  closing j hj := by
    obtain ⟨i, hij⟩ := exists_partners_of_closing h hj
    obtain ⟨hto, hback⟩ := h.linked i j hij
    exact ⟨i, hback, hij.lt, bracketAt_eq_opening.1 hij.opening, hij.balanced, hto⟩
  involutive i hi := by
    have hx : code.instrs[i]? = some code.instrs[i] := Array.getElem?_eq_getElem hi
    by_cases hopening : code.instrs[i] = .opening
    · rw [hopening] at hx
      obtain ⟨j, hij⟩ := exists_partners_of_opening h hx
      exact ⟨j, by simpa using hij.lt_length, h.linked i j hij⟩
    · by_cases hclosing : code.instrs[i] = .closing
      · rw [hclosing] at hx
        obtain ⟨k, hki⟩ := exists_partners_of_closing h hx
        exact ⟨k, by have := hki.lt; omega, (h.linked k i hki).symm⟩
      · have hself := self_of_not_bracket h hx hopening hclosing
        exact ⟨i, hi, hself, hself⟩
  nested i j i' j' hi hij hi' hij' hlt hinside := by
    obtain ⟨k, hik⟩ := exists_partners_of_opening h hi
    obtain ⟨k', hik'⟩ := exists_partners_of_opening h hi'
    rw [(h.linked i k hik).1] at hij
    rw [(h.linked i' k' hik').1] at hij'
    obtain rfl := Option.some.inj hij
    obtain rfl := Option.some.inj hij'
    exact hik.nested hik' hlt hinside

theorem parse_eq_ok_iff :
    parse source = .ok code ↔
      Balanced (brackets source.toList) ∧ code = ofInstrs (Brainfuck.instrs source) := by
  rw [parse, ← checkBrackets_eq_ok_iff]
  cases checkBrackets source with
  | error u => simp
  | ok => simp [eq_comm]

theorem toList_instrs_of_parse (h : parse source = .ok code) :
    code.instrs.toList = Brainfuck.instrs source := by
  obtain ⟨_, rfl⟩ := parse_eq_ok_iff.1 h
  rfl

theorem size_le_of_parse (h : parse source = .ok code) : code.size ≤ source.length := by
  rw [size, ← Array.length_toList, toList_instrs_of_parse h, ← String.length_toList]
  exact List.length_filterMap_le _ _

theorem balanced_of_parse (h : parse source = .ok code) :
    Balanced (code.instrs.toList.filterMap Instr.bracket?) := by
  rw [toList_instrs_of_parse h, filterMap_instrs]
  exact (parse_eq_ok_iff.1 h).1

theorem linkBrackets_of_parse (h : parse source = .ok code) :
    linkBrackets code.instrs.toList 0 [] (Array.range code.size) = ([], code.partners) := by
  have hopened := (linked_of_balanced (balanced_of_parse h)).1
  obtain ⟨_, rfl⟩ := parse_eq_ok_iff.1 h
  rw [size_ofInstrs]
  exact Prod.ext hopened rfl

/-- The table of a parsed code is its matching of brackets. -/
theorem linked_of_parse (h : parse source = .ok code) :
    Linked code.size code.instrs.toList [] code.partners := by
  have hbal := balanced_of_parse h
  obtain ⟨_, rfl⟩ := parse_eq_ok_iff.1 h
  rw [size_ofInstrs]
  exact (linked_of_balanced hbal).2

end Code

/-- A parsed code pairs its brackets as the grammar does.  Although balance was checked on the
characters of the source, the walk over its instructions takes an open bracket off the stack at
every closing one, and leaves none open. -/
theorem parse_links_brackets {source : String} {code : Code} (h : Code.parse source = .ok code) :
    code.instrs.toList = instrs source ∧ code.Matched ∧
    (∀ front back, instrs source = front ++ .closing :: back → ∃ i opened table,
      linkBrackets front 0 [] (Array.range code.size) = (i :: opened, table) ∧
      linkBrackets (instrs source) 0 [] (Array.range code.size) =
        linkBrackets back (front.length + 1) opened
          ((table.setIfInBounds i front.length).setIfInBounds front.length i)) ∧
    linkBrackets (instrs source) 0 [] (Array.range code.size) = ([], code.partners) := by
  have hinstrs := Code.toList_instrs_of_parse h
  have hbal := Code.balanced_of_parse h
  have hsize : (instrs source).length ≤ code.size := by
    rw [← hinstrs, Array.length_toList]
    exact Nat.le_refl _
  rw [hinstrs] at hbal
  refine ⟨hinstrs, Code.matched_of_linked (Code.linked_of_parse h), fun front back hsplit => ?_,
    ?_⟩
  · rw [hsplit] at hbal hsize ⊢
    obtain ⟨i, opened, table, _, hfront, hwhole⟩ := linkBrackets_closing hbal hsize
    exact ⟨i, opened, table, hfront, hwhole⟩
  · rw [← hinstrs]
    exact Code.linkBrackets_of_parse h

theorem parse_links_nested_loops : ∃ code : Code, Code.parse "a[b[-]+]c" = .ok code ∧
    code.partners = #[5, 3, 2, 1, 4, 0] ∧ code.Matched := by
  have hparse : Code.parse "a[b[-]+]c" =
      .ok ⟨#[.opening, .opening, .dec, .closing, .inc, .closing], #[5, 3, 2, 1, 4, 0]⟩ := by
    rfl
  exact ⟨_, hparse, rfl, (parse_links_brackets hparse).2.1⟩

end Brainfuck
