/-!
# Slices

A text is cut at bytes, and it can only be cut where characters begin.  So there is a slice only
between two bytes that are in order, not beyond the end, and not inside characters.  Where a
character begins depends on the sizes of all characters before it.
-/

namespace Brainfuck.Text

/-- The byte where character number `i` begins, if the first of the characters begins at `start`. -/
def byteIndexFrom? (start : Nat) : Nat → List Char → Option Nat
  | _, [] => none
  | 0, _ :: _ => some start
  | i + 1, c :: cs => byteIndexFrom? (start + c.utf8Size) i cs

/-- The byte where character number `i` begins, or the end of the text. -/
def byteIndex (s : String) (i : Nat) : Nat :=
  (byteIndexFrom? 0 i s.toList).getD s.utf8ByteSize

/-- The text can be cut at these two bytes. -/
structure IsSlice (s : String) (start stop : Nat) : Prop where
  isValid_start : String.Pos.Raw.IsValid s ⟨start⟩
  isValid_stop : String.Pos.Raw.IsValid s ⟨stop⟩
  start_le_stop : start ≤ stop

/-- What is between two bytes. -/
def slice (s : String) {start stop : Nat} (h : IsSlice s start stop) : String :=
  s.extract ⟨⟨start⟩, h.isValid_start⟩ ⟨⟨stop⟩, h.isValid_stop⟩

/-! ## Where characters begin -/

theorem byteIndexFrom?_eq (start i : Nat) (cs : List Char) :
    byteIndexFrom? start i cs =
      if i < cs.length then some (start + (String.ofList (cs.take i)).utf8ByteSize) else none := by
  induction cs generalizing start i with
  | nil => cases i <;> rfl
  | cons c cs ih =>
      cases i with
      | zero => simp [byteIndexFrom?]
      | succ i =>
          simp only [byteIndexFrom?, ih, List.length_cons, Nat.add_lt_add_iff_right,
            List.take_succ_cons, String.ofList_cons, String.utf8ByteSize_append,
            String.utf8ByteSize_singleton, Nat.add_assoc]

/-- A character begins where those before it end. -/
theorem byteIndex_eq (s : String) (i : Nat) :
    byteIndex s i = (String.ofList (s.toList.take i)).utf8ByteSize := by
  rw [byteIndex, byteIndexFrom?_eq, Nat.zero_add]
  split
  · rfl
  · next h => rw [List.take_of_length_le (Nat.le_of_not_lt h), String.ofList_toList]; rfl

theorem isValid_byteIndex (s : String) (i : Nat) : String.Pos.Raw.IsValid s ⟨byteIndex s i⟩ :=
  String.Pos.Raw.isValid_iff_exists_take_toList.2 ⟨i, byteIndex_eq s i⟩

variable {s : String} {i j : Nat}

/-- The characters before number `j` begin with those before number `i`. -/
theorem take_append_drop_take (h : min i s.length ≤ j) :
    s.toList.take i ++ (s.toList.take j).drop i = s.toList.take j := by
  -- Beyond the end of the text `i` may be greater than `j`.
  have htake : s.toList.take i = (s.toList.take j).take i := by
    rw [List.take_take, List.take_eq_take_iff, String.length_toList]
    omega
  rw [htake, List.take_append_drop]

theorem byteIndex_le_byteIndex (h : min i s.length ≤ j) : byteIndex s i ≤ byteIndex s j := by
  rw [byteIndex_eq, byteIndex_eq, ← take_append_drop_take h, String.ofList_append,
    String.utf8ByteSize_append]
  exact Nat.le_add_right _ _

/-- Between characters a text can be cut, in order or beyond the end. -/
theorem isSlice_byteIndex (h : min i s.length ≤ j) : IsSlice s (byteIndex s i) (byteIndex s j) where
  isValid_start := isValid_byteIndex s i
  isValid_stop := isValid_byteIndex s j
  start_le_stop := byteIndex_le_byteIndex h

/-! ## What is cut out -/

theorem slice_eq_of_append {s : String} {start stop : Nat} (h : IsSlice s start stop)
    (front middle back : String) (hs : s = front ++ middle ++ back)
    (hstart : start = front.utf8ByteSize) (hstop : stop = (front ++ middle).utf8ByteSize) :
    slice s h = middle := by
  have hbytes : s.toByteArray = front.toByteArray ++ (middle.toByteArray ++ back.toByteArray) := by
    rw [hs, String.append_assoc, String.toByteArray_append, String.toByteArray_append]
  rw [← String.toByteArray_inj, slice, String.toByteArray_extract, hbytes]
  calc
    (front.toByteArray ++ (middle.toByteArray ++ back.toByteArray)).extract start stop
    _ = (front.toByteArray ++ (middle.toByteArray ++ back.toByteArray)).extract
          (front.toByteArray.size + 0) (front.toByteArray.size + middle.toByteArray.size) := by
      rw [hstart, hstop, String.utf8ByteSize_append]
      rfl
    _ = (middle.toByteArray ++ back.toByteArray).extract 0 middle.toByteArray.size :=
      ByteArray.extract_append_size_add
    _ = middle.toByteArray := ByteArray.extract_append_eq_left rfl

/-- Between character number `i` and character number `j` are those from `i` on and before `j`. -/
theorem toList_slice_byteIndex (h : min i s.length ≤ j) :
    (slice s (isSlice_byteIndex h)).toList = (s.toList.take j).drop i := by
  have hmiddle : slice s (isSlice_byteIndex h) = String.ofList ((s.toList.take j).drop i) := by
    apply slice_eq_of_append _ (String.ofList (s.toList.take i)) _
      (String.ofList (s.toList.drop j))
    · rw [← String.ofList_append, take_append_drop_take h, ← String.ofList_append,
        List.take_append_drop, String.ofList_toList]
    · exact byteIndex_eq s i
    · rw [← String.ofList_append, take_append_drop_take h, byteIndex_eq]
  rw [hmiddle, String.toList_ofList]

end Brainfuck.Text
