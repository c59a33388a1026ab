import Brainfuck.Execution.Table
import Brainfuck.Proofs.Diagnostics.Excerpt
import Brainfuck.Proofs.Text.Utf8

/-!
# Step tables read back

The columns of a step table have a least width and no greatest one, so it is read by its bars and
not by places.  A line ends at a newline and nowhere before it, a column at a bar.  A number is what
its digits are; the blanks that fill its column up are none.
-/

namespace Brainfuck

/-! ## Reading -/

def columnNumber (column : List Char) : Nat :=
  Nat.ofDigitChars 10 (column.filter Char.isDigit) 0

def Site.ofRow? (row : List Char) : Option Site :=
  match row.splitOn '|' with
  | step :: ip :: head :: cell :: instr :: _ =>
    (instr.findSome? Instr.ofChar?).map fun instr => {
      step := columnNumber step
      ip := columnNumber ip
      head := columnNumber head
      cell := UInt8.ofNat (columnNumber cell)
      instr }
  | _ => none

/-- What a step table shows of the machine, row by row. -/
def readTable? (bs : List UInt8) : Option (List Site) :=
  (Text.ofBytes? bs).bind fun text =>
    ((textLines text.toList).drop tableHeader.length).dropLast.mapM Site.ofRow?

/-! ## Columns -/

theorem toString_byte (b : UInt8) : toString b = toString b.toNat := rfl

/-- A number on at least `width` places, and the blank in front of the next bar. -/
def numberColumn (width n : Nat) : List Char :=
  (padRight width (toString n)).toList ++ [' ']

theorem numberColumn_eq (width n : Nat) :
    numberColumn width n =
      Nat.toDigits 10 n ++ List.replicate (width - (toString n).length + 1) ' ' := by
  simp [numberColumn, padRight, List.replicate_succ']

theorem notMem_numberColumn {c : Char} (hdigit : c.isDigit = false) (hblank : c ≠ ' ')
    (width n : Nat) : c ∉ numberColumn width n := by
  rw [numberColumn_eq, List.mem_append]
  rintro (hmem | hmem)
  · rw [Nat.isDigit_of_mem_toDigits (by decide) (by decide) hmem] at hdigit
    cases hdigit
  · exact hblank (List.eq_of_mem_replicate hmem)

theorem columnNumber_numberColumn (width n : Nat) : columnNumber (numberColumn width n) = n := by
  have hdigits : (Nat.toDigits 10 n).filter Char.isDigit = Nat.toDigits 10 n :=
    List.filter_eq_self.2 fun c hc => Nat.isDigit_of_mem_toDigits (by decide) (by decide) hc
  rw [columnNumber, numberColumn_eq, List.filter_append, hdigits,
    List.filter_replicate_of_neg (by decide), List.append_nil, Nat.ofDigitChars_ten_toDigits]

theorem columnNumber_blank_cons (column : List Char) :
    columnNumber (' ' :: column) = columnNumber column := rfl

def instrColumn (instr : Instr) : List Char :=
  [' ', ' ', instr.toChar, ' ', ' ', ' ', ' ']

theorem findSome?_instrColumn (instr : Instr) :
    (instrColumn instr).findSome? Instr.ofChar? = some instr := by
  cases instr <;> rfl

theorem notMem_instrColumn {c : Char} (hinstr : Instr.ofChar? c = none) (hblank : c ≠ ' ')
    (instr : Instr) : c ∉ instrColumn instr := by
  have hchar : c ≠ instr.toChar := by
    rintro rfl
    rw [Instr.ofChar?_toChar] at hinstr
    cases hinstr
  simp [instrColumn, hchar, hblank]

theorem newline_notMem_describe (action : Action) : '\n' ∉ action.describe.toList := by
  unfold Action.describe
  cases action with
  | passedOver instr cause => cases instr <;> simp
  | _ => simp [toString_byte, newline_notMem_toDigits]

/-! ## Rows -/

variable (site : Site) (action : Action)

theorem toList_row :
    (row site action).toList =
      numberColumn 4 site.step ++ '|' :: ((' ' :: numberColumn 3 site.ip) ++ '|' ::
        ((' ' :: numberColumn 3 site.head) ++ '|' :: ((' ' :: numberColumn 4 site.cell.toNat) ++
          '|' :: (instrColumn site.instr ++ '|' :: ' ' :: action.describe.toList)))) := by
  simp [row, numberColumn, instrColumn, toString_byte]

theorem splitOn_row :
    (row site action).toList.splitOn '|' =
      numberColumn 4 site.step :: (' ' :: numberColumn 3 site.ip) ::
        (' ' :: numberColumn 3 site.head) :: (' ' :: numberColumn 4 site.cell.toNat) ::
          instrColumn site.instr :: (' ' :: action.describe.toList).splitOn '|' := by
  have hnumber : ∀ width n, '|' ∉ numberColumn width n :=
    notMem_numberColumn (by decide) (by decide)
  have hblank : ∀ width n, '|' ∉ ' ' :: numberColumn width n := fun width n =>
    List.not_mem_cons_of_ne_of_not_mem (by decide) (hnumber width n)
  rw [toList_row, List.splitOn_append_cons_self_of_not_mem (hnumber _ _),
    List.splitOn_append_cons_self_of_not_mem (hblank _ _),
    List.splitOn_append_cons_self_of_not_mem (hblank _ _),
    List.splitOn_append_cons_self_of_not_mem (hblank _ _),
    List.splitOn_append_cons_self_of_not_mem (notMem_instrColumn rfl (by decide) _)]

theorem Site.ofRow?_row : Site.ofRow? (row site action).toList = some site := by
  rw [Site.ofRow?, splitOn_row]
  simp only [findSome?_instrColumn, Option.map_some, columnNumber_blank_cons,
    columnNumber_numberColumn, UInt8.ofNat_toNat]

example : Site.ofRow? "12345 | 1007 | 3   | 250  |  ]    | Exit loop (cell is 0)".toList =
    some { step := 12345, ip := 1007, head := 3, cell := 250, instr := .closing } := by rfl

theorem newline_notMem_row : '\n' ∉ (row site action).toList := by
  have hnumber : ∀ width n, '\n' ∉ numberColumn width n :=
    notMem_numberColumn (by decide) (by decide)
  have hinstr : '\n' ∉ instrColumn site.instr := notMem_instrColumn rfl (by decide) _
  simp [toList_row, hnumber, hinstr, newline_notMem_describe]

/-! ## Tables -/

def tableLines (rows : List (Site × Action)) : List String :=
  tableHeader ++ rows.map fun r => row r.1 r.2

def tableText (rows : List (Site × Action)) : String :=
  String.join ((tableLines rows).map (· ++ "\n"))

theorem newline_notMem_of_mem_tableLines {rows : List (Site × Action)} {line : String}
    (h : line ∈ tableLines rows) : '\n' ∉ line.toList := by
  rcases List.mem_append.1 h with hheader | hrow
  · have hnone : ∀ line ∈ tableHeader, '\n' ∉ line.toList := by simp [tableHeader]
    exact hnone line hheader
  · obtain ⟨r, _, rfl⟩ := List.mem_map.1 hrow
    exact newline_notMem_row r.1 r.2

theorem textLines_flatMap {lines : List String} (h : ∀ line ∈ lines, '\n' ∉ line.toList) :
    textLines (lines.flatMap fun line => line.toList ++ ['\n']) =
      lines.map String.toList ++ [[]] := by
  induction lines with
  | nil => rfl
  | cons line lines ih =>
      rw [List.flatMap_cons, List.append_assoc, List.singleton_append, textLines_append_newline,
        textLines_of_notMem (h line List.mem_cons_self),
        ih fun other hother => h other (List.mem_cons_of_mem line hother)]
      rfl

theorem bytes_join_lines (lines : List String) :
    Text.bytes (String.join (lines.map (· ++ "\n"))) =
      lines.flatMap fun line => (Mode.line line).flatten := by
  induction lines with
  | nil => exact Text.bytes_empty
  | cons line lines ih =>
      rw [List.map_cons, String.join_cons, Text.bytes_append, Text.bytes_append, ih]
      simp [Mode.line]

theorem bytes_tableText (rows : List (Site × Action)) :
    Text.bytes (tableText rows) =
      Mode.table.header.flatten ++ rows.flatMap fun r => (Mode.table.pieces r.1 r.2).flatten := by
  have hheader : (tableHeader.flatMap fun line => (Mode.line line).flatten) =
      Mode.table.header.flatten := by
    simp [Mode.header, tableHeader]
  rw [tableText, bytes_join_lines, tableLines, List.flatMap_append, hheader, List.flatMap_map]
  simp only [Mode.pieces]

/-- A step table is read as what its rows were written for. -/
theorem readTable?_tableText (rows : List (Site × Action)) :
    readTable? (Text.bytes (tableText rows)) = some (rows.map Prod.fst) := by
  have hlines : textLines (tableText rows).toList =
      (tableLines rows).map String.toList ++ [[]] := by
    rw [← textLines_flatMap fun line => newline_notMem_of_mem_tableLines]
    simp [tableText, List.flatMap_map]
  have hrows : (rows.map fun r => (row r.1 r.2).toList).mapM Site.ofRow? =
      some (rows.map Prod.fst) := by
    have hread : (Site.ofRow? ∘ fun r => (row r.1 r.2).toList) =
        fun r : Site × Action => some r.1 := by
      funext r
      rw [Function.comp_apply, Site.ofRow?_row]
    rw [List.mapM_map, hread]
    exact List.mapM_pure
  have hbody : ((tableLines rows).map String.toList ++ [[]]).drop tableHeader.length =
      (rows.map fun r => (row r.1 r.2).toList) ++ [[]] := by
    rw [tableLines, List.map_append, List.append_assoc, List.drop_left' (List.length_map _),
      List.map_map]
    simp only [Function.comp_def]
  rw [readTable?, Text.ofBytes?_bytes, Option.bind_some, hlines, hbody, List.dropLast_concat, hrows]

end Brainfuck
