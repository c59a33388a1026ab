import Brainfuck.Text.Utf8

/-!
# Bytes of texts

The bytes of a code point are one to four, and the first of them decides how many there are.  Behind
four of the first bytes the second one has tighter bounds than elsewhere, so that there are no other
bytes for the same code point and none for a surrogate.  `Encoding` is the table of all this.

At the end of such bytes the machine that reads bytes has come back to where it was before them,
with the character.  Other bytes leave a gap.  So a text is read from its own bytes and from no
others.
-/

namespace Brainfuck.Text

/-- The bytes are the UTF-8 of the text. -/
def Encodes (s : String) (bs : List UInt8) : Prop :=
  s.toUTF8.data.toList = bs

theorem bytes_eq_toUTF8 (s : String) : bytes s = s.toUTF8.data.toList := by
  unfold bytes
  rw [String.toUTF8_eq_toByteArray, ← String.utf8Encode_toList, List.utf8Encode,
    List.toList_data_toByteArray]

namespace Utf8

variable {b : UInt8} {bs : List UInt8} {c : Char} {us : List (Option Char)}
  {missing low high value v : Nat}

def IsLater (b : UInt8) : Prop :=
  0x80 ≤ b.toNat ∧ b.toNat ≤ 0xBF

/-! ## First bytes -/

theorem units_cons_start {q : Sequence} (h : start b = (some q, [])) (bs : List UInt8) :
    units none (b :: bs) = units (some q) bs := by
  rw [units, read, h]
  rfl

theorem units_cons_ascii (h : b.toNat < 0x80) (bs : List UInt8) :
    units none (b :: bs) = some (Char.ofNat b.toNat) :: units none bs := by
  simp [units, read, start, h]

theorem start_of_two (hlow : 0xC2 ≤ b.toNat) (hhigh : b.toNat < 0xE0) :
    start b = (some { missing := 1, value := b.toNat - 0xC0 }, []) := by
  unfold start
  dsimp only
  rw [if_neg (by omega), if_neg (by omega), if_pos hhigh]

theorem start_of_three (hlow : 0xE0 ≤ b.toNat) (hhigh : b.toNat < 0xF0) :
    ∃ low high, start b = (some { missing := 2, low, high, value := b.toNat - 0xE0 }, []) ∧
      ∀ b₁ : UInt8, low ≤ b₁.toNat ∧ b₁.toNat ≤ high ↔
        IsLater b₁ ∧ (b.toNat = 0xE0 → 0xA0 ≤ b₁.toNat) ∧ (b.toNat = 0xED → b₁.toNat ≤ 0x9F) := by
  unfold start IsLater
  simp only [beq_iff_eq]
  rw [if_neg (by omega), if_neg (by omega), if_neg (by omega)]
  by_cases he0 : b.toNat = 0xE0
  · -- Anything below 0xA0 would be a character of two bytes.
    exact ⟨0xA0, 0xBF, by simp [he0], by omega⟩
  · by_cases hed : b.toNat = 0xED
    · -- Anything above 0x9F would be a surrogate.
      exact ⟨0x80, 0x9F, by simp [hed], by omega⟩
    · exact ⟨0x80, 0xBF, by simp [he0, hed, hhigh], by omega⟩

theorem start_of_four (hlow : 0xF0 ≤ b.toNat) (hhigh : b.toNat < 0xF5) :
    ∃ low high, start b = (some { missing := 3, low, high, value := b.toNat - 0xF0 }, []) ∧
      ∀ b₁ : UInt8, low ≤ b₁.toNat ∧ b₁.toNat ≤ high ↔
        IsLater b₁ ∧ (b.toNat = 0xF0 → 0x90 ≤ b₁.toNat) ∧ (b.toNat = 0xF4 → b₁.toNat ≤ 0x8F) := by
  unfold start IsLater
  simp only [beq_iff_eq]
  rw [if_neg (by omega), if_neg (by omega), if_neg (by omega), if_neg (by omega),
    if_neg (by omega), if_neg (by omega)]
  by_cases hf0 : b.toNat = 0xF0
  · -- Anything below 0x90 would be a character of three bytes.
    exact ⟨0x90, 0xBF, by simp [hf0], by omega⟩
  · by_cases hf4 : b.toNat = 0xF4
    · -- Anything above 0x8F would be no code point.
      exact ⟨0x80, 0x8F, by simp [hf4], by omega⟩
    · exact ⟨0x80, 0xBF, by rw [if_neg hf0, if_pos (by omega)], by omega⟩

theorem start_of_gap (h : 0x80 ≤ b.toNat ∧ b.toNat < 0xC2 ∨ 0xF5 ≤ b.toNat) :
    start b = (none, [none]) := by
  unfold start
  simp only [beq_iff_eq]
  rcases h with ⟨hlow, hhigh⟩ | hlow
  · rw [if_neg (by omega), if_pos hhigh]
  · rw [if_neg (by omega), if_neg (by omega), if_neg (by omega), if_neg (by omega),
      if_neg (by omega), if_neg (by omega), if_neg (by omega), if_neg (by omega),
      if_neg (by omega)]

/-! ## Later bytes -/

/-- A byte that others follow adds six bits to the value. -/
theorem units_cons_later (h : low ≤ b.toNat ∧ b.toNat ≤ high) (bs : List UInt8) :
    units (some { missing := missing + 2, low, high, value }) (b :: bs) =
      units (some { missing := missing + 1, value := value * 64 + (b.toNat - 0x80) }) bs := by
  rw [units]
  unfold read
  simp [h]

theorem units_cons_last (h : IsLater b) (bs : List UInt8) :
    units (some { missing := 1, value }) (b :: bs) =
      some (Char.ofNat (value * 64 + (b.toNat - 0x80))) :: units none bs := by
  obtain ⟨hlow, hhigh⟩ := h
  rw [units]
  unfold read
  simp [hlow, hhigh]

theorem exists_of_units_some_eq_cons
    (h : units (some { missing, low, high, value }) bs = some c :: us) :
    ∃ b rest, bs = b :: rest ∧ low ≤ b.toNat ∧ b.toNat ≤ high := by
  cases bs with
  | nil => cases h
  | cons b rest =>
      by_cases hbounds : low ≤ b.toNat ∧ b.toNat ≤ high
      · exact ⟨b, rest, rfl, hbounds⟩
      · have hgap : (decide (low ≤ b.toNat) && decide (b.toNat ≤ high)) = false := by
          simpa using hbounds
        rw [units] at h
        unfold read at h
        simp [hgap] at h

theorem read_ne_nothing (pending : Option Sequence) (b : UInt8) : read pending b ≠ (none, []) := by
  have hstart : start b ≠ (none, []) := by grind [start]
  cases pending with
  | none => exact hstart
  | some q =>
      unfold read
      grind

theorem eq_nil_of_units_eq_nil {pending : Option Sequence} (h : units pending bs = []) :
    pending = none ∧ bs = [] := by
  induction bs generalizing pending with
  | nil =>
      cases pending with
      | none => exact ⟨rfl, rfl⟩
      | some q => cases h
  | cons b bs ih =>
      rw [units] at h
      obtain ⟨hnow, hrest⟩ := List.append_eq_nil_iff.1 h
      exact absurd (Prod.ext (ih hrest).1 hnow) (read_ne_nothing pending b)

/-! ## Code points -/

inductive Encoding : List UInt8 → Nat → Prop
  | one {b : UInt8} (h : b.toNat < 0x80) : Encoding [b] b.toNat
  | two {b₀ b₁ : UInt8} (hlow : 0xC2 ≤ b₀.toNat) (hhigh : b₀.toNat < 0xE0) (h₁ : IsLater b₁) :
      Encoding [b₀, b₁] ((b₀.toNat - 0xC0) * 64 + (b₁.toNat - 0x80))
  | three {b₀ b₁ b₂ : UInt8} (hlow : 0xE0 ≤ b₀.toNat) (hhigh : b₀.toNat < 0xF0) (h₁ : IsLater b₁)
      (hlong : b₀.toNat = 0xE0 → 0xA0 ≤ b₁.toNat)
      (hsurrogate : b₀.toNat = 0xED → b₁.toNat ≤ 0x9F) (h₂ : IsLater b₂) :
      Encoding [b₀, b₁, b₂]
        (((b₀.toNat - 0xE0) * 64 + (b₁.toNat - 0x80)) * 64 + (b₂.toNat - 0x80))
  | four {b₀ b₁ b₂ b₃ : UInt8} (hlow : 0xF0 ≤ b₀.toNat) (hhigh : b₀.toNat < 0xF5) (h₁ : IsLater b₁)
      (hlong : b₀.toNat = 0xF0 → 0x90 ≤ b₁.toNat) (hlarge : b₀.toNat = 0xF4 → b₁.toNat ≤ 0x8F)
      (h₂ : IsLater b₂) (h₃ : IsLater b₃) :
      Encoding [b₀, b₁, b₂, b₃]
        ((((b₀.toNat - 0xF0) * 64 + (b₁.toNat - 0x80)) * 64 + (b₂.toNat - 0x80)) * 64 +
          (b₃.toNat - 0x80))

namespace Encoding

variable {e : List UInt8}

theorem units_append (h : Encoding e v) (bs : List UInt8) :
    units none (e ++ bs) = some (Char.ofNat v) :: units none bs := by
  cases h with
  | one h => exact units_cons_ascii h bs
  | two hlow hhigh h₁ =>
      simp only [List.cons_append, List.nil_append]
      rw [units_cons_start (start_of_two hlow hhigh), units_cons_last h₁]
  | three hlow hhigh h₁ hlong hsurrogate h₂ =>
      obtain ⟨_, _, hstart, hbounds⟩ := start_of_three hlow hhigh
      have hsecond := (hbounds _).2 ⟨h₁, hlong, hsurrogate⟩
      simp only [List.cons_append, List.nil_append]
      rw [units_cons_start hstart, units_cons_later hsecond, units_cons_last h₂]
  | four hlow hhigh h₁ hlong hlarge h₂ h₃ =>
      obtain ⟨_, _, hstart, hbounds⟩ := start_of_four hlow hhigh
      have hsecond := (hbounds _).2 ⟨h₁, hlong, hlarge⟩
      simp only [List.cons_append, List.nil_append]
      rw [units_cons_start hstart, units_cons_later hsecond, units_cons_later h₂,
        units_cons_last h₃]

theorem isValidChar (h : Encoding e v) : v.isValidChar := by
  unfold Nat.isValidChar
  cases h with
  | one h => omega
  | two hlow hhigh h₁ =>
      unfold IsLater at h₁
      omega
  | three hlow hhigh h₁ hlong hsurrogate h₂ =>
      unfold IsLater at h₁ h₂
      omega
  | four hlow hhigh h₁ hlong hlarge h₂ h₃ =>
      unfold IsLater at h₁ h₂ h₃
      omega

theorem eq_utf8EncodeChar (h : Encoding e v) : e = String.utf8EncodeChar (Char.ofNat v) := by
  have hvalue : (Char.ofNat v).val.toNat = v := by
    rw [Char.ofNat, dif_pos h.isValidChar]
    rfl
  have hbyte {b : UInt8} {n : Nat} (hb : b.toNat = n) : UInt8.ofNat n = b :=
    hb ▸ UInt8.ofNat_toNat
  unfold String.utf8EncodeChar
  simp only [hvalue]
  cases h with
  | one h => rw [if_pos (by omega), hbyte rfl]
  | @two b₀ b₁ hlow hhigh h₁ =>
      unfold IsLater at h₁
      rw [if_neg (by omega), if_pos (by omega), hbyte (b := b₀) (by omega),
        hbyte (b := b₁) (by omega)]
  | @three b₀ b₁ b₂ hlow hhigh h₁ hlong hsurrogate h₂ =>
      unfold IsLater at h₁ h₂
      rw [if_neg (by omega), if_neg (by omega), if_pos (by omega), hbyte (b := b₀) (by omega),
        hbyte (b := b₁) (by omega), hbyte (b := b₂) (by omega)]
  | @four b₀ b₁ b₂ b₃ hlow hhigh h₁ hlong hlarge h₂ h₃ =>
      unfold IsLater at h₁ h₂ h₃
      rw [if_neg (by omega), if_neg (by omega), if_neg (by omega), hbyte (b := b₀) (by omega),
        hbyte (b := b₁) (by omega), hbyte (b := b₂) (by omega), hbyte (b := b₃) (by omega)]

end Encoding

theorem encoding_utf8EncodeChar (c : Char) :
    Encoding (String.utf8EncodeChar c) c.val.toNat := by
  have hvalid : c.val.toNat < 0xD800 ∨ 0xDFFF < c.val.toNat ∧ c.val.toNat < 0x110000 := c.valid
  have hbyte {n : Nat} (h : n < 256) : (UInt8.ofNat n).toNat = n := by
    rw [UInt8.toNat_ofNat']
    exact Nat.mod_eq_of_lt h
  unfold String.utf8EncodeChar
  generalize c.val.toNat = v at hvalid
  have hlater (n : Nat) : (UInt8.ofNat (n % 64 + 128)).toNat = n % 64 + 128 := hbyte (by omega)
  have hislater (n : Nat) : IsLater (UInt8.ofNat (n % 64 + 128)) := by
    unfold IsLater
    rw [hlater]
    omega
  dsimp only
  by_cases hone : v ≤ 0x7F
  · have hfirst : (UInt8.ofNat v).toNat = v := hbyte (by omega)
    have h : Encoding [UInt8.ofNat v] _ := .one (by omega)
    rw [hfirst] at h
    rwa [if_pos hone]
  rw [if_neg hone]
  by_cases htwo : v ≤ 0x7FF
  · have hfirst : (UInt8.ofNat (v / 64 % 32 + 192)).toNat = v / 64 % 32 + 192 := hbyte (by omega)
    have hvalue : (v / 64 % 32 + 192 - 192) * 64 + (v % 64 + 128 - 128) = v := by omega
    have h : Encoding [UInt8.ofNat (v / 64 % 32 + 192), UInt8.ofNat (v % 64 + 128)] _ :=
      .two (by omega) (by omega) (hislater v)
    rw [hfirst, hlater, hvalue] at h
    rwa [if_pos htwo]
  rw [if_neg htwo]
  by_cases hthree : v ≤ 0xFFFF
  · have hfirst : (UInt8.ofNat (v / 4096 % 16 + 224)).toNat = v / 4096 % 16 + 224 :=
      hbyte (by omega)
    have hvalue : ((v / 4096 % 16 + 224 - 224) * 64 + (v / 64 % 64 + 128 - 128)) * 64 +
        (v % 64 + 128 - 128) = v := by omega
    have h : Encoding [UInt8.ofNat (v / 4096 % 16 + 224), UInt8.ofNat (v / 64 % 64 + 128),
        UInt8.ofNat (v % 64 + 128)] _ :=
      .three (by omega) (by omega) (hislater (v / 64)) (by rw [hlater]; omega)
        (by rw [hlater]; omega) (hislater v)
    rw [hfirst, hlater, hlater, hvalue] at h
    rwa [if_pos hthree]
  · have hfirst : (UInt8.ofNat (v / 262144 % 8 + 240)).toNat = v / 262144 % 8 + 240 :=
      hbyte (by omega)
    have hvalue : (((v / 262144 % 8 + 240 - 240) * 64 + (v / 4096 % 64 + 128 - 128)) * 64 +
        (v / 64 % 64 + 128 - 128)) * 64 + (v % 64 + 128 - 128) = v := by omega
    have h : Encoding [UInt8.ofNat (v / 262144 % 8 + 240), UInt8.ofNat (v / 4096 % 64 + 128),
        UInt8.ofNat (v / 64 % 64 + 128), UInt8.ofNat (v % 64 + 128)] _ :=
      .four (by omega) (by omega) (hislater (v / 4096)) (by rw [hlater]; omega)
        (by rw [hlater]; omega) (hislater (v / 64)) (hislater v)
    rw [hfirst, hlater, hlater, hlater, hvalue] at h
    rwa [if_neg hthree]

/-- What is read as a character begins with the bytes of a code point. -/
theorem exists_encoding_of_units (h : units none bs = some c :: us) :
    ∃ e v rest, bs = e ++ rest ∧ Encoding e v := by
  cases bs with
  | nil => cases h
  | cons b bs =>
      by_cases hgap : 0x80 ≤ b.toNat ∧ b.toNat < 0xC2 ∨ 0xF5 ≤ b.toNat
      · rw [units, read, start_of_gap hgap] at h
        cases h
      by_cases hone : b.toNat < 0x80
      · exact ⟨[b], _, bs, rfl, .one hone⟩
      by_cases htwo : b.toNat < 0xE0
      · have hlow : 0xC2 ≤ b.toNat := by omega
        rw [units_cons_start (start_of_two hlow htwo)] at h
        obtain ⟨b₁, rest, rfl, h₁⟩ := exists_of_units_some_eq_cons h
        exact ⟨[b, b₁], _, rest, rfl, .two hlow htwo h₁⟩
      by_cases hthree : b.toNat < 0xF0
      · have hlow : 0xE0 ≤ b.toNat := by omega
        obtain ⟨_, _, hstart, hbounds⟩ := start_of_three hlow hthree
        rw [units_cons_start hstart] at h
        obtain ⟨b₁, _, rfl, hsecond⟩ := exists_of_units_some_eq_cons h
        rw [units_cons_later hsecond] at h
        obtain ⟨b₂, rest, rfl, h₂⟩ := exists_of_units_some_eq_cons h
        obtain ⟨h₁, hlong, hsurrogate⟩ := (hbounds b₁).1 hsecond
        exact ⟨[b, b₁, b₂], _, rest, rfl, .three hlow hthree h₁ hlong hsurrogate h₂⟩
      · have hlow : 0xF0 ≤ b.toNat := by omega
        have hhigh : b.toNat < 0xF5 := by omega
        obtain ⟨_, _, hstart, hbounds⟩ := start_of_four hlow hhigh
        rw [units_cons_start hstart] at h
        obtain ⟨b₁, _, rfl, hsecond⟩ := exists_of_units_some_eq_cons h
        rw [units_cons_later hsecond] at h
        obtain ⟨b₂, _, rfl, h₂⟩ := exists_of_units_some_eq_cons h
        rw [units_cons_later h₂] at h
        obtain ⟨b₃, rest, rfl, h₃⟩ := exists_of_units_some_eq_cons h
        obtain ⟨h₁, hlong, hlarge⟩ := (hbounds b₁).1 hsecond
        exact ⟨[b, b₁, b₂, b₃], _, rest, rfl, .four hlow hhigh h₁ hlong hlarge h₂ h₃⟩

/-! ## Texts -/

theorem units_flatMap_utf8EncodeChar (cs : List Char) :
    units none (cs.flatMap String.utf8EncodeChar) = cs.map some := by
  induction cs with
  | nil => rfl
  | cons c cs ih =>
      rw [List.flatMap_cons, (encoding_utf8EncodeChar c).units_append, ih, List.map_cons]
      exact congrArg (some · :: cs.map some) (Char.ofNat_toNat c)

theorem mapM_id_eq_some_iff {cs : List Char} : us.mapM id = some cs ↔ us = cs.map some := by
  constructor
  · intro h
    induction us generalizing cs with
    | nil =>
        cases h
        rfl
    | cons u us ih =>
        rw [List.mapM_cons] at h
        obtain ⟨c, hc, h⟩ := Option.bind_eq_some_iff.1 h
        obtain ⟨rest, hrest, h⟩ := Option.bind_eq_some_iff.1 h
        cases h
        rw [ih hrest, List.map_cons, ← hc]
        rfl
  · rintro rfl
    rw [List.mapM_map]
    exact List.mapM_pure.trans (congrArg some (List.map_id cs))

theorem eq_flatMap_of_units {cs : List Char} (h : units none bs = cs.map some) :
    bs = cs.flatMap String.utf8EncodeChar := by
  induction cs generalizing bs with
  | nil => exact (eq_nil_of_units_eq_nil h).2
  | cons c cs ih =>
      obtain ⟨e, v, rest, rfl, he⟩ := exists_encoding_of_units h
      rw [he.units_append, List.map_cons, List.cons.injEq, Option.some.injEq] at h
      obtain ⟨rfl, hrest⟩ := h
      rw [List.flatMap_cons, ← he.eq_utf8EncodeChar, ← ih hrest]

end Utf8

theorem ofBytes?_eq_some_iff {bs : List UInt8} {s : String} :
    ofBytes? bs = some s ↔ Encodes s bs := by
  rw [ofBytes?, Option.map_eq_some_iff, Encodes, ← bytes_eq_toUTF8, bytes]
  constructor
  · rintro ⟨cs, hcs, rfl⟩
    rw [String.toList_ofList]
    exact (Utf8.eq_flatMap_of_units (Utf8.mapM_id_eq_some_iff.1 hcs)).symm
  · rintro rfl
    exact ⟨s.toList, Utf8.mapM_id_eq_some_iff.2 (Utf8.units_flatMap_utf8EncodeChar _),
      String.ofList_toList⟩

theorem ofBytes?_bytes (s : String) : ofBytes? (bytes s) = some s :=
  ofBytes?_eq_some_iff.2 (bytes_eq_toUTF8 s).symm

end Brainfuck.Text
