import Brainfuck.Command.Invocation
import Brainfuck.Proofs.Text.Utf8

/-!
# The texts of a call

Code and input come from the arguments, from files or from the standard input.  The relations here
say which texts these are, and a call has no text where they hold of none: the file is not there,
cannot be read, or is not UTF-8.  The standard input is read only once, so for the input there is
nothing left of it if the code was read from there.
-/

namespace Brainfuck

namespace World

variable {w : World} {file text code : Option String} {parts : List String}
  {path source input : String}

inductive TextAt (w : World) : String → String → Prop
  | stdin {text : String} (htext : Text.Encodes text w.stdin) : TextAt w "-" text
  | file {path text : String} {name bs : List UInt8} (hdash : path ≠ "-")
      (hname : Text.Encodes path name) (hfile : w.lookup name = .contents bs)
      (htext : Text.Encodes text bs) : TextAt w path text

/-- The code from a file, if there is one, or from the arguments, but not from both. -/
inductive CodeOf (w : World) : Option String → List String → String → Prop
  | parts {parts : List String} (hparts : parts ≠ []) : CodeOf w none parts (String.join parts)
  | file {path text : String} (h : w.TextAt path text) : CodeOf w (some path) [] text

/-- The input that is given as a text or else in a file, when the code came from `code`. -/
inductive InputOf (w : World) (code : Option String) :
    Option String → Option String → String → Prop
  | given {text : String} {file : Option String} : InputOf w code (some text) file text
  | nothing : InputOf w code none none ""
  | drained (hcode : code = some "-") : InputOf w code none (some "-") ""
  | file {path text : String} (hleft : ¬(code = some "-" ∧ path = "-")) (h : w.TextAt path text) :
      InputOf w code none (some path) text

theorem readText_dash_eq_ok_iff {text : String} :
    w.readText "-" = .ok text ↔ Text.Encodes text w.stdin := by
  rw [← Text.ofBytes?_eq_some_iff, readText, if_pos rfl]
  cases hbytes : Text.ofBytes? w.stdin <;> simp [hbytes]

theorem readText_eq_ok_iff_of_ne (hdash : path ≠ "-") {text : String} :
    w.readText path = .ok text ↔
      ∃ bs, w.lookup (Text.bytes path) = .contents bs ∧ Text.Encodes text bs := by
  simp only [← Text.ofBytes?_eq_some_iff]
  rw [readText, if_neg hdash]
  cases w.lookup (Text.bytes path) with
  | absent cause => simp
  | unreadable cause => simp
  | contents bs => cases hbytes : Text.ofBytes? bs <;> simp [hbytes]

theorem readText_eq_ok_iff {text : String} : w.readText path = .ok text ↔ w.TextAt path text := by
  constructor
  · intro h
    by_cases hdash : path = "-"
    · subst hdash
      exact .stdin (readText_dash_eq_ok_iff.1 h)
    · obtain ⟨bs, hfile, htext⟩ := (readText_eq_ok_iff_of_ne hdash).1 h
      exact .file hdash (Text.bytes_eq_toUTF8 path).symm hfile htext
  · intro h
    cases h with
    | stdin htext => exact readText_dash_eq_ok_iff.2 htext
    | file hdash hname hfile htext =>
        obtain rfl : Text.bytes path = _ := (Text.bytes_eq_toUTF8 path).trans hname
        exact (readText_eq_ok_iff_of_ne hdash).2 ⟨_, hfile, htext⟩

theorem CodeOf.hasCode (h : w.CodeOf file parts source) : hasCode file parts = true := by
  cases h with
  | parts hparts => simp [World.hasCode, hparts]
  | file h => rfl

theorem readCode_eq_ok_iff (hgiven : hasCode file parts = true) :
    w.readCode file parts = .ok source ↔ w.CodeOf file parts source := by
  cases file with
  | none =>
      have hparts : parts ≠ [] := by simpa [World.hasCode] using hgiven
      constructor
      · intro h
        obtain rfl := Except.ok.inj h
        exact .parts hparts
      · rintro ⟨_⟩
        rfl
  | some path =>
      cases parts with
      | nil =>
          constructor
          · intro h
            simp only [readCode, List.isEmpty_nil, if_true] at h
            split at h
            · next htext =>
              obtain rfl := Except.ok.inj h
              exact .file (readText_eq_ok_iff.1 htext)
            · cases h
          · rintro (_ | h)
            simp only [readCode, List.isEmpty_nil, if_true, readText_eq_ok_iff.2 h]
      | cons part parts =>
          constructor
          · intro h
            cases h
          · intro h
            cases h

theorem textAt_afterReading_iff {text : String} :
    (w.afterReading code).TextAt path text ↔
      code = some "-" ∧ path = "-" ∧ text = "" ∨
        ¬(code = some "-" ∧ path = "-") ∧ w.TextAt path text := by
  unfold afterReading
  by_cases hcode : code = some "-"
  · rw [if_pos hcode]
    constructor
    · rintro (htext | ⟨hdash, hname, hfile, htext⟩)
      · have hnothing : Text.ofBytes? [] = some "" := rfl
        exact .inl ⟨hcode, rfl,
          Option.some.inj ((Text.ofBytes?_eq_some_iff.2 htext).symm.trans hnothing)⟩
      · exact .inr ⟨fun h => hdash h.2, .file hdash hname hfile htext⟩
    · rintro (⟨_, rfl, rfl⟩ | ⟨hleft, _ | ⟨hdash, hname, hfile, htext⟩⟩)
      · exact .stdin rfl
      · exact absurd ⟨hcode, rfl⟩ hleft
      · exact .file hdash hname hfile htext
  · simp [hcode]

theorem readInput_eq_ok_iff :
    (w.afterReading code).readInput text file = .ok input ↔ w.InputOf code text file input := by
  cases text with
  | some text =>
      constructor
      · intro h
        obtain rfl := Except.ok.inj h
        exact .given
      · rintro ⟨_⟩
        rfl
  | none =>
      cases file with
      | none =>
          constructor
          · intro h
            obtain rfl := Except.ok.inj h
            exact .nothing
          · rintro ⟨_⟩
            rfl
      | some path =>
          have hread : (w.afterReading code).readInput none (some path) = .ok input ↔
              (w.afterReading code).TextAt path input := by
            rw [← readText_eq_ok_iff, readInput]
            cases (w.afterReading code).readText path <;> simp
          rw [hread, textAt_afterReading_iff]
          constructor
          · rintro (⟨hcode, rfl, rfl⟩ | ⟨hleft, h⟩)
            · exact .drained hcode
            · exact .file hleft h
          · rintro (_ | _ | hcode | ⟨hleft, h⟩)
            · exact .inl ⟨hcode, rfl, rfl⟩
            · exact .inr ⟨hleft, h⟩

end World

end Brainfuck
