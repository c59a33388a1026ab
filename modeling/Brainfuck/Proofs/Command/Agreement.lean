import Brainfuck.Proofs.Command.Preparation
import Brainfuck.Proofs.Diagnostics.Culprit

/-!
# Check and run agree

Both commands look at the brackets of the code they are given, each in its own way.  What `check`
counts are the bytes of the source without its comments, and a run decodes the source into as many
instructions.  So a code that `check` accepts is loaded by every run that has its texts and its
settings, and one that it refuses is refused by the run in the same words.
-/

namespace Brainfuck

open Machine

theorem utf8Size_toChar_instr (x : Instr) : x.toChar.utf8Size = 1 := by
  cases x <;> decide

/-- Instructions are characters of one byte each. -/
theorem Code.length_bytes_strip_of_parse {source : String} {code : Code}
    (h : parse source = .ok code) : (Text.bytes (strip source)).length = code.size := by
  rw [← text_of_parse h, text, Text.bytes, String.toList_ofList, List.length_flatMap, List.map_map]
  simp only [Function.comp_def, String.length_utf8EncodeChar, utf8Size_toChar_instr,
    List.map_const', List.sum_replicate_nat, Array.length_toList, Nat.mul_one, size]

namespace World

variable {w : World} {c : CheckRequest} {source : String}

structure Checks (w : World) (c : CheckRequest) (source : String) : Prop where
  noHelp : c.help = false
  code : w.CodeOf c.file c.code source

namespace Checks

theorem readCode (h : w.Checks c source) : w.readCode c.file c.code = .ok source :=
  (readCode_eq_ok_iff h.code.hasCode).2 h.code

theorem check_of_balanced (h : w.Checks c source) {code : Code}
    (hparse : Code.parse source = .ok code) :
    w.check c =
      { status := 0
        stdout := Text.bytes ("ok (" ++ toString code.size ++ " instructions)\n") } := by
  have hbrackets := (checkBrackets_eq_ok_iff source).2 (Code.parse_eq_ok_iff.1 hparse).1
  simp [check, h.noHelp, h.code.hasCode, h.readCode, hbrackets,
    Code.length_bytes_strip_of_parse hparse]

theorem check_of_unmatched (h : w.Checks c source) {u : Unmatched}
    (hbrackets : checkBrackets source = .error u) :
    w.check c =
      { status := 1, message := (Failure.unmatched u).render (some w.program) source } := by
  simp [check, h.noHelp, h.code.hasCode, h.readCode, hbrackets]

end Checks

/-- A `check` and a run of one program that read the same code, the run with its input read and its
settings accepted.  If the check exits 0 it prints the number of instructions, which is the number
of bytes of the source without its comments, and the run is one of the loaded machine.  If it exits
1 then no run is prepared, and the outcome is a refusal in the words of the check.  It exits in no
other way. -/
theorem check_and_run_agree {w w' : World} {c : CheckRequest} {r : RunRequest}
    {source input : String} {s : Settings} (hprogram : w'.program = w.program)
    (hcheck : w.Checks c source) (hrun : w'.Reads r source input)
    (hsettings : (w'.settings r.flags).2 = .ok s) :
    ((w.check c).status = 0 ∨ (w.check c).status = 1) ∧
    ((w.check c).status = 0 →
      ∃ (code : Code) (m : Machine) (p : Prepared), Code.parse source = .ok code ∧
        (Text.bytes (strip source)).length = code.size ∧
        (w.check c).stdout = Text.bytes ("ok (" ++ toString code.size ++ " instructions)\n") ∧
        (w.check c).message = "" ∧
        checkBrackets source = .ok () ∧
        load source input s.machineConfig = .ok m ∧ m.code = code ∧
        w'.prepare r = .ok p ∧ p.source = source ∧ p.settings = s ∧ p.machine = m ∧
        ∀ fuel, w'.run fuel r = p.run w' fuel) ∧
    ((w.check c).status = 1 →
      ∃ o, w'.prepare r = .error o ∧ (∀ fuel, w'.run fuel r = some o) ∧
        o.status = 1 ∧ o.stdout = [] ∧ o.message = (w.check c).message) := by
  cases hbrackets : checkBrackets source with
  | ok =>
      have hbalanced := (checkBrackets_eq_ok_iff source).1 hbrackets
      obtain ⟨m, hload, hprepare⟩ := hrun.exists_prepare hsettings hbrackets
      obtain ⟨_, code, hparse, hm⟩ := load_eq_ok_iff.1 hload
      have hout := hcheck.check_of_balanced hparse
      refine ⟨.inl (by rw [hout]), fun _ => ?_, fun hone => ?_⟩
      · exact ⟨code, m, _, hparse, Code.length_bytes_strip_of_parse hparse, by rw [hout],
          by rw [hout], rfl, hload, by rw [hm], hprepare, rfl, rfl, rfl,
          hrun.run_of_prepare_eq_ok hprepare⟩
      · rw [hout] at hone
        cases hone
  | error u =>
      have hout := hcheck.check_of_unmatched hbrackets
      have hprepare := hrun.prepare_of_unmatched hsettings hbrackets
      refine ⟨.inr (by rw [hout]), fun hzero => ?_, fun _ => ?_⟩
      · rw [hout] at hzero
        cases hzero
      · exact ⟨_, hprepare, hrun.run_of_prepare_eq_error hprepare, rfl, rfl,
          by rw [hout, hprogram]⟩

/-- The code as two arguments of `check`, and as the standard input of a run. -/
theorem agreement_on_standard_input :
    let w : World := { args := [], environment := fun _ => none, lookup := fun _ => .absent "" }
    let c : CheckRequest := { code := ["+", "a."] }
    let r : RunRequest := { file := some "-" }
    (∃ p, { w with stdin := [43, 97, 46] }.prepare r = .ok p ∧ p.machine.code.size = 2 ∧
      (w.check c).stdout = Text.bytes "ok (2 instructions)\n") ∧
    ∃ o, { w with stdin := [43, 97, 93] }.prepare r = .error o ∧ o.stdout = [] ∧
      o.message = (w.check { c with code := ["+a", "]"] }).message := by
  intro w c r
  have hgood : w.Checks c "+a." := ⟨rfl, .parts (List.cons_ne_nil _ _)⟩
  have hgoodrun : { w with stdin := [43, 97, 46] }.Reads r "+a." "" :=
    ⟨rfl, .file (.stdin rfl), .nothing⟩
  have hgoodsettings : ({ w with stdin := [43, 97, 46] }.settings r.flags).2 = .ok {} := rfl
  have hgoodprogram : { w with stdin := [43, 97, 46] }.program = w.program := rfl
  have hbad : w.Checks { c with code := ["+a", "]"] } "+a]" :=
    ⟨rfl, .parts (List.cons_ne_nil _ _)⟩
  have hbadrun : { w with stdin := [43, 97, 93] }.Reads r "+a]" "" :=
    ⟨rfl, .file (.stdin rfl), .nothing⟩
  have hbadsettings : ({ w with stdin := [43, 97, 93] }.settings r.flags).2 = .ok {} := rfl
  have hbadprogram : { w with stdin := [43, 97, 93] }.program = w.program := rfl
  obtain ⟨code, m, p, hparse, -, hout, -, -, -, hcode, hprepare, -, -, rfl, -⟩ :=
    (check_and_run_agree hgoodprogram hgood hgoodrun hgoodsettings).2.1 (by decide +kernel)
  obtain ⟨o, hrefused, -, -, hempty, hmessage⟩ :=
    (check_and_run_agree hbadprogram hbad hbadrun hbadsettings).2.2 (by decide +kernel)
  have hsize : code.size = 2 := by
    rw [← Code.length_strip_of_parse hparse]
    rfl
  rw [hsize] at hout
  exact ⟨⟨p, hprepare, by rw [hcode, hsize], hout⟩, o, hrefused, hempty, hmessage⟩

end World

end Brainfuck
