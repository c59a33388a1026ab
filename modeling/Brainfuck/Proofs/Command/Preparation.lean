import Brainfuck.Proofs.Brackets.Verdict
import Brainfuck.Proofs.Command.Texts
import Brainfuck.Proofs.Execution.Comments

/-!
# Preparing a run

What `World.prepare` comes to once the texts are read: an error about the settings, the diagnostic
of the bracket check, or a machine.  Loading has two ways to fail, and neither is left by then:
settings that are accepted have a tape, and the brackets have just been looked at.
-/

namespace Brainfuck

open Machine

def Outcome.unlogged (o : Outcome) : Outcome :=
  { o with log := [] }

/-! ## Settings -/

namespace Settings

theorem validate_of_eq_zero {s : Settings} (h : s.tapeSize = 0) : s.validate = .error .noTape :=
  if_pos h

theorem validate_of_ne_zero {s : Settings} (h : s.tapeSize ≠ 0) : s.validate = .ok () :=
  if_neg h

end Settings

namespace World

variable {w : World} {r : RunRequest} {source input : String}

def unflagged (w : World) (file : Settings) : Settings :=
  file.override (Layer.ofEnvironment w.text?)

/-- Flags over environment over file over defaults. -/
def layered (w : World) (file : Settings) (flags : Layer) : Settings :=
  (w.unflagged file).override flags

theorem settings_of_fileSettings_eq_error {e : SettingsError} (h : w.fileSettings.2 = .error e)
    (flags : Layer) : (w.settings flags).2 = .error e := by
  unfold settings
  split
  · next h' => rw [h'] at h; exact h
  · next h' => rw [h'] at h; cases h

/-- A file that can be used leaves one thing to refuse, a tape without cells, and it is looked for
without the flags and with them. -/
theorem settings_of_fileSettings_eq_ok {file : Settings} (h : w.fileSettings.2 = .ok file)
    (flags : Layer) :
    (w.settings flags).2 =
      if (w.unflagged file).tapeSize = 0 ∨ (w.layered file flags).tapeSize = 0 then .error .noTape
      else .ok (w.layered file flags) := by
  unfold settings
  split
  · next h' => rw [h'] at h; cases h
  · next log s h' =>
    rw [h'] at h
    obtain rfl : s = file := Except.ok.inj h
    by_cases hbefore : (w.unflagged s).tapeSize = 0
    · have hfirst : (s.override (Layer.ofEnvironment w.text?)).validate = .error .noTape :=
        Settings.validate_of_eq_zero hbefore
      rw [if_pos (.inl hbefore)]
      simp [hfirst, bind, Except.bind]
    · have hfirst : (s.override (Layer.ofEnvironment w.text?)).validate = .ok () :=
        Settings.validate_of_ne_zero hbefore
      by_cases hafter : (w.layered s flags).tapeSize = 0
      · have hsecond : ((s.override (Layer.ofEnvironment w.text?)).override flags).validate =
            .error .noTape := Settings.validate_of_eq_zero hafter
        rw [if_pos (.inr hafter)]
        simp [hfirst, hsecond, bind, Except.bind]
      · have hsecond : ((s.override (Layer.ofEnvironment w.text?)).override flags).validate =
            .ok () := Settings.validate_of_ne_zero hafter
        rw [if_neg (not_or.2 ⟨hbefore, hafter⟩)]
        simp [hfirst, hsecond, layered, unflagged, bind, Except.bind, pure, Except.pure]

theorem tapeSize_pos_of_settings {flags : Layer} {s : Settings}
    (h : (w.settings flags).2 = .ok s) : 0 < s.tapeSize := by
  cases hfile : w.fileSettings.2 with
  | error e =>
      rw [settings_of_fileSettings_eq_error hfile] at h
      cases h
  | ok file =>
      rw [settings_of_fileSettings_eq_ok hfile] at h
      split at h
      · cases h
      · next hzero =>
        obtain rfl := Except.ok.inj h
        exact Nat.pos_of_ne_zero fun hs => hzero (.inr hs)

/-! ## Texts -/

structure Reads (w : World) (r : RunRequest) (source input : String) : Prop where
  noHelp : r.help = false
  code : w.CodeOf r.file r.code source
  input : w.InputOf r.file r.input r.inputFile input

namespace Reads

theorem hasCode (h : w.Reads r source input) : World.hasCode r.file r.code = true :=
  h.code.hasCode

theorem readCode (h : w.Reads r source input) : w.readCode r.file r.code = .ok source :=
  (readCode_eq_ok_iff h.hasCode).2 h.code

theorem readInput (h : w.Reads r source input) :
    (w.afterReading r.file).readInput r.input r.inputFile = .ok input :=
  readInput_eq_ok_iff.2 h.input

theorem prepare_of_settings_eq_error (h : w.Reads r source input) {e : SettingsError}
    (hsettings : (w.settings r.flags).2 = .error e) :
    w.prepare r = .error { w.refuse 2 e.message with log := (w.settings r.flags).1 } := by
  simp only [prepare, h.readCode, h.readInput, bind, Except.bind]
  split
  · next hs => simp only [hs, Except.error.injEq] at hsettings ⊢; rw [hsettings]
  · next hs => rw [hs] at hsettings; cases hsettings

theorem prepare_of_unmatched (h : w.Reads r source input) {s : Settings}
    (hsettings : (w.settings r.flags).2 = .ok s) {u : Unmatched}
    (hbrackets : checkBrackets source = .error u) :
    w.prepare r = .error
      { status := 1
        log := (w.settings r.flags).1
        message := (Failure.unmatched u).render (some w.program) source } := by
  simp only [prepare, h.readCode, h.readInput, bind, Except.bind, hbrackets]
  split
  · next hs => rw [hs] at hsettings; cases hsettings
  · next hs => rw [hs]

/-- Settings that are accepted and brackets that match leave nothing that could go wrong. -/
theorem exists_prepare (h : w.Reads r source input) {s : Settings}
    (hsettings : (w.settings r.flags).2 = .ok s) (hbrackets : checkBrackets source = .ok ()) :
    ∃ m, load source input s.machineConfig = .ok m ∧
      w.prepare r = .ok
        { source, settings := s, machine := m
          mode := if r.table then .table else .plain
          log := (w.settings r.flags).1 ++ [.loaded m, .started s] } := by
  obtain ⟨m, hload⟩ : ∃ m, load source input s.machineConfig = .ok m :=
    exists_load ((checkBrackets_eq_ok_iff source).1 hbrackets)
      (tapeSize_pos_of_settings hsettings) input
  refine ⟨m, hload, ?_⟩
  simp only [prepare, h.readCode, h.readInput, bind, Except.bind, hbrackets]
  split
  · next hs => rw [hs] at hsettings; cases hsettings
  · next log s' hs =>
    obtain rfl : s' = s := by rw [hs] at hsettings; exact Except.ok.inj hsettings
    simp [hload, hs, pure, Except.pure]

theorem run_of_prepare_eq_error (h : w.Reads r source input) {o : Outcome}
    (hprepare : w.prepare r = .error o) (fuel : Nat) : w.run fuel r = some o := by
  simp [run, h.noHelp, h.hasCode, hprepare]

theorem run_of_prepare_eq_ok (h : w.Reads r source input) {p : Prepared}
    (hprepare : w.prepare r = .ok p) (fuel : Nat) : w.run fuel r = p.run w fuel := by
  simp [run, h.noHelp, h.hasCode, hprepare]

end Reads

end World

end Brainfuck
