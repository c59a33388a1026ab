import Brainfuck.Proofs.Command.Preparation

/-!
# Overridden settings

Two runs with the same code, input and flags differ only in what their files and environments say.
What a later layer overrides does not get into the settings of a run, but the tape size is looked at
before the flags are, so a zero that `--tape-size` overrides is still refused.  It is the only thing
that is seen: two runs whose settings come to the same have the same outcome unless that early look
finds a zero in one of them and not in the other.
-/

namespace Brainfuck

open Machine

namespace Prepared

theorem unlogged_conclude (p : Prepared) (log : List Event) (program : String) (expired : Bool)
    (report : Report Console) :
    ({ p with log }.conclude program expired report).map Outcome.unlogged =
      (p.conclude program expired report).map Outcome.unlogged := by
  simp only [conclude]
  split
  · split <;> rfl
  · rfl

theorem unlogged_run (p : Prepared) (log : List Event) (w : World) (fuel : Nat) :
    ({ p with log }.run w fuel).map Outcome.unlogged = (p.run w fuel).map Outcome.unlogged :=
  p.unlogged_conclude log _ _ _

end Prepared

namespace World

variable {w w' : World} {r r' : RunRequest} {file file' : Settings} {source input : String}

/-! ## Two runs -/

/-- Two runs of one program with the same code, input and flags, that meet the same output device,
the same timer and the same interrupt. -/
structure Alike (w : World) (r : RunRequest) (w' : World) (r' : RunRequest) : Prop where
  program : w'.program = w.program
  stdout : w'.stdout = w.stdout
  expiry : w'.expiry = w.expiry
  interrupt : w'.interrupt = w.interrupt
  help : r'.help = r.help
  table : r'.table = r.table
  flags : r'.flags = r.flags
  hasCode : World.hasCode r'.file r'.code = World.hasCode r.file r.code
  code : w'.readCode r'.file r'.code = w.readCode r.file r.code
  input : (w'.afterReading r'.file).readInput r'.input r'.inputFile =
    (w.afterReading r.file).readInput r.input r.inputFile

namespace Alike

theorem reads (h : Alike w r w' r') (hreads : w.Reads r source input) :
    w'.Reads r' source input where
  noHelp := h.help.trans hreads.noHelp
  code := (readCode_eq_ok_iff (h.hasCode.trans hreads.hasCode)).1 (h.code.trans hreads.readCode)
  input := readInput_eq_ok_iff.1 (h.input.trans hreads.readInput)

theorem run_prepared (h : Alike w r w' r') (p : Prepared) (fuel : Nat) :
    p.run w' fuel = p.run w fuel := by
  have hdeadline : p.deadline w' = p.deadline w :=
    congrArg p.settings.timeoutMs.bind h.expiry
  have halarm : p.alarm w' = p.alarm w := by
    unfold Prepared.alarm
    rw [hdeadline, h.interrupt]
  simp only [Prepared.run, Prepared.isExpired, hdeadline, halarm, h.program, h.stdout]

theorem unlogged_run_of_reads (h : Alike w r w' r') (hreads : w.Reads r source input)
    (hsettings : (w'.settings r'.flags).2 = (w.settings r.flags).2) (fuel : Nat) :
    (w'.run fuel r').map Outcome.unlogged = (w.run fuel r).map Outcome.unlogged := by
  have hreads' := h.reads hreads
  cases hs : (w.settings r.flags).2 with
  | error e =>
      have hprepare := hreads.prepare_of_settings_eq_error hs
      have hprepare' := hreads'.prepare_of_settings_eq_error (hsettings.trans hs)
      rw [hreads.run_of_prepare_eq_error hprepare, hreads'.run_of_prepare_eq_error hprepare']
      simp only [refuse, remark, h.program, Option.map_some, Outcome.unlogged]
  | ok s =>
      have hs' := hsettings.trans hs
      cases hbrackets : checkBrackets source with
      | error u =>
          have hprepare := hreads.prepare_of_unmatched hs hbrackets
          have hprepare' := hreads'.prepare_of_unmatched hs' hbrackets
          rw [hreads.run_of_prepare_eq_error hprepare, hreads'.run_of_prepare_eq_error hprepare']
          simp only [h.program, Option.map_some, Outcome.unlogged]
      | ok =>
          obtain ⟨m, hload, hprepare⟩ := hreads.exists_prepare hs hbrackets
          obtain ⟨m', hload', hprepare'⟩ := hreads'.exists_prepare hs' hbrackets
          obtain rfl : m = m' := Except.ok.inj (hload.symm.trans hload')
          rw [hreads.run_of_prepare_eq_ok hprepare, hreads'.run_of_prepare_eq_ok hprepare',
            h.run_prepared, h.table]
          exact Prepared.unlogged_run
            { source, settings := s, machine := m
              mode := if r.table then .table else .plain
              log := (w.settings r.flags).1 ++ [.loaded m, .started s] } _ w fuel

theorem unlogged_run (h : Alike w r w' r')
    (hsettings : (w'.settings r'.flags).2 = (w.settings r.flags).2) (fuel : Nat) :
    (w'.run fuel r').map Outcome.unlogged = (w.run fuel r).map Outcome.unlogged := by
  by_cases hhelp : r.help = true
  · simp [run, h.help, hhelp, h.program]
  by_cases hcode : World.hasCode r.file r.code = true
  · cases hsource : w.readCode r.file r.code with
    | error o =>
        simp [run, h.help, hhelp, h.hasCode, hcode, prepare, h.code, hsource, bind, Except.bind]
    | ok source =>
        cases hinput : (w.afterReading r.file).readInput r.input r.inputFile with
        | error o =>
            simp [run, h.help, hhelp, h.hasCode, hcode, prepare, h.code, hsource, h.input, hinput,
              bind, Except.bind]
        | ok input =>
            have hreads : w.Reads r source input :=
              ⟨Bool.eq_false_iff.2 hhelp, (readCode_eq_ok_iff hcode).1 hsource,
                readInput_eq_ok_iff.1 hinput⟩
            exact h.unlogged_run_of_reads hreads hsettings fuel
  · simp [run, h.help, hhelp, h.hasCode, hcode, h.program]

end Alike

/-! ## Layers -/

/-- Settings that come to the same are accepted or refused alike if the early look at the tape size
goes the same way, or if the late one refuses them anyway. -/
theorem settings_congr (hfile : w.fileSettings.2 = .ok file)
    (hfile' : w'.fileSettings.2 = .ok file') {flags : Layer}
    (hlayered : w'.layered file' flags = w.layered file flags)
    (hearly : (w.layered file flags).tapeSize ≠ 0 →
      ((w'.unflagged file').tapeSize = 0 ↔ (w.unflagged file).tapeSize = 0)) :
    (w'.settings flags).2 = (w.settings flags).2 := by
  rw [settings_of_fileSettings_eq_ok hfile, settings_of_fileSettings_eq_ok hfile', hlayered]
  by_cases hlate : (w.layered file flags).tapeSize = 0
  · rw [if_pos (.inr hlate), if_pos (.inr hlate)]
  · simp only [hearly hlate]

theorem layered_of_tapeSize_flag {flags : Layer} {n k : Nat} {t : Option Nat}
    (hflag : flags.tapeSize = some n)
    (henv : Layer.ofEnvironment w'.text? = { Layer.ofEnvironment w.text? with tapeSize := t })
    (hfile : file' = { file with tapeSize := k }) :
    w'.layered file' flags = w.layered file flags := by
  simp only [layered, unflagged, Settings.override, henv, hfile, hflag, Option.getD_some]

theorem unflagged_of_tapeSize_variable {n k : Nat}
    (hvariable : (Layer.ofEnvironment w.text?).tapeSize = some n)
    (henv : Layer.ofEnvironment w'.text? = Layer.ofEnvironment w.text?)
    (hfile : file' = { file with tapeSize := k }) :
    w'.unflagged file' = w.unflagged file := by
  simp only [unflagged, Settings.override, henv, hfile, hvariable, Option.getD_some]

/-- Two runs that are alike and whose settings come to the same have the same exit status, standard
output and message, unless just one of them has a zero for the tape size when the flags are still
left out.  So with `--tape-size` the file and `BF_TAPE_SIZE` do not matter unless they come to a
zero, and with a `BF_TAPE_SIZE` that can be read the file's tape size does not matter at all.  Such
a zero is refused whatever the flags are. -/
theorem overridden_settings_show_in_early_look_only (h : Alike w r w' r')
    (hfile : w.fileSettings.2 = .ok file) (hfile' : w'.fileSettings.2 = .ok file') :
    (w'.layered file' r.flags = w.layered file r.flags →
      ((w.layered file r.flags).tapeSize ≠ 0 →
        ((w'.unflagged file').tapeSize = 0 ↔ (w.unflagged file).tapeSize = 0)) →
      ∀ fuel, (w'.run fuel r').map Outcome.unlogged = (w.run fuel r).map Outcome.unlogged) ∧
    (∀ n t k, r.flags.tapeSize = some n →
      Layer.ofEnvironment w'.text? = { Layer.ofEnvironment w.text? with tapeSize := t } →
      file' = { file with tapeSize := k } →
      (n ≠ 0 → ((w'.unflagged file').tapeSize = 0 ↔ (w.unflagged file).tapeSize = 0)) →
      ∀ fuel, (w'.run fuel r').map Outcome.unlogged = (w.run fuel r).map Outcome.unlogged) ∧
    (∀ n k, (Layer.ofEnvironment w.text?).tapeSize = some n →
      Layer.ofEnvironment w'.text? = Layer.ofEnvironment w.text? →
      file' = { file with tapeSize := k } →
      ∀ fuel, (w'.run fuel r').map Outcome.unlogged = (w.run fuel r).map Outcome.unlogged) ∧
    ∀ source input, w.Reads r source input → (w.unflagged file).tapeSize = 0 →
      ∀ fuel, (w.run fuel r).map Outcome.unlogged =
        some (w.refuse 2 SettingsError.noTape.message) := by
  have hmain (hlayered : w'.layered file' r.flags = w.layered file r.flags)
      (hearly : (w.layered file r.flags).tapeSize ≠ 0 →
        ((w'.unflagged file').tapeSize = 0 ↔ (w.unflagged file).tapeSize = 0)) (fuel : Nat) :
      (w'.run fuel r').map Outcome.unlogged = (w.run fuel r).map Outcome.unlogged :=
    h.unlogged_run (by rw [h.flags]; exact settings_congr hfile hfile' hlayered hearly) fuel
  refine ⟨hmain, ?_, ?_, ?_⟩
  · intro n t k hflag henv hdiffer hearly
    have hsize : (w.layered file r.flags).tapeSize = n := by
      simp only [layered, Settings.override, hflag, Option.getD_some]
    exact hmain (layered_of_tapeSize_flag hflag henv hdiffer) (by rw [hsize]; exact hearly)
  · intro n k hvariable henv hdiffer
    have hunflagged := unflagged_of_tapeSize_variable hvariable henv hdiffer
    exact hmain (by rw [layered, layered, hunflagged]) fun _ => by rw [hunflagged]
  · intro source input hreads hzero fuel
    have hrefused : (w.settings r.flags).2 = .error .noTape := by
      rw [settings_of_fileSettings_eq_ok hfile, if_pos (.inl hzero)]
    rw [hreads.run_of_prepare_eq_error (hreads.prepare_of_settings_eq_error hrefused)]
    rfl

/-- With `--tape-size 1` a variable that asks for five cells is as good as one that asks for
seven. -/
theorem flagged_tape_hides_variable :
    let five : World :=
      { args := []
        environment := fun name => if name = "BF_TAPE_SIZE" then some [0x35] else none
        lookup := fun _ => .absent "" }
    let seven : World :=
      { five with environment := fun name => if name = "BF_TAPE_SIZE" then some [0x37] else none }
    let r : RunRequest := { code := ["+."], flags := { tapeSize := some 1 } }
    (five.run 3 r).map Outcome.unlogged = some { status := 0, stdout := [1] } ∧
      (seven.run 3 r).map Outcome.unlogged = (five.run 3 r).map Outcome.unlogged := by
  intro five seven r
  have halike : Alike five r seven r := ⟨rfl, rfl, rfl, rfl, rfl, rfl, rfl, rfl, rfl, rfl⟩
  have hfive : five.fileSettings.2 = .ok {} := rfl
  have hseven : seven.fileSettings.2 = .ok {} := rfl
  have hsame := (overridden_settings_show_in_early_look_only halike hfive hseven).2.1 1 (some 7)
    30000 rfl rfl rfl (by decide +kernel) 3
  exact ⟨by subst five r; rfl, hsame⟩

/-- With `--tape-size 1` a variable that asks for no cells is refused, though one cell is what the
settings come to with it and without it. -/
theorem zero_variable_refused_under_flag :
    let unset : World :=
      { args := [], environment := fun _ => none, lookup := fun _ => .absent "" }
    let zero : World :=
      { unset with
        environment := fun name => if name = "BF_TAPE_SIZE" then some [0x30] else none }
    let r : RunRequest := { code := ["+"], flags := { tapeSize := some 1 } }
    Alike unset r zero r ∧ unset.fileSettings.2 = .ok {} ∧ zero.fileSettings.2 = .ok {} ∧
      zero.layered {} r.flags = unset.layered {} r.flags ∧
      (unset.run 2 r).map Outcome.unlogged = some { status := 0 } ∧
      (zero.run 2 r).map Outcome.unlogged =
        some { status := 2, message := "bf: tape_size must be > 0\n" } := by
  intro unset zero r
  exact ⟨⟨rfl, rfl, rfl, rfl, rfl, rfl, rfl, rfl, rfl, rfl⟩, rfl, rfl, rfl,
    by subst unset r; rfl, by subst zero unset r; rfl⟩

end World

end Brainfuck
