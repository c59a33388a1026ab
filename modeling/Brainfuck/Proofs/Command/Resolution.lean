import Brainfuck.Proofs.Command.Preparation
import Brainfuck.Proofs.Settings.Fields

/-!
# Settings that hold and settings that are refused

The file is one more layer over the defaults, and a missing file is a layer that says nothing.
There are three reasons to refuse: a file that is there and cannot be used, no cells without the
flags, and no cells with them.  Where there is none of them, the settings that hold have in each
field what the first place says that says something about it.  Where the directory for settings is,
and what the text of a file says, is left to the conventions, whatever they are.
-/

namespace Brainfuck

namespace World

variable {w : World} {flags layer : Layer} {s : Settings} {path : List UInt8}

/-! ## Variables -/

def Sets (w : World) (name raw : String) : Prop :=
  ∃ bs, w.environment name = some bs ∧ Text.Encodes raw bs

theorem text?_eq_some_iff (name raw : String) : w.text? name = some raw ↔ w.Sets name raw := by
  simp only [text?, Option.bind_eq_some_iff, Text.ofBytes?_eq_some_iff, Sets]

/-! ## The file -/

inductive SettingsPath (w : World) : List UInt8 → Prop
  | named {path : List UInt8} (hname : w.environment "BF_CONFIG" = some path) : SettingsPath w path
  | standard {dir : List UInt8} (hname : w.environment "BF_CONFIG" = none)
      (hdir : w.conventions.directory? w.environment = some dir) :
      SettingsPath w (joinPath dir "bf.toml")

inductive FileLayer (w : World) : Layer → Prop
  | nowhere (hpath : ∀ path, ¬w.SettingsPath path) : FileLayer w {}
  | absent {path : List UInt8} {cause : String} (hpath : w.SettingsPath path)
      (hfile : w.lookup path = .absent cause) : FileLayer w {}
  | contents {path bs : List UInt8} {text : String} {layer : Layer} (hpath : w.SettingsPath path)
      (hfile : w.lookup path = .contents bs) (htext : Text.Encodes text bs)
      (hlayer : w.conventions.readLayer text = .ok layer) : FileLayer w layer

/-- The settings file is there, but it cannot be read or makes no sense. -/
inductive UnusableFile (w : World) : Prop
  | unreadable {path : List UInt8} {cause : String} (hpath : w.SettingsPath path)
      (hfile : w.lookup path = .unreadable cause)
  | notText {path bs : List UInt8} (hpath : w.SettingsPath path)
      (hfile : w.lookup path = .contents bs) (htext : ∀ text, ¬Text.Encodes text bs)
  | malformed {path bs : List UInt8} {text : String} {report : Option String}
      (hpath : w.SettingsPath path) (hfile : w.lookup path = .contents bs)
      (htext : Text.Encodes text bs) (hlayer : w.conventions.readLayer text = .error report)

theorem settingsPath?_eq_some_iff : w.settingsPath? = some path ↔ w.SettingsPath path := by
  unfold settingsPath?
  constructor
  · intro h
    split at h
    · next hname =>
      obtain rfl := Option.some.inj h
      exact .named hname
    · next hname =>
      obtain ⟨dir, hdir, rfl⟩ := Option.map_eq_some_iff.1 h
      exact .standard hname hdir
  · rintro (hname | ⟨hname, hdir⟩)
    · simp only [hname]
    · simp only [hname, hdir, Option.map_some]

theorem settingsPath?_eq_none_iff : w.settingsPath? = none ↔ ∀ path, ¬w.SettingsPath path := by
  simp only [Option.eq_none_iff_forall_ne_some, ne_eq, settingsPath?_eq_some_iff]

theorem FileLayer.fileSettings_eq_ok (h : w.FileLayer layer) :
    w.fileSettings.2 = .ok (({} : Settings).override layer) := by
  cases h with
  | nowhere hpath =>
      simp only [fileSettings, settingsPath?_eq_none_iff.2 hpath]
      rfl
  | absent hpath hfile =>
      simp only [fileSettings, settingsPath?_eq_some_iff.2 hpath, hfile]
      rfl
  | contents hpath hfile htext hlayer =>
      simp only [fileSettings, settingsPath?_eq_some_iff.2 hpath, hfile,
        Text.ofBytes?_eq_some_iff.2 htext, Layer.ofNamedFile, hlayer]

theorem UnusableFile.exists_fileSettings_eq_error (h : w.UnusableFile) :
    ∃ e, w.fileSettings.2 = .error e := by
  cases h with
  | unreadable hpath hfile =>
      simp only [fileSettings, settingsPath?_eq_some_iff.2 hpath, hfile]
      exact ⟨_, rfl⟩
  | @notText _ bs hpath hfile htext =>
      have hnone : Text.ofBytes? bs = none := by
        simpa only [Option.eq_none_iff_forall_ne_some, ne_eq, Text.ofBytes?_eq_some_iff] using htext
      simp only [fileSettings, settingsPath?_eq_some_iff.2 hpath, hfile, hnone]
      exact ⟨_, rfl⟩
  | malformed hpath hfile htext hlayer =>
      simp only [fileSettings, settingsPath?_eq_some_iff.2 hpath, hfile,
        Text.ofBytes?_eq_some_iff.2 htext, Layer.ofNamedFile, hlayer]
      exact ⟨_, rfl⟩

theorem exists_fileLayer_or_unusableFile (w : World) :
    (∃ layer, w.FileLayer layer) ∨ w.UnusableFile := by
  by_cases hnowhere : ∀ path, ¬w.SettingsPath path
  · exact .inl ⟨{}, .nowhere hnowhere⟩
  obtain ⟨path, hpath⟩ := not_forall_not.1 hnowhere
  cases hfile : w.lookup path with
  | absent cause => exact .inl ⟨{}, .absent hpath hfile⟩
  | unreadable cause => exact .inr (.unreadable hpath hfile)
  | contents bs =>
      by_cases hgarbled : ∀ text, ¬Text.Encodes text bs
      · exact .inr (.notText hpath hfile hgarbled)
      obtain ⟨text, htext⟩ := not_forall_not.1 hgarbled
      cases hlayer : w.conventions.readLayer text with
      | ok layer => exact .inl ⟨layer, .contents hpath hfile htext hlayer⟩
      | error report => exact .inr (.malformed hpath hfile htext hlayer)

/-! ## Refusal -/

inductive RefusesSettings (w : World) (flags : Layer) : Prop
  | file (h : w.UnusableFile)
  | withoutFlags {layer : Layer} (hlayer : w.FileLayer layer)
      (hzero : Supplies {} w.Sets layer .tapeSize (some (0 : Nat)))
  | withFlags {layer : Layer} (hlayer : w.FileLayer layer)
      (hzero : Supplies flags w.Sets layer .tapeSize (some (0 : Nat)))

/-- Settings with what the first place says in each field. -/
def Resolves (w : World) (flags : Layer) (s : Settings) : Prop :=
  ∃ layer, w.FileLayer layer ∧ ∀ v, Supplies flags w.Sets layer v (s.get? v)

theorem supplies_iff_layered {v : Variable} {x : Option v.Value} :
    Supplies flags w.Sets layer v x ↔
      (w.layered (({} : Settings).override layer) flags).get? v = x :=
  supplies_iff w.text?_eq_some_iff

theorem tapeSize_eq_zero_iff_supplies :
    (w.layered (({} : Settings).override layer) flags).tapeSize = 0 ↔
      Supplies flags w.Sets layer .tapeSize (some (0 : Nat)) := by
  rw [supplies_iff_layered]
  exact Option.some_inj.symm

theorem FileLayer.settings_eq (h : w.FileLayer layer) :
    (w.settings flags).2 =
      if (w.unflagged (({} : Settings).override layer)).tapeSize = 0 ∨
          (w.layered (({} : Settings).override layer) flags).tapeSize = 0 then .error .noTape
      else .ok (w.layered (({} : Settings).override layer) flags) :=
  settings_of_fileSettings_eq_ok h.fileSettings_eq_ok flags

theorem FileLayer.refusesSettings (h : w.FileLayer layer)
    (hzero : (w.unflagged (({} : Settings).override layer)).tapeSize = 0 ∨
      (w.layered (({} : Settings).override layer) flags).tapeSize = 0) :
    w.RefusesSettings flags := by
  rcases hzero with hbefore | hafter
  · exact .withoutFlags h (tapeSize_eq_zero_iff_supplies.1 hbefore)
  · exact .withFlags h (tapeSize_eq_zero_iff_supplies.1 hafter)

theorem exists_settings_eq_error_iff :
    (∃ e, (w.settings flags).2 = .error e) ↔ w.RefusesSettings flags := by
  constructor
  · rintro ⟨e, he⟩
    obtain ⟨layer, hlayer⟩ | hunusable := w.exists_fileLayer_or_unusableFile
    · rw [hlayer.settings_eq] at he
      split at he
      · next hzero => exact hlayer.refusesSettings hzero
      · cases he
    · exact .file hunusable
  · rintro (hunusable | ⟨hlayer, hzero⟩ | ⟨hlayer, hzero⟩)
    · obtain ⟨e, he⟩ := hunusable.exists_fileSettings_eq_error
      exact ⟨e, settings_of_fileSettings_eq_error he flags⟩
    · have hbefore := tapeSize_eq_zero_iff_supplies.2 hzero
      exact ⟨.noTape, hlayer.settings_eq.trans (if_pos (.inl hbefore))⟩
    · have hafter := tapeSize_eq_zero_iff_supplies.2 hzero
      exact ⟨.noTape, hlayer.settings_eq.trans (if_pos (.inr hafter))⟩

/-- Settings hold if nothing speaks against them, and then they are what the layers come to. -/
theorem settings_eq_ok_iff :
    (w.settings flags).2 = .ok s ↔ ¬w.RefusesSettings flags ∧ w.Resolves flags s := by
  constructor
  · intro h
    have haccepted : ¬w.RefusesSettings flags := by
      rw [← exists_settings_eq_error_iff]
      rintro ⟨e, he⟩
      cases h.symm.trans he
    obtain ⟨layer, hlayer⟩ | hunusable := w.exists_fileLayer_or_unusableFile
    · rw [hlayer.settings_eq] at h
      split at h
      · cases h
      · obtain rfl := Except.ok.inj h
        exact ⟨haccepted, layer, hlayer, fun v => supplies_iff_layered.2 rfl⟩
    · exact absurd (.file hunusable) haccepted
  · rintro ⟨haccepted, layer, hlayer, hsupplies⟩
    obtain rfl : w.layered (({} : Settings).override layer) flags = s :=
      Settings.ext_get? fun v => supplies_iff_layered.1 (hsupplies v)
    rw [hlayer.settings_eq, if_neg fun hzero => haccepted (hlayer.refusesSettings hzero)]

end World

end Brainfuck
