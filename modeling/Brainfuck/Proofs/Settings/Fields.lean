import Brainfuck.Proofs.Settings.Spelling
import Brainfuck.Proofs.Text.Numerals

/-!
# Settings field by field

There is a variable for each field of the settings, so the variables serve as names of the fields
here, of settings and of layers alike.  A field that may be left out of the settings is looked at
like the others: what settings or a layer have there is an optional value.
-/

namespace Brainfuck

namespace Variable

def Value : Variable → Type
  | .tapeSize | .timeoutMs | .maxSteps => Nat
  | .policy => Policy
  | .feedMode => FeedMode

/-- The text `raw` is one for the value `x` of the field. -/
def Denotes : (v : Variable) → (raw : String) → (x : v.Value) → Prop
  | .tapeSize, raw, n | .timeoutMs, raw, n | .maxSteps, raw, n => Text.SpellsNumber raw n
  | .policy, raw, p => Text.SpellsWord raw p.label
  | .feedMode, raw, m => Text.SpellsWord raw m.label

def read? : (v : Variable) → (raw : String) → Option v.Value
  | .tapeSize, raw | .timeoutMs, raw | .maxSteps, raw => Text.numeral? raw
  | .policy, raw => (Policy.parse raw).toOption
  | .feedMode, raw => (FeedMode.parse raw).toOption

theorem read?_eq_some_iff (v : Variable) {raw : String} {x : v.Value} :
    v.read? raw = some x ↔ v.Denotes raw x := by
  cases v with
  | tapeSize => exact Text.numeral?_eq_some_iff
  | policy => exact Policy.toOption_parse_eq_some_iff
  | feedMode => exact FeedMode.toOption_parse_eq_some_iff
  | timeoutMs => exact Text.numeral?_eq_some_iff
  | maxSteps => exact Text.numeral?_eq_some_iff

end Variable

open Variable

/-! ## The fields of a layer -/

namespace Layer

def get? (l : Layer) : (v : Variable) → Option v.Value
  | .tapeSize => l.tapeSize
  | .policy => l.policy
  | .feedMode => l.feedMode
  | .timeoutMs => l.timeoutMs
  | .maxSteps => l.maxSteps

theorem get?_ofEnvironment (lookup : String → Option String) (v : Variable) :
    (ofEnvironment lookup).get? v = (lookup v.name).bind v.read? := by
  cases v <;> rfl

theorem get?_ofEnvironment_eq_some_iff {lookup : String → Option String} {v : Variable}
    {x : v.Value} :
    (ofEnvironment lookup).get? v = some x ↔ ∃ raw, lookup v.name = some raw ∧ v.Denotes raw x := by
  rw [get?_ofEnvironment, Option.bind_eq_some_iff]
  simp only [v.read?_eq_some_iff]

theorem get?_ofEnvironment_eq_none_iff {lookup : String → Option String} {v : Variable} :
    (ofEnvironment lookup).get? v = none ↔
      ∀ raw, lookup v.name = some raw → ∀ x, ¬v.Denotes raw x := by
  simp only [Option.eq_none_iff_forall_ne_some, ne_eq, get?_ofEnvironment_eq_some_iff, not_exists,
    not_and]
  exact ⟨fun h raw hraw x => h x raw hraw, fun h x raw hraw => h raw hraw x⟩

end Layer

/-! ## The fields of settings -/

namespace Settings

def get? (s : Settings) : (v : Variable) → Option v.Value
  | .tapeSize => some s.tapeSize
  | .policy => some s.policy
  | .feedMode => some s.feedMode
  | .timeoutMs => s.timeoutMs
  | .maxSteps => s.maxSteps

theorem ext_get? {s t : Settings} (h : ∀ v, s.get? v = t.get? v) : s = t := by
  have htape : s.tapeSize = t.tapeSize := Option.some.inj (h .tapeSize)
  have hpolicy : s.policy = t.policy := Option.some.inj (h .policy)
  have hfeed : s.feedMode = t.feedMode := Option.some.inj (h .feedMode)
  have htimeout : s.timeoutMs = t.timeoutMs := h .timeoutMs
  have hsteps : s.maxSteps = t.maxSteps := h .maxSteps
  cases s
  cases t
  simp_all only

/-- A layer decides the fields that it says something about, and no others. -/
theorem get?_override (s : Settings) (l : Layer) (v : Variable) :
    (s.override l).get? v = (l.get? v).or (s.get? v) := by
  cases v with
  | tapeSize => exact Option.or_some.symm
  | policy => exact Option.or_some.symm
  | feedMode => exact Option.or_some.symm
  | timeoutMs => exact Option.orElse_eq_or
  | maxSteps => exact Option.orElse_eq_or

theorem override_override_self (s : Settings) (l : Layer) :
    (s.override l).override l = s.override l := by
  apply ext_get?
  intro v
  rw [get?_override, get?_override, ← Option.or_assoc, Option.or_self]

end Settings

/-! ## The first place that says something -/

/-- What a field holds, by the first place that says something about it. -/
inductive Supplies (flags : Layer) (sets : String → String → Prop) (file : Layer) (v : Variable) :
    Option v.Value → Prop
  | flag {x : v.Value} (hflag : flags.get? v = some x) : Supplies flags sets file v (some x)
  | variable {raw : String} {x : v.Value} (hflag : flags.get? v = none) (hraw : sets v.name raw)
      (hx : v.Denotes raw x) : Supplies flags sets file v (some x)
  | file {x : v.Value} (hflag : flags.get? v = none)
      (hvariable : ∀ raw, sets v.name raw → ∀ y, ¬v.Denotes raw y)
      (hfile : file.get? v = some x) : Supplies flags sets file v (some x)
  | default (hflag : flags.get? v = none)
      (hvariable : ∀ raw, sets v.name raw → ∀ y, ¬v.Denotes raw y)
      (hfile : file.get? v = none) : Supplies flags sets file v (({} : Settings).get? v)

theorem supplies_iff {flags file : Layer} {sets : String → String → Prop}
    {lookup : String → Option String} (hsets : ∀ name raw, lookup name = some raw ↔ sets name raw)
    {v : Variable} {x : Option v.Value} :
    Supplies flags sets file v x ↔
      (((({} : Settings).override file).override (.ofEnvironment lookup)).override flags).get? v =
        x := by
  obtain rfl : (fun name raw => lookup name = some raw) = sets :=
    funext fun name => funext fun raw => propext (hsets name raw)
  rw [Settings.get?_override, Settings.get?_override, Settings.get?_override]
  constructor
  · rintro (hflag | ⟨hflag, hraw, hx⟩ | ⟨hflag, hvariable, hfile⟩ | ⟨hflag, hvariable, hfile⟩)
    · rw [hflag, Option.some_or]
    · have henvironment := Layer.get?_ofEnvironment_eq_some_iff.2 ⟨_, hraw, hx⟩
      rw [hflag, henvironment, Option.none_or, Option.some_or]
    · rw [hflag, Layer.get?_ofEnvironment_eq_none_iff.2 hvariable, hfile, Option.none_or,
        Option.none_or, Option.some_or]
    · rw [hflag, Layer.get?_ofEnvironment_eq_none_iff.2 hvariable, hfile, Option.none_or,
        Option.none_or, Option.none_or]
  · rintro rfl
    cases hflag : flags.get? v with
    | some x => exact .flag hflag
    | none =>
        cases henvironment : (Layer.ofEnvironment lookup).get? v with
        | some x =>
            obtain ⟨raw, hraw, hx⟩ := Layer.get?_ofEnvironment_eq_some_iff.1 henvironment
            exact .variable hflag hraw hx
        | none =>
            have hvariable := Layer.get?_ofEnvironment_eq_none_iff.1 henvironment
            cases hfile : file.get? v with
            | some x => exact .file hflag hvariable hfile
            | none => exact .default hflag hvariable hfile

end Brainfuck
