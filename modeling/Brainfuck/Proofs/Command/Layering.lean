import Brainfuck.Proofs.Command.Resolution

/-!
# Layers of settings

Each field of the settings that hold comes from the first of four places that says something about
it: the flag, the variable, the file, the default.  What the other fields are does not matter, and
neither does what the places further down say.
-/

namespace Brainfuck

namespace Variable

def option : Variable → Opt
  | .tapeSize => .tapeSize
  | .policy => .permissive
  | .feedMode => .stream
  | .timeoutMs => .timeout
  | .maxSteps => .maxSteps

/-- Which value the option stands for.  Two options come without a text and stand for one value. -/
def OptionDenotes : (v : Variable) → (text : String) → (x : v.Value) → Prop
  | .tapeSize, text, n | .timeoutMs, text, n | .maxSteps, text, n => Text.SpellsNumber text n
  | .policy, _, p => p = .permissive
  | .feedMode, _, m => m = .stream

end Variable

namespace Reading.Result

theorem has_iff_exists_value (r : Reading.Result) (o : Opt) :
    r.has o = true ↔ ∃ text, r.value? o = some text := by
  rw [has, value?, ← Option.isSome_iff_exists, Option.isSome_map, List.isSome_find?]

theorem number?_eq_some_iff (r : Reading.Result) (o : Opt) {n : Nat} :
    r.number? o = some n ↔ ∃ text, r.value? o = some text ∧ Text.SpellsNumber text n := by
  simp only [number?, Option.bind_eq_some_iff, Text.numeral?_eq_some_iff]

end Reading.Result

theorem RunRequest.get?_flags_ofResult (r : Reading.Result) (v : Variable) {x : v.Value} :
    (RunRequest.ofResult r).flags.get? v = some x ↔
      ∃ text, r.value? v.option = some text ∧ v.OptionDenotes text x := by
  have hswitch {α : Type} (o : Opt) (a b : α) :
      (if r.has o then some a else none) = some b ↔ ∃ text, r.value? o = some text ∧ b = a := by
    rw [Option.ite_none_right_eq_some, r.has_iff_exists_value, exists_and_right, Option.some.injEq,
      eq_comm]
  cases v with
  | tapeSize => exact r.number?_eq_some_iff .tapeSize
  | policy => exact hswitch .permissive _ _
  | feedMode => exact hswitch .stream _ _
  | timeoutMs => exact r.number?_eq_some_iff .timeout
  | maxSteps => exact r.number?_eq_some_iff .maxSteps

/-- Settings are refused for three reasons.  Otherwise they hold in each field what its flag says,
or else its variable, or else the file, or else the default; and a flag says what its option stands
for.  Over any settings the environment changes the fields whose variables denote a value and no
others, each by its own variable and by nothing else, and once it has done so it changes nothing
more. -/
theorem settings_layer_field_by_field :
    (∀ (w : World) (flags : Layer),
      ((∃ e, (w.settings flags).2 = .error e) ↔ w.RefusesSettings flags) ∧
      ∀ s, (w.settings flags).2 = .ok s →
        ∃ file, w.FileLayer file ∧ ∀ v x, s.get? v = x ↔ Supplies flags w.Sets file v x) ∧
    (∀ (r : Reading.Result) (v : Variable) (x : v.Value),
      (RunRequest.ofResult r).flags.get? v = some x ↔
        ∃ text, r.value? v.option = some text ∧ v.OptionDenotes text x) ∧
    ∀ (s : Settings) (lookup : String → Option String),
      (s.override (.ofEnvironment lookup)).override (.ofEnvironment lookup) =
        s.override (.ofEnvironment lookup) ∧
      (∀ v raw x, lookup v.name = some raw → v.Denotes raw x →
        (s.override (.ofEnvironment lookup)).get? v = some x) ∧
      (∀ v, (∀ raw, lookup v.name = some raw → ∀ x, ¬v.Denotes raw x) →
        (s.override (.ofEnvironment lookup)).get? v = s.get? v) ∧
      ∀ s' lookup' v, Settings.get? s' v = s.get? v → lookup' v.name = lookup v.name →
        (s'.override (.ofEnvironment lookup')).get? v =
          (s.override (.ofEnvironment lookup)).get? v := by
  refine ⟨?_, RunRequest.get?_flags_ofResult, fun s lookup => ⟨s.override_override_self _, ?_⟩⟩
  · intro w flags
    refine ⟨World.exists_settings_eq_error_iff, fun s h => ?_⟩
    obtain ⟨_, file, hfile, hsupplies⟩ := World.settings_eq_ok_iff.1 h
    refine ⟨file, hfile, fun v x => ⟨?_, fun hx => ?_⟩⟩
    · rintro rfl
      exact hsupplies v
    · have hlayered := World.supplies_iff_layered.1 (hsupplies v)
      exact hlayered.symm.trans (World.supplies_iff_layered.1 hx)
  · refine ⟨?_, ?_, ?_⟩
    · intro v raw x hraw hx
      rw [Settings.get?_override, Layer.get?_ofEnvironment_eq_some_iff.2 ⟨raw, hraw, hx⟩,
        Option.some_or]
    · intro v hvariable
      rw [Settings.get?_override, Layer.get?_ofEnvironment_eq_none_iff.2 hvariable, Option.none_or]
    · intro s' lookup' v hs hlookup
      rw [Settings.get?_override, Settings.get?_override, hs, Layer.get?_ofEnvironment,
        Layer.get?_ofEnvironment, hlookup]

/-- One field from each place: the mode from its flag, the policy and the tape size from their
variables, the timeout from the file because its variable ends in a blank, and no limit of steps. -/
theorem fields_from_each_place :
    let lookup (name : String) : Option String :=
      if name = "BF_CONFIG" then some "f"
      else if name = "BF_TAPE_SIZE" then some "+0009"
      else if name = "BF_POLICY" then some "\u3000PERMISSIVE\t"
      else if name = "BF_TIMEOUT_MS" then some "9 "
      else none
    let w : World :=
      { args := []
        environment := fun name => (lookup name).map Text.bytes
        lookup := fun _ => .contents (Text.bytes "timeout_ms=7") }
    let flags : Layer := { feedMode := some .stream }
    let s : Settings :=
      { tapeSize := 9, policy := .permissive, feedMode := .stream, timeoutMs := some 7 }
    (w.settings flags).2 = .ok s ∧
      (∃ file, w.FileLayer file ∧ ∀ v x, s.get? v = x ↔ Supplies flags w.Sets file v x) ∧
      ((Settings.override {} (.ofEnvironment lookup)).get? .tapeSize = some (9 : Nat)) ∧
      (Settings.override {} (.ofEnvironment lookup)).get? .timeoutMs = none := by
  intro lookup w flags s
  obtain ⟨hsettings, _, henvironment⟩ := settings_layer_field_by_field
  obtain ⟨_, hdenotes, hkeeps, _⟩ := henvironment {} lookup
  have hresolved : (w.settings flags).2 = .ok s := by decide +kernel
  have hnumber : Text.SpellsNumber "+0009" 9 := Text.numeral?_eq_some_iff.1 (by decide)
  have hunreadable : (Layer.ofEnvironment lookup).get? .timeoutMs = none := by decide
  exact ⟨hresolved, (hsettings w flags).2 s hresolved, hdenotes .tapeSize "+0009" _ rfl hnumber,
    hkeeps .timeoutMs (Layer.get?_ofEnvironment_eq_none_iff.1 hunreadable)⟩

end Brainfuck
