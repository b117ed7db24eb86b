import ApiCoverage.Project.Options
import Mathlib.Data.List.Induction

/-!
# Layers of options

Laying the options of one source over those of another is associative, and a source that gives nothing
is neutral on either side. A stack of sources can therefore be described setting by setting: a single
value is that of the last source that gives it, a list joins the lists of the sources in their order,
and a switch is on if some source turns it on.
-/

namespace ApiCoverage.ScanOptions

/-! ## Two and three sources -/

theorem overlay_assoc (lower middle upper : ScanOptions) :
    (lower.overlay middle).overlay upper = lower.overlay (middle.overlay upper) := by
  simp only [overlay, Option.orElse_eq_orElse, Option.orElse_eq_or, Option.or_assoc,
    List.append_assoc, Bool.or_assoc]

theorem empty_overlay (options : ScanOptions) : overlay {} options = options := by
  cases options
  simp [overlay]

theorem overlay_empty (options : ScanOptions) : options.overlay {} = options := by
  cases options
  simp [overlay]

/-! ## Stacks of sources -/

section Setting

variable {α : Type} (setting : ScanOptions → Option α) (layers : List ScanOptions)

/-- The value of a setting in the last source that gives it. -/
def lastGiven : Option α :=
  layers.reverse.findSome? setting

@[simp]
theorem lastGiven_concat (layer : ScanOptions) :
    lastGiven setting (layers ++ [layer]) = (setting layer).or (lastGiven setting layers) := by
  rw [lastGiven, List.reverse_append, List.reverse_singleton, List.singleton_append,
    List.findSome?_cons]
  cases setting layer <;> rfl

variable {setting layers}

/-- The last value of a setting is that of a source above which no source gives any. -/
theorem lastGiven_eq_some_iff {value : α} :
    lastGiven setting layers = some value ↔
      ∃ below layer above, layers = below ++ layer :: above ∧ setting layer = some value ∧
        ∀ later ∈ above, setting later = none := by
  rw [lastGiven, List.findSome?_eq_some_iff]
  constructor
  · rintro ⟨above, layer, below, split, given, silent⟩
    refine ⟨below.reverse, layer, above.reverse, ?_, given, ?_⟩
    · rw [← List.reverse_reverse layers, split]
      simp
    · simpa using silent
  · rintro ⟨below, layer, above, rfl, given, silent⟩
    exact ⟨above.reverse, layer, below.reverse, by simp, given, by simpa using silent⟩

end Setting

/-- The settings that a stack of sources gives, each by its own rule. -/
def ofLayers (layers : List ScanOptions) : ScanOptions where
  root := lastGiven root layers
  surfaces := layers.flatMap surfaces
  surfacesFile := lastGiven surfacesFile layers
  exclusions := lastGiven exclusions layers
  declarations := layers.flatMap declarations
  classpath := layers.flatMap classpath
  keepObjectMethods := layers.any keepObjectMethods
  format := lastGiven format layers
  output := lastGiven output layers
  title := lastGiven title layers
  linkBase := lastGiven linkBase layers

/-- One more source on top of a stack is laid over what the stack gives. -/
theorem ofLayers_concat (layers : List ScanOptions) (layer : ScanOptions) :
    ofLayers (layers ++ [layer]) = (ofLayers layers).overlay layer := by
  simp [ofLayers, overlay]

theorem foldl_overlay (layers : List ScanOptions) : layers.foldl overlay {} = ofLayers layers := by
  induction layers using List.reverseRecOn with
  | nil => rfl
  | append_singleton layers layer ih =>
      rw [List.foldl_append, List.foldl_cons, List.foldl_nil, ih, ofLayers_concat]

/-- Sources can be grouped in any way, a source that gives nothing can be left out, and every stack of
sources gives for each setting what the rule of the setting makes of them. -/
theorem overlay_layers :
    (∀ lower middle upper : ScanOptions,
      (lower.overlay middle).overlay upper = lower.overlay (middle.overlay upper)) ∧
    (∀ options : ScanOptions, overlay {} options = options ∧ options.overlay {} = options) ∧
    ∀ layers : List ScanOptions, layers.foldl overlay {} = ofLayers layers :=
  ⟨overlay_assoc, fun options => ⟨empty_overlay options, overlay_empty options⟩, foldl_overlay⟩

example : ofLayers
    [{ root := some "a", surfaces := ["x.A"], format := some .html, title := some "file" },
      { root := some "b", surfaces := ["x.B"], keepObjectMethods := true }] =
    { root := some "b", surfaces := ["x.A", "x.B"], keepObjectMethods := true,
      format := some .html, title := some "file" } := by
  decide

end ApiCoverage.ScanOptions
