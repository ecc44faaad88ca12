import ConfigTabs.Config.Basic
import ConfigTabs.Proofs.Paths
/-!
Which rules a project's settings break, and how validation reports them.
-/
namespace ConfigTabs

namespace Text

theorem dropBlank_eq_nil_iff (l : List Char) : dropBlank l = [] ↔ ∀ c ∈ l, isBlank c = true := by
  induction l with
  | nil => simp [dropBlank]
  | cons c cs ih =>
    by_cases hc : isBlank c = true
    · simp [dropBlank, hc, ih]
    · simp [dropBlank, hc]

theorem not_blank_of_dropBlank_eq_cons {l : List Char} {c : Char} {cs : List Char}
    (h : dropBlank l = c :: cs) : isBlank c = false := by
  induction l with
  | nil => simp [dropBlank] at h
  | cons d ds ih =>
    by_cases hd : isBlank d = true
    · rw [dropBlank, if_pos hd] at h
      exact ih h
    · rw [dropBlank, if_neg hd] at h
      obtain ⟨rfl, -⟩ := List.cons.inj h
      simpa using hd

theorem trimBlank_eq_empty_iff (s : String) : trimBlank s = "" ↔ ∀ c ∈ s.toList, isBlank c = true := by
  rw [← dropBlank_eq_nil_iff, trimBlank, String.ofList_eq_empty_iff, List.reverse_eq_nil_iff,
    dropBlank_eq_nil_iff]
  constructor
  · intro hall
    cases hd : dropBlank s.toList with
    | nil => rfl
    | cons c cs =>
      have hc := hall c (by simp [hd])
      rw [not_blank_of_dropBlank_eq_cons hd] at hc
      cases hc
  · intro hnil c hc
    simp [hnil] at hc

end Text

/-- Every character of the marker is White_Space. -/
def RenderSettings.MarkerBlank (r : RenderSettings) : Prop := ∀ c ∈ r.marker.toList, Text.isBlank c = true

instance (r : RenderSettings) : Decidable r.MarkerBlank :=
  inferInstanceAs (Decidable (∀ c ∈ r.marker.toList, Text.isBlank c = true))

def RenderSettings.MarkerMultiline (r : RenderSettings) : Prop := '\n' ∈ r.marker.toList

instance (r : RenderSettings) : Decidable r.MarkerMultiline :=
  inferInstanceAs (Decidable ('\n' ∈ r.marker.toList))

/-- One directory lies in the other or is the other: the components of one begin with those of
the other. -/
def BuildSettings.Overlap (b : BuildSettings) : Prop :=
  Path.components b.input <+: Path.components b.output ∨
    Path.components b.output <+: Path.components b.input

instance (b : BuildSettings) : Decidable b.Overlap :=
  inferInstanceAs (Decidable (_ ∨ _))

/-! ### The render rules -/

section Render

variable (r : RenderSettings)

theorem isEmpty_trimBlank_iff : (Text.trimBlank r.marker).isEmpty = true ↔ r.MarkerBlank := by
  rw [String.isEmpty_iff, Text.trimBlank_eq_empty_iff]
  rfl

theorem contains_newline_iff : r.marker.toList.contains '\n' = true ↔ r.MarkerMultiline := by
  simp [RenderSettings.MarkerMultiline]

theorem fields_renderDiagnostics :
    r.diagnostics.map Diagnostic.field =
      (if r.placeholder = "" then ["render.placeholder"] else []) ++
        (if r.MarkerBlank ∨ r.MarkerMultiline then ["render.marker"] else []) := by
  have hp : r.placeholder.isEmpty = true ↔ r.placeholder = "" := String.isEmpty_iff
  have hb := isEmpty_trimBlank_iff r
  have hm := contains_newline_iff r
  simp only [RenderSettings.diagnostics, List.map_append]
  cases h1 : r.placeholder.isEmpty <;> cases h2 : (Text.trimBlank r.marker).isEmpty <;>
    cases h3 : r.marker.toList.contains '\n' <;> simp_all

theorem marker_message {d : Diagnostic} (hd : d ∈ r.diagnostics) (hf : d.field = "render.marker") :
    d.message = if r.MarkerBlank then "marker must not be blank" else "marker must be a single line" := by
  have hb := isEmpty_trimBlank_iff r
  simp only [RenderSettings.diagnostics, List.mem_append] at hd
  rcases hd with hp | hm
  · -- the placeholder's entry names another field
    split at hp <;> simp_all
  · cases h2 : (Text.trimBlank r.marker).isEmpty <;> cases h3 : r.marker.toList.contains '\n' <;>
      simp_all

end Render

/-! ### The build rule -/

section Build

variable (b : BuildSettings)

theorem buildDiagnostics_eq_nil_iff : b.diagnostics = [] ↔ ¬ b.Overlap := by
  unfold BuildSettings.diagnostics BuildSettings.Overlap
  by_cases hsame : Path.same b.output b.input = true
  · have heq := Path.same_iff.mp hsame
    simp [hsame, heq]
  · by_cases hin : Path.startsWith b.output b.input = true
    · simp [hsame, hin, Path.startsWith_iff.mp hin]
    · by_cases hout : Path.startsWith b.input b.output = true
      · simp [hsame, hin, hout, Path.startsWith_iff.mp hout]
      · simp only [hsame, hin, hout, Bool.false_eq_true, if_false, true_iff]
        rw [Path.startsWith_iff] at hin hout
        exact not_or.mpr ⟨hin, hout⟩

theorem fields_buildDiagnostics :
    b.diagnostics.map Diagnostic.field = if b.Overlap then ["build.output"] else [] := by
  by_cases ho : b.Overlap
  · have hne : b.diagnostics ≠ [] := fun h => (buildDiagnostics_eq_nil_iff b).mp h ho
    rw [if_pos ho]
    unfold BuildSettings.diagnostics at hne ⊢
    split <;> (try split) <;> (try split) <;> simp_all
  · rw [if_neg ho, (buildDiagnostics_eq_nil_iff b).mpr ho]
    rfl

theorem output_message {d : Diagnostic} (hd : d ∈ b.diagnostics) :
    (d.message = "output directory must differ from input" ↔
      Path.components b.output = Path.components b.input) ∧
    (d.message = "output directory must not be inside the input directory" ↔
      Path.components b.input <+: Path.components b.output ∧
        Path.components b.output ≠ Path.components b.input) ∧
    (d.message = "output directory must not contain the input directory" ↔
      Path.components b.output <+: Path.components b.input ∧
        Path.components b.output ≠ Path.components b.input) := by
  unfold BuildSettings.diagnostics at hd
  by_cases hsame : Path.same b.output b.input = true
  · have heq := Path.same_iff.mp hsame
    simp only [hsame, if_true, List.mem_singleton] at hd
    subst hd
    simp [heq]
  · have hne : Path.components b.output ≠ Path.components b.input := fun h => hsame (Path.same_iff.mpr h)
    by_cases hin : Path.startsWith b.output b.input = true
    · have hpre := Path.startsWith_iff.mp hin
      simp only [hsame, hin, Bool.false_eq_true, if_false, if_true, List.mem_singleton] at hd
      subst hd
      -- the other way round would make the two paths equal
      have hnot : ¬ Path.components b.output <+: Path.components b.input :=
        fun h => hne (List.IsPrefix.eq_of_length h (Nat.le_antisymm h.length_le hpre.length_le))
      simp [hne, hpre, hnot]
    · by_cases hout : Path.startsWith b.input b.output = true
      · have hpre := Path.startsWith_iff.mp hout
        have hnot : ¬ Path.components b.input <+: Path.components b.output :=
          fun h => hin (Path.startsWith_iff.mpr h)
        simp only [hsame, hin, hout, Bool.false_eq_true, if_false, if_true, List.mem_singleton] at hd
        subst hd
        simp [hne, hpre, hnot]
      · simp [hsame, hin, hout] at hd

end Build

/-! ### All rules of a command -/

section Project

variable (c : ProjectConfig) (cmd : CommandKind)

theorem diagnostics_eq :
    c.diagnostics cmd = c.render.diagnostics ++ (if cmd = .render then [] else c.build.diagnostics) := by
  cases cmd <;> rfl

theorem fields_diagnostics :
    (c.diagnostics cmd).map Diagnostic.field =
      (if c.render.placeholder = "" then ["render.placeholder"] else []) ++
        (if c.render.MarkerBlank ∨ c.render.MarkerMultiline then ["render.marker"] else []) ++
        (if cmd ≠ .render ∧ c.build.Overlap then ["build.output"] else []) := by
  rw [diagnostics_eq, List.map_append, fields_renderDiagnostics]
  by_cases hcmd : cmd = .render
  · simp [hcmd]
  · simp [hcmd, fields_buildDiagnostics]

theorem mem_buildDiagnostics_of_field {d : Diagnostic} (hd : d ∈ c.diagnostics cmd)
    (hf : d.field = "build.output") : d ∈ c.build.diagnostics := by
  rw [diagnostics_eq, List.mem_append] at hd
  rcases hd with hr | hb
  · have hmem := List.mem_map_of_mem (f := Diagnostic.field) hr
    rw [fields_renderDiagnostics, hf] at hmem
    split at hmem <;> split at hmem <;> simp at hmem
  · split at hb
    · simp at hb
    · exact hb

theorem mem_renderDiagnostics_of_field {d : Diagnostic} (hd : d ∈ c.diagnostics cmd)
    (hf : d.field = "render.marker") : d ∈ c.render.diagnostics := by
  rw [diagnostics_eq, List.mem_append] at hd
  rcases hd with hr | hb
  · exact hr
  · split at hb
    · simp at hb
    · have hmem := List.mem_map_of_mem (f := Diagnostic.field) hb
      rw [fields_buildDiagnostics, hf] at hmem
      split at hmem <;> simp at hmem

/-- Validation reports exactly the broken rules, one entry each, in the order placeholder, marker,
output. Paths compare by components: doubled slashes, an inner `.` and a trailing slash change
nothing, while a leading `.` and every `..` count. -/
theorem diagnostics_report_broken_rules :
    (c.diagnostics cmd = [] ↔ c.render.placeholder ≠ "" ∧ ¬ c.render.MarkerBlank ∧
        ¬ c.render.MarkerMultiline ∧ (cmd ≠ .render → ¬ c.build.Overlap)) ∧
    (c.diagnostics cmd).map Diagnostic.field =
      (if c.render.placeholder = "" then ["render.placeholder"] else []) ++
        (if c.render.MarkerBlank ∨ c.render.MarkerMultiline then ["render.marker"] else []) ++
        (if cmd ≠ .render ∧ c.build.Overlap then ["build.output"] else []) ∧
    (∀ d ∈ c.diagnostics cmd, d.field = "render.marker" →
      d.message = if c.render.MarkerBlank then "marker must not be blank"
        else "marker must be a single line") ∧
    (∀ d ∈ c.diagnostics cmd, d.field = "build.output" →
      (d.message = "output directory must differ from input" ↔
        Path.components c.build.output = Path.components c.build.input) ∧
      (d.message = "output directory must not be inside the input directory" ↔
        Path.components c.build.input <+: Path.components c.build.output ∧
          Path.components c.build.output ≠ Path.components c.build.input) ∧
      (d.message = "output directory must not contain the input directory" ↔
        Path.components c.build.output <+: Path.components c.build.input ∧
          Path.components c.build.output ≠ Path.components c.build.input)) ∧
    (∀ a b : String, Path.components (a ++ "//" ++ b) = Path.components (a ++ "/" ++ b) ∧
      Path.components (a ++ "/./" ++ b) = Path.components (a ++ "/" ++ b) ∧
      (a ≠ "" → Path.components (a ++ "/") = Path.components a ∧
        Path.components (a ++ "/..") = Path.components a ++ [.parent])) ∧
    (∀ n, Path.IsName n → Path.components ("./" ++ n) ≠ Path.components n) := by
  have hfields := fields_diagnostics c cmd
  refine ⟨?ok, hfields, ?marker, ?output, ?laws, ?dot⟩
  case ok =>
    rw [← List.map_eq_nil_iff (f := Diagnostic.field), hfields]
    by_cases hp : c.render.placeholder = "" <;> by_cases hb : c.render.MarkerBlank <;>
      by_cases hm : c.render.MarkerMultiline <;> by_cases hcmd : cmd = .render <;>
      by_cases ho : c.build.Overlap <;> simp [hp, hb, hm, hcmd, ho]
  case marker =>
    intro d hd hf
    exact marker_message c.render (mem_renderDiagnostics_of_field c cmd hd hf) hf
  case output =>
    intro d hd hf
    exact output_message c.build (mem_buildDiagnostics_of_field c cmd hd hf)
  case laws =>
    intro a b
    exact ⟨Path.components_double_slash a b, Path.components_interior_dot a b,
      fun ha => ⟨Path.components_append_trailing_slash ha, Path.components_append_parent ha⟩⟩
  case dot =>
    intro n hn heq
    obtain ⟨hdot, hname⟩ := Path.components_dot_slash_name hn
    rw [hdot, hname] at heq
    simp at heq

example : (({ render := { marker := "" }, build := { input := "/site/x", output := "/site/x/" } } :
    ProjectConfig).diagnostics .build).map Diagnostic.field = ["render.marker", "build.output"] ∧
    (({ render := { marker := "" }, build := { input := "/site/x", output := "/site/x/" } } :
    ProjectConfig).diagnostics .render).length = 1 := by
  decide +kernel

end Project

end ConfigTabs
