import ConfigTabs.Proofs.Loading
import ConfigTabs.Proofs.Render
/-!
Where each setting of a run comes from: the command line, then the settings file, then the
default.
-/
namespace ConfigTabs

/-! ### A file cannot ask for a clean build -/

section Reading

variable {α : Type} (P : α → Prop)

/-- A setter keeps a property of the record it fills. -/
def Setter.Keeps (f : Setter α) : Prop := ∀ v a a' more, f v a = .ok (a', more) → P a → P a'

theorem takeEntries_keeps {path : String} {set : String → Option (Setter α)}
    (hset : ∀ k f, set k = some f → f.Keeps P) :
    ∀ {es : Toml.Entries} {a : α} {skipped : List String} {r : α × List String},
      takeEntries path set es a skipped = .ok r → P a → P r.1
  | [], _, _, _, h, ha => by
    cases h
    exact ha
  | (k, v) :: rest, a, skipped, r, h, ha => by
    simp only [takeEntries] at h
    split at h
    · exact takeEntries_keeps hset h ha
    · rename_i f hf
      split at h
      · rename_i a' more hv
        exact takeEntries_keeps hset h (hset _ f hf v a a' more hv ha)
      · cases h

theorem takeItems_keeps :
    ∀ {setters : List (Setter α)} {items : List Toml.Node} {a : α} {skipped : List String}
      {r : α × List String}, (∀ f ∈ setters, f.Keeps P) →
      takeItems setters items a skipped = .ok r → P a → P r.1
  | f :: fs, v :: vs, a, skipped, r, hkeep, h, ha => by
    simp only [takeItems] at h
    split at h
    · rename_i a' more hv
      exact takeItems_keeps (fun g hg => hkeep g (List.mem_cons_of_mem f hg)) h
        (hkeep f List.mem_cons_self v a a' more hv ha)
    · cases h
  | [], _, _, _, _, _, h, ha => by
    simp only [takeItems] at h
    cases h
    exact ha
  | _ :: _, [], _, _, _, _, h, ha => by
    simp only [takeItems] at h
    cases h
    exact ha

theorem takeRecord_keeps {expected path : String} {set : String → Option (Setter α)}
    {setters : List (Setter α)} (hset : ∀ k f, set k = some f → f.Keeps P)
    (hsetters : ∀ f ∈ setters, f.Keeps P) {n : Toml.Node} {a : α} {r : α × List String}
    (h : takeRecord expected path set setters n a = .ok r) (ha : P a) : P r.1 := by
  simp only [takeRecord] at h
  have hr := eq_ok_of_mapError h
  -- the record is read from a table's entries, an array's items, or a date's one entry
  cases n with
  | table es _ _ _ => exact takeEntries_keeps P hset hr ha
  | inlineTable es _ _ => exact takeEntries_keeps P hset hr ha
  | datetime d sp => exact takeEntries_keeps P hset hr ha
  | array items _ => exact takeItems_keeps P hsetters hr ha
  | tableArray ts _ => exact takeItems_keeps P hsetters hr ha
  | string => cases hr
  | integer => cases hr
  | float => cases hr
  | boolean => cases hr

end Reading

section Unclean

theorem pathSetter_keeps_unclean (update : String → BuildSettings → BuildSettings)
    (hupdate : ∀ s b, (update s b).clean = b.clean) :
    Setter.Keeps (fun b : BuildSettings => b.clean = false)
      fun v b => (takeString "path string" v).map fun s => (update s b, []) := by
  intro v b b' more h hb
  obtain ⟨s, -, hs⟩ := exists_of_map_eq_ok h
  cases hs
  rw [hupdate]
  exact hb

theorem setInput_keeps_unclean : setInput.Keeps fun b : BuildSettings => b.clean = false :=
  pathSetter_keeps_unclean (fun s b => { b with input := s }) fun _ _ => rfl

theorem setOutput_keeps_unclean : setOutput.Keeps fun b : BuildSettings => b.clean = false :=
  pathSetter_keeps_unclean (fun s b => { b with output := s }) fun _ _ => rfl

theorem buildSetter_keeps_unclean :
    ∀ k f, buildSetter k = some f → f.Keeps fun b : BuildSettings => b.clean = false := by
  intro k f hk
  unfold buildSetter at hk
  split at hk <;> cases hk
  · exact setInput_keeps_unclean
  · exact setOutput_keeps_unclean

theorem projectSetter_keeps_unclean :
    ∀ k f, projectSetter k = some f → f.Keeps fun c : ProjectConfig => c.build.clean = false := by
  intro k f hk v c c' more hf hc
  unfold projectSetter at hk
  split at hk
  · -- the render section leaves the build settings alone
    cases hk
    obtain ⟨⟨r, sk⟩, -, hrs⟩ := exists_of_map_eq_ok hf
    cases hrs
    exact hc
  · -- the build section sets only the directories
    cases hk
    obtain ⟨⟨b, sk⟩, hrec, hbs⟩ := exists_of_map_eq_ok hf
    cases hbs
    have hsetters : ∀ g ∈ [setInput, setOutput],
        g.Keeps fun b : BuildSettings => b.clean = false := by
      intro g hg
      simp only [List.mem_cons, List.not_mem_nil, or_false] at hg
      rcases hg with rfl | rfl
      · exact setInput_keeps_unclean
      · exact setOutput_keeps_unclean
    exact takeRecord_keeps (fun b : BuildSettings => b.clean = false) buildSetter_keeps_unclean
      hsetters hrec hc
  · cases hk

theorem readProjectConfig_unclean {text : String} {c : ProjectConfig} {skipped : List String}
    (h : readProjectConfig text = .ok (c, skipped)) : c.build.clean = false := by
  simp only [readProjectConfig] at h
  obtain ⟨root, -, hr⟩ := exists_of_bind_eq_ok (eq_ok_of_mapError h)
  exact takeEntries_keeps (fun c : ProjectConfig => c.build.clean = false)
    projectSetter_keeps_unclean hr rfl

end Unclean

/-! ### What a command line sets -/

namespace Cli.Request

def emitter? : Request → Option Emitter
  | .render _ e _ _ _ => e
  | .build _ _ e _ => e
  | .check _ => none

def input? : Request → Option String
  | .render .. => none
  | .build i _ _ _ => i
  | .check i => i

def output? : Request → Option String
  | .build _ o _ _ => o
  | _ => none

def clean : Request → Bool
  | .build _ _ _ c => c
  | _ => false

end Cli.Request

namespace Run

theorem printError_run (text : String) (s : Session) :
    (printError text).run s = .ok () { s with err := s.err ++ text } := rfl

theorem fail_run {α : Type} (f : Failure) (s : Session) : (fail f : Step α).run s = .error f s := rfl

theorem forIn_printError_run (l : List String) (s : Session) :
    ∃ s', (forIn l PUnit.unit fun f _ => do
      printError ("- " ++ f ++ "\n")
      pure (ForInStep.yield PUnit.unit) : Step PUnit).run s = .ok PUnit.unit s' := by
  induction l generalizing s with
  | nil => exact ⟨s, rfl⟩
  | cons f l ih =>
    obtain ⟨s', h⟩ := ih { s with err := s.err ++ ("- " ++ f ++ "\n") }
    refine ⟨s', ?_⟩
    simp only [List.forIn_cons, EStateM.run_bind, printError_run, EStateM.run_pure]
    exact h

theorem readConfigFile_ok_iff (path : String) (s : Session) (c : ProjectConfig) :
    (∃ s', (readConfigFile path).run s = .ok c s') ↔
      ∃ text skipped, s.files.read s.cwd path = .ok text ∧ readProjectConfig text = .ok (c, skipped) := by
  simp only [readConfigFile, EStateM.run_bind, EStateM.run_get]
  cases hread : s.files.read s.cwd path with
  | error e => simp [fail_run]
  | ok text =>
    cases hparse : readProjectConfig text with
    | error d => simp [hparse, fail_run]
    | ok r =>
      obtain ⟨c', sk⟩ := r
      -- the skipped keys are only reported: the settings read are the result
      have hrun : ∃ s', EStateM.run (if (!sk.isEmpty) = true then do
          log "warning" ("unknown fields in " ++ (Path.fileName? path).getD path ++ ", ignoring:")
          forIn sk PUnit.unit fun f _ => do
            printError ("- " ++ f ++ "\n")
            pure (ForInStep.yield PUnit.unit)
          pure c'
        else pure c') s = .ok c' s' := by
        split
        · simp only [EStateM.run_bind, log_run]
          obtain ⟨s₂, h₂⟩ := forIn_printError_run sk _
          rw [h₂]
          exact ⟨s₂, rfl⟩
        · exact ⟨s, rfl⟩
      obtain ⟨s', hs'⟩ := hrun
      simp only [hparse]
      constructor
      · rintro ⟨s'', h⟩
        rw [hs'] at h
        cases h
        exact ⟨text, sk, rfl, hparse⟩
      · rintro ⟨text', sk', htext, hp⟩
        cases htext
        rw [hparse] at hp
        cases hp
        exact ⟨s', hs'⟩

theorem applyRequest_eq (c : ProjectConfig) (r : Cli.Request) (hc : c.build.clean = false) :
    applyRequest c r =
      { render := { c.render with emitter := r.emitter?.getD c.render.emitter }
        build := { input := r.input?.getD c.build.input, output := r.output?.getD c.build.output,
                   clean := r.clean } } := by
  obtain ⟨rs, ⟨i, o, cl⟩⟩ := c
  simp only at hc
  subst hc
  cases r <;> rfl

def SettingsRead (s : Session) (name : String) (c : ProjectConfig) : Prop :=
  match findConfig s.files s.cwd name with
  | none => c = {}
  | some path => ∃ text skipped, s.files.read s.cwd path = .ok text ∧ readProjectConfig text = .ok (c, skipped)

theorem SettingsRead.unclean {s : Session} {name : String} {c : ProjectConfig}
    (h : SettingsRead s name c) : c.build.clean = false := by
  unfold SettingsRead at h
  split at h
  · subst h
    rfl
  · obtain ⟨text, skipped, -, hp⟩ := h
    exact readProjectConfig_unclean hp

def projectTop (s : Session) (name : String) : String :=
  normalize s.files s.cwd (((findConfig s.files s.cwd name).bind Path.parent?).getD (Files.pathText s.cwd))

def loadedFrom (s : Session) (inv : Cli.Invocation) (c : ProjectConfig) : Project :=
  let c := applyRequest c inv.request
  { config := { c with
      build.input := normalize s.files s.cwd (Path.join (projectTop s inv.config) c.build.input)
      build.output := normalize s.files s.cwd (Path.join (projectTop s inv.config) c.build.output) }
    root := projectTop s inv.config }

def startSettings (s : Session) (name : String) : Step ProjectConfig :=
  match findConfig s.files s.cwd name with
  | some path => readConfigFile path
  | none => do
    debug "config" ("no " ++ name ++ " found, using defaults")
    pure {}

theorem loadProject_run (inv : Cli.Invocation) (s : Session) : (loadProject inv).run s = (do
    let c ← startSettings s inv.config
    let p := loadedFrom s inv c
    if !(p.config.diagnostics inv.request.kind).isEmpty then
      fail (.diagnostics (diagnosticsDisplay (p.config.diagnostics inv.request.kind)))
    pure p).run s := by
  unfold loadProject startSettings loadedFrom projectTop
  simp only [EStateM.run_bind, EStateM.run_get]
  cases hf : findConfig s.files s.cwd inv.config with
  | none =>
    obtain ⟨s₁, hdebug, -⟩ := debug_run "config" ("no " ++ inv.config ++ " found, using defaults") s
    simp only [hdebug, EStateM.run_pure, EStateM.run_bind]
  | some path =>
    cases hr : (readConfigFile path).run s <;> simp only [hr, EStateM.run_bind]

theorem startSettings_ok_iff (s : Session) (name : String) (c : ProjectConfig) :
    (∃ s', (startSettings s name).run s = .ok c s') ↔ SettingsRead s name c := by
  unfold startSettings SettingsRead
  cases hf : findConfig s.files s.cwd name with
  | some path => exact readConfigFile_ok_iff path s c
  | none =>
    obtain ⟨s₁, hdebug, -⟩ := debug_run "config" ("no " ++ name ++ " found, using defaults") s
    simp only [EStateM.run_bind, hdebug, EStateM.run_pure]
    constructor
    · rintro ⟨s', h⟩
      cases h
      rfl
    · rintro rfl
      exact ⟨s₁, rfl⟩

theorem checked_run (p : Project) (ds : List Diagnostic) (s : Session) :
    (do
      if !ds.isEmpty then fail (.diagnostics (diagnosticsDisplay ds))
      pure p : Step Project).run s =
      if ds.isEmpty then .ok p s else .error (.diagnostics (diagnosticsDisplay ds)) s := by
  cases ds <;> rfl

theorem loadProject_ok_iff (inv : Cli.Invocation) (s : Session) (p : Project) :
    (∃ s', (loadProject inv).run s = .ok p s') ↔
      ∃ c, SettingsRead s inv.config c ∧ p = loadedFrom s inv c ∧
        (loadedFrom s inv c).config.diagnostics inv.request.kind = [] := by
  rw [loadProject_run]
  simp only [EStateM.run_bind]
  cases hstart : (startSettings s inv.config).run s with
  | ok c s₁ =>
    simp only [checked_run]
    have hread : SettingsRead s inv.config c := (startSettings_ok_iff s inv.config c).mp ⟨s₁, hstart⟩
    -- the settings a load starts from are the only ones the file gives
    have huniq : ∀ c', SettingsRead s inv.config c' → c' = c := by
      intro c' hc'
      obtain ⟨s', h'⟩ := (startSettings_ok_iff s inv.config c').mpr hc'
      rw [hstart] at h'
      cases h'
      rfl
    constructor
    · rintro ⟨s', h⟩
      split at h
      · cases h
        exact ⟨c, hread, rfl, List.isEmpty_iff.mp ‹_›⟩
      · cases h
    · rintro ⟨c', hc', rfl, hds⟩
      obtain rfl := huniq c' hc'
      exact ⟨s₁, by simp [hds]⟩
  | error e s₁ =>
    constructor
    · rintro ⟨s', h⟩
      cases h
    · rintro ⟨c', hc', -⟩
      obtain ⟨s', h'⟩ := (startSettings_ok_iff s inv.config c').mpr hc'
      rw [hstart] at h'
      cases h'

/-- Loading takes each setting from the command line, then the settings file, then the default,
and succeeds exactly when the file found, if any, is read and the settings pass the command's
check. -/
theorem loadProject_follows_precedence (inv : Cli.Invocation) (s : Session) (p : Project) :
    (∃ s', (loadProject inv).run s = .ok p s') ↔
      ∃ fc, SettingsRead s inv.config fc ∧
        p.root = normalize s.files s.cwd
          (((findConfig s.files s.cwd inv.config).bind Path.parent?).getD (Files.pathText s.cwd)) ∧
        p.config.render.placeholder = fc.render.placeholder ∧
        p.config.render.marker = fc.render.marker ∧
        p.config.render.emitter = inv.request.emitter?.getD fc.render.emitter ∧
        p.config.build.input = normalize s.files s.cwd (Path.join p.root (inv.request.input?.getD fc.build.input)) ∧
        p.config.build.output =
          normalize s.files s.cwd (Path.join p.root (inv.request.output?.getD fc.build.output)) ∧
        p.config.build.clean = inv.request.clean ∧
        p.config.diagnostics inv.request.kind = [] := by
  rw [loadProject_ok_iff]
  constructor
  · rintro ⟨fc, hfc, rfl, hds⟩
    refine ⟨fc, hfc, ?_⟩
    simpa [loadedFrom, projectTop, applyRequest_eq fc inv.request hfc.unclean] using hds
  · rintro ⟨fc, hfc, hroot, hph, hmk, hem, hin, hout, hcl, hds⟩
    -- the fields name the project whole
    have hp : p = loadedFrom s inv fc := by
      obtain ⟨⟨⟨ph, mk, em⟩, ⟨i, o, cl⟩⟩, r⟩ := p
      simp only at hroot hph hmk hem hin hout hcl
      subst hroot hph hmk hem hin hout hcl
      simp only [loadedFrom, applyRequest_eq fc inv.request hfc.unclean, projectTop]
    exact ⟨fc, hfc, hp, hp ▸ hds⟩

end Run

end ConfigTabs
