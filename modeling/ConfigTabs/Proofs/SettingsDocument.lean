import ConfigTabs.Proofs.TomlKeys
import ConfigTabs.Config.Read
/-!
What a settings file gives, said of its parsed document; keys are read by name, which is sound
because parsed tables name each key once.
-/
namespace ConfigTabs

open Toml

@[simp] theorem toOption_map {ε β γ : Type} (f : β → γ) (x : Except ε β) :
    (x.map f).toOption = x.toOption.map f := by
  cases x <;> rfl

theorem toOption_mapError {ε ε' β : Type} (f : ε → ε') (x : Except ε β) :
    (x.mapError f).toOption = x.toOption := by
  cases x <;> rfl

theorem eq_ok_iff_toOption {ε β : Type} {x : Except ε β} {b : β} : x = .ok b ↔ x.toOption = some b := by
  cases x <;> simp [Except.toOption]

/-! ### What a document gives -/

/-- The value a section gives the setting named `key`, which stands at `index` when the section
is written as an array: the entry under that key in a table, the item at that place in an array
or an array of tables. -/
def sectionValue (n : Node) (key : String) (index : Nat) : Option Node :=
  match n with
  | .table es _ _ _ | .inlineTable es _ _ => Entries.find? es key
  | .array items _ | .tableArray items _ => items[index]?
  | _ => none

def isSection : Node → Bool
  | .table .. | .inlineTable .. | .array .. | .tableArray .. | .datetime .. => true
  | _ => false

def settingOf {β : Type} (read : Node → Except TomlError β) (given : Option Node) (current : β) :
    Option β :=
  match given with
  | some v => (read v).toOption
  | none => some current

def renderGiven (given : String → Nat → Option Node) (r : RenderSettings) : Option RenderSettings := do
  let placeholder ← settingOf (takeString "a string") (given "placeholder" 0) r.placeholder
  let marker ← settingOf (takeString "a string") (given "marker" 1) r.marker
  let emitter ← settingOf takeEmitter (given "emitter" 2) r.emitter
  pure { placeholder, marker, emitter }

def buildGiven (given : String → Nat → Option Node) (b : BuildSettings) : Option BuildSettings := do
  let input ← settingOf (takeString "path string") (given "input" 0) b.input
  let output ← settingOf (takeString "path string") (given "output" 1) b.output
  pure { b with input, output }

def renderKeys : List String := ["placeholder", "marker", "emitter"]

def buildKeys : List String := ["input", "output"]

def unknownKeys (path : String) (settings : List String) (es : Entries) : List String :=
  (es.filter fun e => !settings.contains e.1.name).map fun e => settingPath path e.1.name

def sectionSkipped (path : String) (settings : List String) : Node → List String
  | .table es _ _ _ | .inlineTable es _ _ => unknownKeys path settings es
  | .datetime _ _ => [settingPath path datetimeKey]
  | _ => []

def documentGives (root : Entries) (c : ProjectConfig) : Option ProjectConfig := do
  let render ← match root.find? "render" with
    | some n => if isSection n then renderGiven (sectionValue n) c.render else none
    | none => some c.render
  let build ← match root.find? "build" with
    | some n => if isSection n then buildGiven (sectionValue n) c.build else none
    | none => some c.build
  pure { render, build }

def documentSkipped (root : Entries) : List String :=
  root.flatMap fun e =>
    if e.1.name = "render" then sectionSkipped "render" renderKeys e.2
    else if e.1.name = "build" then sectionSkipped "build" buildKeys e.2
    else [e.1.name]

theorem documentSkipped_cons (k : Key) (v : Node) (rest : Entries) :
    documentSkipped ((k, v) :: rest) =
      (if k.name = "render" then sectionSkipped "render" renderKeys v
       else if k.name = "build" then sectionSkipped "build" buildKeys v
       else [k.name]) ++ documentSkipped rest := by
  simp [documentSkipped]

/-! ### Reading a table by name -/

section Entries

variable {α : Type} {path : String} {set : String → Option (Setter α)}
  {S : Entries → α → Option (α × List String)} {Q : Key × Node → Prop}

theorem takeEntries_toOption
    (hnil : ∀ a, S [] a = some (a, []))
    (hskip : ∀ k v (rest : Entries) a, set k.name = none →
      S ((k, v) :: rest) a = (S rest a).map fun p => (p.1, settingPath path k.name :: p.2))
    (hset : ∀ k v (rest : Entries) a f, set k.name = some f → rest.find? k.name = none → Q (k, v) →
      S ((k, v) :: rest) a =
        (f v a).toOption.bind fun p => (S rest p.1).map fun q => (q.1, p.2 ++ q.2)) :
    ∀ {es : Entries} {a : α} {acc : List String}, (keyNames es).Nodup → (∀ e ∈ es, Q e) →
      (takeEntries path set es a acc).toOption = (S es a).map fun p => (p.1, acc ++ p.2) := by
  intro es
  induction es with
  | nil =>
    intro a acc _ _
    simp [takeEntries, hnil, Except.toOption]
  | cons e rest ih =>
    obtain ⟨k, v⟩ := e
    intro a acc hnodup hQ
    -- the first key is not met again, so the setters of the rest never see it
    have hk : Entries.find? rest k.name = none := by
      simp only [keyNames, List.map_cons, List.nodup_cons] at hnodup
      exact Entries.find?_eq_none_iff.mpr hnodup.1
    have hrest : (keyNames rest).Nodup := (List.nodup_cons.mp hnodup).2
    have hQrest : ∀ e ∈ rest, Q e := fun e he => hQ e (List.mem_cons_of_mem _ he)
    simp only [takeEntries]
    split
    · rename_i hnone
      rw [ih hrest hQrest, hskip k v rest a hnone, Option.map_map]
      simp [Function.comp_def]
    · rename_i f hsome
      rw [hset k v rest a f hsome hk (hQ _ List.mem_cons_self)]
      split
      · rename_i a1 more hf
        rw [ih hrest hQrest, hf]
        simp [Except.toOption, Option.map_map, Function.comp_def]
      · rename_i e hf
        simp [hf, Except.toOption]

end Entries

theorem renderSetter_eq_none_iff {name : String} : renderSetter name = none ↔ name ∉ renderKeys := by
  unfold renderSetter
  split <;> simp_all [renderKeys]

theorem buildSetter_eq_none_iff {name : String} : buildSetter name = none ↔ name ∉ buildKeys := by
  unfold buildSetter
  split <;> simp_all [buildKeys]

theorem takeEntries_render {es : Entries} {r : RenderSettings} (hes : (keyNames es).Nodup) :
    (takeEntries "render" renderSetter es r []).toOption =
      (renderGiven (fun key _ => es.find? key) r).map (·, unknownKeys "render" renderKeys es) := by
  rw [takeEntries_toOption (Q := fun _ => True) (S := fun es r =>
    (renderGiven (fun key _ => es.find? key) r).map (·, unknownKeys "render" renderKeys es))
    ?_ ?_ ?_ hes (fun _ _ => trivial)]
  · simp [Option.map_map, Function.comp_def]
  · intro r
    simp [renderGiven, settingOf, Entries.find?, unknownKeys]
  · -- a key that is no setting is skipped and leaves the settings to the rest of the table
    intro k v rest r hnone
    have hk := renderSetter_eq_none_iff.mp hnone
    simp only [renderKeys, List.mem_cons, List.not_mem_nil, or_false, not_or] at hk
    obtain ⟨h1, h2, h3⟩ := hk
    have hgiven : renderGiven (fun key _ => Entries.find? ((k, v) :: rest) key) r =
        renderGiven (fun key _ => rest.find? key) r := by
      simp [renderGiven, Entries.find?_cons, h1, h2, h3]
    rw [hgiven]
    cases renderGiven (fun key _ => rest.find? key) r <;> simp [unknownKeys, renderKeys, h1, h2, h3]
  · intro k v rest r f hsome hrest _
    unfold renderSetter at hsome
    split at hsome
    case h_4 => cases hsome
    all_goals
      rename_i hk
      cases hsome
      rw [hk] at hrest
      simp [renderGiven, settingOf, setPlaceholder, setMarker, setEmitter, Entries.find?_cons, hrest,
        unknownKeys, renderKeys, hk]
      cases (takeString "a string" v).toOption <;> cases (takeEmitter v).toOption <;> simp

theorem takeEntries_build {es : Entries} {b : BuildSettings} (hes : (keyNames es).Nodup) :
    (takeEntries "build" buildSetter es b []).toOption =
      (buildGiven (fun key _ => es.find? key) b).map (·, unknownKeys "build" buildKeys es) := by
  rw [takeEntries_toOption (Q := fun _ => True) (S := fun es b =>
    (buildGiven (fun key _ => es.find? key) b).map (·, unknownKeys "build" buildKeys es))
    ?_ ?_ ?_ hes (fun _ _ => trivial)]
  · simp [Option.map_map, Function.comp_def]
  · intro b
    simp [buildGiven, settingOf, Entries.find?, unknownKeys]
  · intro k v rest b hnone
    have hk := buildSetter_eq_none_iff.mp hnone
    simp only [buildKeys, List.mem_cons, List.not_mem_nil, or_false, not_or] at hk
    obtain ⟨h1, h2⟩ := hk
    have hgiven : buildGiven (fun key _ => Entries.find? ((k, v) :: rest) key) b =
        buildGiven (fun key _ => rest.find? key) b := by
      simp [buildGiven, Entries.find?_cons, h1, h2]
    rw [hgiven]
    cases buildGiven (fun key _ => rest.find? key) b <;> simp [unknownKeys, buildKeys, h1, h2]
  · intro k v rest b f hsome hrest _
    unfold buildSetter at hsome
    split at hsome
    case h_3 => cases hsome
    all_goals
      rename_i hk
      cases hsome
      rw [hk] at hrest
      simp [buildGiven, settingOf, setInput, setOutput, Entries.find?_cons, hrest, unknownKeys,
        buildKeys, hk]
      cases (takeString "path string" v).toOption <;> simp

/-! ### Reading an array by place -/

section Items

variable {α : Type}

theorem takeItems_cons_toOption (f : Setter α) (fs : List (Setter α)) (v : Node) (vs : List Node)
    (a : α) (skipped : List String) :
    (takeItems (f :: fs) (v :: vs) a skipped).toOption =
      (f v a).toOption.bind fun p => (takeItems fs vs p.1 (skipped ++ p.2)).toOption := by
  simp only [takeItems]
  split <;> simp_all [Except.toOption]

@[simp] theorem takeItems_no_setters (items : List Node) (a : α) (skipped : List String) :
    takeItems [] items a skipped = .ok (a, skipped) := by
  cases items <;> rfl

@[simp] theorem takeItems_no_items (setters : List (Setter α)) (a : α) (skipped : List String) :
    takeItems setters [] a skipped = .ok (a, skipped) := by
  cases setters <;> rfl

end Items

theorem takeItems_render (items : List Node) (r : RenderSettings) :
    (takeItems [setPlaceholder, setMarker, setEmitter] items r []).toOption =
      (renderGiven (fun _ i => items[i]?) r).map (·, []) := by
  rcases items with _ | ⟨a, _ | ⟨b, _ | ⟨c, rest⟩⟩⟩
  · rfl
  all_goals
    simp only [takeItems_cons_toOption, takeItems_no_items, takeItems_no_setters]
    simp only [renderGiven, settingOf, setPlaceholder, setMarker, setEmitter, toOption_map,
      List.getElem?_cons_zero, List.getElem?_cons_succ, List.getElem?_nil]
  · cases (takeString "a string" a).toOption <;> rfl
  · cases (takeString "a string" a).toOption <;> cases (takeString "a string" b).toOption <;> rfl
  · -- a fourth item and those after it are not read
    cases (takeString "a string" a).toOption <;> cases (takeString "a string" b).toOption <;>
      cases (takeEmitter c).toOption <;> rfl

theorem takeItems_build (items : List Node) (b : BuildSettings) :
    (takeItems [setInput, setOutput] items b []).toOption =
      (buildGiven (fun _ i => items[i]?) b).map (·, []) := by
  rcases items with _ | ⟨a, _ | ⟨c, rest⟩⟩
  · rfl
  all_goals
    simp only [takeItems_cons_toOption, takeItems_no_items, takeItems_no_setters]
    simp only [buildGiven, settingOf, setInput, setOutput, toOption_map,
      List.getElem?_cons_zero, List.getElem?_cons_succ, List.getElem?_nil]
  · cases (takeString "path string" a).toOption <;> rfl
  · cases (takeString "path string" a).toOption <;> cases (takeString "path string" c).toOption <;> rfl

/-! ### Reading a section in any form -/

theorem takeRecord_toOption {α : Type} {expected path : String} {set : String → Option (Setter α)}
    {setters : List (Setter α)} {given : (String → Nat → Option Node) → α → Option α}
    {settings : List String}
    (htable : ∀ (es : Entries) a, (keyNames es).Nodup →
      (takeEntries path set es a []).toOption =
        (given (fun key _ => es.find? key) a).map (·, unknownKeys path settings es))
    (hitems : ∀ items a, (takeItems setters items a []).toOption =
      (given (fun _ i => items[i]?) a).map (·, []))
    (hnone : ∀ a, given (fun _ _ => none) a = some a) (hdate : set datetimeKey = none)
    {n : Node} (hn : n.OwnKeysOnce) (a : α) :
    (takeRecord expected path set setters n a).toOption =
      (if isSection n then given (sectionValue n) a else none).map (·, sectionSkipped path settings n) := by
  unfold takeRecord
  rw [toOption_mapError]
  cases n with
  | table es _ _ _ => exact htable es a hn
  | inlineTable es _ _ => exact htable es a hn
  | array items _ => exact hitems items a
  | tableArray ts _ => exact hitems ts a
  | datetime d sp =>
    have hgiven : sectionValue (.datetime d sp) = fun _ _ => none := rfl
    simp [takeEntries, hdate, isSection, hgiven, hnone, sectionSkipped, Except.toOption]
  | _ => rfl

theorem takeRecord_render {n : Node} (hn : n.OwnKeysOnce) (r : RenderSettings) :
    (takeRecord "struct RenderSectionConfig" "render" renderSetter [setPlaceholder, setMarker, setEmitter]
      n r).toOption =
      (if isSection n then renderGiven (sectionValue n) r else none).map
        (·, sectionSkipped "render" renderKeys n) :=
  takeRecord_toOption (fun _ _ hes => takeEntries_render hes) takeItems_render
    (fun _ => by simp [renderGiven, settingOf]) rfl hn r

theorem takeRecord_build {n : Node} (hn : n.OwnKeysOnce) (b : BuildSettings) :
    (takeRecord "struct BuildSectionConfig" "build" buildSetter [setInput, setOutput] n b).toOption =
      (if isSection n then buildGiven (sectionValue n) b else none).map
        (·, sectionSkipped "build" buildKeys n) :=
  takeRecord_toOption (fun _ _ hes => takeEntries_build hes) takeItems_build
    (fun _ => by simp [buildGiven, settingOf]) rfl hn b

/-! ### Reading a document -/

theorem takeEntries_project {root : Entries} {c : ProjectConfig} {acc : List String}
    (hroot : KeysOnce root) :
    (takeEntries "" projectSetter root c acc).toOption =
      (documentGives root c).map fun c' => (c', acc ++ documentSkipped root) := by
  rw [takeEntries_toOption (Q := fun e => e.2.OwnKeysOnce)
    (S := fun es c => (documentGives es c).map (·, documentSkipped es))
    ?_ ?_ ?_ hroot.nodup hroot.children]
  · simp [Option.map_map, Function.comp_def]
  · intro c
    simp [documentGives, documentSkipped, Entries.find?]
  · -- a top key other than the two sections is skipped under its own name
    intro k v rest c hnone
    have hk : k.name ≠ "render" ∧ k.name ≠ "build" := by
      unfold projectSetter at hnone
      split at hnone <;> simp_all
    simp [documentGives, documentSkipped_cons, Entries.find?_cons, hk.1, hk.2, settingPath,
      Function.comp_def]
  · intro k v rest c f hsome hrest hown
    unfold projectSetter at hsome
    split at hsome
    case h_3 => cases hsome
    · -- the render section, read over the settings so far; the rest gives the build section
      rename_i hk
      cases hsome
      rw [hk] at hrest
      simp only [toOption_map, takeRecord_render hown]
      simp [documentGives, documentSkipped_cons, Entries.find?_cons, hk, hrest]
      by_cases hv : isSection v
      · simp only [hv, if_true]
        cases renderGiven (sectionValue v) c.render <;> rfl
      · simp [hv]
    · -- the build section; the render section is looked up in the rest of the document
      rename_i hk
      cases hsome
      rw [hk] at hrest
      simp only [toOption_map, takeRecord_build hown]
      simp [documentGives, documentSkipped_cons, Entries.find?_cons, hk, hrest]
      by_cases hv : isSection v
      · simp only [hv, if_true]
        cases rest.find? "render" with
        | none => cases buildGiven (sectionValue v) c.build <;> rfl
        | some n =>
          by_cases hn : isSection n
          · simp only [hn, if_true]
            -- both orders of reading the two sections fail together or give the same settings
            cases buildGiven (sectionValue v) c.build
            · cases renderGiven (sectionValue n) c.render <;> rfl
            · simp only [Option.map_some, Option.bind_some, Function.comp_apply]
              cases renderGiven (sectionValue n) c.render <;> rfl
          · cases buildGiven (sectionValue v) c.build <;> simp [hn]
      · simp [hv]
        split <;> rfl

/-- The settings reader accepts exactly the documents whose tables name each key once and whose
sections give settings, by name or by place, and reports the other keys as skipped, in order. -/
theorem readProjectConfig_eq_ok_iff (text : String) (c : ProjectConfig) (ignored : List String) :
    readProjectConfig text = .ok (c, ignored) ↔
      ∃ root, parseDocument text = .ok root ∧ KeysOnce root ∧ documentGives root {} = some c ∧
        ignored = documentSkipped root := by
  rw [eq_ok_iff_toOption]
  unfold readProjectConfig
  rw [toOption_mapError]
  cases hparse : parseDocument text with
  | error e =>
    simp only [bind, Except.bind]
    simp [Except.toOption]
  | ok root =>
    have hkeys := parseDocument_keysOnce hparse
    simp only [bind, Except.bind]
    rw [takeEntries_project hkeys]
    constructor
    · intro h
      obtain ⟨c', hc', hpair⟩ := Option.map_eq_some_iff.mp h
      cases hpair
      exact ⟨root, rfl, hkeys, hc', by simp⟩
    · rintro ⟨root', hroot', -, hc, rfl⟩
      cases hroot'
      simp [hc]

/-- A render section written as an array, a build section written as a datetime, and a table
defined after the implicit table it was made as: the placeholder is taken by place, the datetime
reports its private key, and `a` is skipped after `z`, although `[a.b]` comes first in the text. -/
theorem settings_follow_parsed_tables :
    readProjectConfig "render = [\"x\"]\nbuild = 1979-05-27\n[a.b]\n[z]\n[a]\n" =
      .ok ({ render := { placeholder := "x" } }, ["build.$__toml_private_datetime", "z", "a"]) :=
  eq_ok_iff_toOption.mpr (by decide +kernel)

end ConfigTabs
