import ConfigTabs.Config.Basic
import ConfigTabs.Toml.Document
import ConfigTabs.Snippet.Schema
/-!
Taking a project's settings from its TOML file: the `[render]` and `[build]` tables, given by
name or as arrays by place, with unknown keys skipped and reported.
-/
namespace ConfigTabs

open Toml

def settingPath (parent key : String) : String :=
  if parent.isEmpty then key else parent ++ "." ++ key

def placeAt (n : Node) (e : TomlError) : TomlError :=
  if e.span.isNone then { e with span := n.span? } else e

def takeString (expected : String) (n : Node) : Except TomlError String :=
  match n with
  | .string s _ => .ok s
  | _ => .error (placeAt n { message := Shape.invalidType (describeNode n) expected })

def emitterNamed (name : String) (span : Option Span) : Except TomlError Emitter :=
  match Emitter.ofName? name with
  | some e => .ok e
  | none => .error { message := Shape.unknownVariant name (Emitter.all.map Emitter.name), span }

def emptyPayload (v : Node) : Except TomlError Unit :=
  match v with
  | .tableArray ts sp => if ts.isEmpty then .ok () else .error { message := "expected empty array", span := sp }
  | .array items sp =>
    if items.isEmpty then .ok () else .error { message := "expected empty array", span := some sp }
  | .table es _ _ sp => if es.isEmpty then .ok () else .error { message := "expected empty table", span := sp }
  | .inlineTable es _ sp =>
    if es.isEmpty then .ok () else .error { message := "expected empty table", span := sp }
  | other => .error { message := "expected table, found " ++ other.typeName, span := other.span? }

def takeEmitter (n : Node) : Except TomlError Emitter :=
  let r : Except TomlError Emitter := match n with
    | .string s _ => emitterNamed s none
    | .inlineTable es _ sp =>
      match es with
      | [] => .error { message := "wanted exactly 1 element, found 0 elements", span := sp }
      | [(k, v)] => do
        let e ← emitterNamed k.name (some k.span)
        emptyPayload v
        pure e
      | _ => .error { message := "wanted exactly 1 element, more than 1 element", span := sp }
    | .table es _ _ sp =>
      match es with
      | [] => .error { message := "expected table with exactly 1 entry, found empty table", span := sp }
      | (k, v) :: _ => do
        let e ← emitterNamed k.name (some k.span)
        emptyPayload v
        pure e
    | other => .error { message := "wanted string or table", span := other.span? }
  r.mapError (placeAt n)

/-- Reads one setting into a record, with the paths it skipped. -/
abbrev Setter (α : Type) := Node → α → Except TomlError (α × List String)

/-- A table's entries read into a record: known keys through `set`, the others skipped. -/
def takeEntries {α : Type} (path : String) (set : String → Option (Setter α)) :
    Entries → α → List String → Except TomlError (α × List String)
  | [], a, skipped => .ok (a, skipped)
  | (k, v) :: rest, a, skipped =>
    match set k.name with
    | none => takeEntries path set rest a (skipped ++ [settingPath path k.name])
    | some f =>
      match f v a with
      | .ok (a, more) => takeEntries path set rest a (skipped ++ more)
      | .error e =>
        .error { e with span := e.span <|> v.span? <|> some k.span, keys := k.name :: e.keys }

def takeItems {α : Type} : List (Setter α) → List Node → α → List String →
    Except TomlError (α × List String)
  | f :: fs, v :: vs, a, skipped =>
    match f v a with
    | .ok (a, more) => takeItems fs vs a (skipped ++ more)
    | .error e => .error { e with span := e.span <|> v.span? }
  | _, _, a, skipped => .ok (a, skipped)

def takeRecord {α : Type} (expected path : String) (set : String → Option (Setter α))
    (setters : List (Setter α)) (n : Node) (a : α) : Except TomlError (α × List String) :=
  let r : Except TomlError (α × List String) := match n with
    | .table es _ _ _ | .inlineTable es _ _ => takeEntries path set es a []
    | .array items _ => takeItems setters items a []
    | .tableArray ts _ => takeItems setters ts a []
    | .datetime d sp =>
      takeEntries path set [({ name := datetimeKey, raw := datetimeKey, span := sp }, .string d.text sp)] a []
    | other => .error { message := Shape.invalidType (describeNode other) expected }
  r.mapError (placeAt n)

def setPlaceholder : Setter RenderSettings := fun v r =>
  (takeString "a string" v).map fun s => ({ r with placeholder := s }, [])

def setMarker : Setter RenderSettings := fun v r =>
  (takeString "a string" v).map fun s => ({ r with marker := s }, [])

def setEmitter : Setter RenderSettings := fun v r =>
  (takeEmitter v).map fun e => ({ r with emitter := e }, [])

def renderSetter : String → Option (Setter RenderSettings)
  | "placeholder" => some setPlaceholder
  | "marker" => some setMarker
  | "emitter" => some setEmitter
  | _ => none

def setInput : Setter BuildSettings := fun v b =>
  (takeString "path string" v).map fun s => ({ b with input := s }, [])

def setOutput : Setter BuildSettings := fun v b =>
  (takeString "path string" v).map fun s => ({ b with output := s }, [])

def buildSetter : String → Option (Setter BuildSettings)
  | "input" => some setInput
  | "output" => some setOutput
  | _ => none

def projectSetter : String → Option (Setter ProjectConfig)
  | "render" => some fun v c =>
    (takeRecord "struct RenderSectionConfig" "render" renderSetter
      [setPlaceholder, setMarker, setEmitter] v c.render).map fun (r, skipped) => ({ c with render := r }, skipped)
  | "build" => some fun v c =>
    (takeRecord "struct BuildSectionConfig" "build" buildSetter [setInput, setOutput] v c.build).map
      fun (b, skipped) => ({ c with build := b }, skipped)
  | _ => none

/-- A project's settings from the text of its file, with the paths of the keys it skipped;
or the text of the error. -/
def readProjectConfig (text : String) : Except String (ProjectConfig × List String) :=
  let r : Except TomlError (ProjectConfig × List String) := do
    let root ← parseDocument text
    takeEntries "" projectSetter root {} []
  r.mapError fun e => e.render text

end ConfigTabs
