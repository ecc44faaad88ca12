import ConfigTabs.Snippet.Error
import ConfigTabs.Snippet.Excerpt
import ConfigTabs.Snippet.Input
import ConfigTabs.Json.Writer
import ConfigTabs.Toml.Writer
import ConfigTabs.Yaml.Writer
/-!
Rendering a snippet into three titled blocks, yaml, toml and json in that order.
-/
namespace ConfigTabs

def Format.serialize (f : Format) (v : Value) : Except SnippetError String :=
  match f with
  | .yaml => .ok (Yaml.write v)
  | .json => .ok (Json.write v)
  | .toml =>
    match Toml.write v with
    | .ok s => .ok s
    | .error e => .error (.serialization .toml e.message)

def defaultPlaceholder : String := "\x7b\x7b format \x7d\x7d"

/-- Choices that shape the blocks. -/
structure RenderOptions where
  placeholder : String := defaultPlaceholder
  marker : String := defaultMarker
  deriving DecidableEq, Repr, Inhabited

def replaceFirst (pat rep : List Char) : List Char → List Char
  | [] => []
  | c :: cs =>
    if pat.isPrefixOf (c :: cs) then rep ++ (c :: cs).drop pat.length
    else c :: replaceFirst pat rep cs

def RenderOptions.titleFor (o : RenderOptions) (template : String) (f : Format) : String :=
  if o.placeholder.isEmpty then template
  else String.ofList (replaceFirst o.placeholder.toList f.name.toList template.toList)

/-- One tab: its format, title and body. -/
structure Block where
  format : Format
  title : String
  body : String
  deriving DecidableEq, Repr, Inhabited

namespace SnippetInput

def rawText (i : SnippetInput) (f : Format) : Except SnippetError String :=
  match i.overrides.get f with
  | some t => .ok t
  | none =>
    match i.value with
    | some v => f.serialize v
    | none => .error (.configuration [f])

def block (i : SnippetInput) (o : RenderOptions) (f : Format) : Except SnippetError Block := do
  let raw ← i.rawText f
  let marker := if i.excerpt then some o.marker else none
  return { format := f, title := o.titleFor i.titleTemplate f, body := f.normalize raw marker }

def renderWith (i : SnippetInput) (o : RenderOptions) : Except SnippetError (List Block) :=
  match i.missingFormats with
  | [] => Format.all.mapM (i.block o)
  | missing => .error (.configuration missing)

def render (i : SnippetInput) : Except SnippetError (List Block) := i.renderWith {}

def overridesUsed (i : SnippetInput) : List Format :=
  if !i.missingFormats.isEmpty then []
  else go Format.all
where
  go : List Format → List Format
    | [] => []
    | f :: fs =>
      match i.overrides.get f with
      | some _ => f :: go fs
      | none =>
        match i.rawText f with
        | .ok _ => go fs
        | .error _ => []

end SnippetInput

end ConfigTabs
