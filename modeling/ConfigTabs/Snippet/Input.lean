import ConfigTabs.Snippet.Format
import ConfigTabs.Value.Basic
/-!
What a snippet is made of: a title template, an optional value, replacement texts, and whether
it is an excerpt.
-/
namespace ConfigTabs

structure Overrides where
  yaml : Option String := none
  toml : Option String := none
  json : Option String := none
  deriving DecidableEq, Repr, Inhabited

namespace Overrides

def get (o : Overrides) : Format → Option String
  | .yaml => o.yaml
  | .toml => o.toml
  | .json => o.json

def set (o : Overrides) (f : Format) (text : String) : Overrides :=
  match f with
  | .yaml => { o with yaml := some text }
  | .toml => { o with toml := some text }
  | .json => { o with json := some text }

def isEmpty (o : Overrides) : Bool := Format.all.all fun f => (o.get f).isNone

end Overrides

/-- A snippet ready to be rendered. -/
structure SnippetInput where
  titleTemplate : String
  value : Option Value := none
  overrides : Overrides := {}
  excerpt : Bool := false
  deriving Repr, Inhabited

namespace SnippetInput

def missingFormats (i : SnippetInput) : List Format :=
  if i.value.isSome then [] else Format.all.filter fun f => (i.overrides.get f).isNone

end SnippetInput

end ConfigTabs
