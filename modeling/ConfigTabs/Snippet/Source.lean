import ConfigTabs.Path.Basic
import ConfigTabs.Snippet.Format
/-!
The extension of a snippet file picks the format its content is written in.
-/
namespace ConfigTabs

def snippetExtensions : List String := ["toml", "yaml", "yml", "json"]

/-- The format of a snippet file, from its extension. -/
def sourceFormat (path : String) : Option Format :=
  match Path.extension? path with
  | some "toml" => some .toml
  | some "yaml" | some "yml" => some .yaml
  | some "json" => some .json
  | _ => none

end ConfigTabs
