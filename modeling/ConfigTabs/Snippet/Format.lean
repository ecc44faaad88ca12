/-!
The three formats a snippet is shown in, in tab order: yaml, toml, json.
-/
namespace ConfigTabs

/-- A format of the rendered tabs. -/
inductive Format where
  | yaml
  | toml
  | json
  deriving DecidableEq, Repr, Inhabited

namespace Format

def all : List Format := [.yaml, .toml, .json]

def name : Format → String
  | .yaml => "yaml"
  | .toml => "toml"
  | .json => "json"

def ofName? : String → Option Format
  | "yaml" => some .yaml
  | "toml" => some .toml
  | "json" => some .json
  | _ => none

instance : ToString Format := ⟨name⟩

theorem ofName?_name (f : Format) : ofName? f.name = some f := by
  cases f <;> rfl

end Format

end ConfigTabs
