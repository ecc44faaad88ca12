import ConfigTabs.Snippet.Input
import ConfigTabs.Number.Text
import ConfigTabs.Text.Debug
import ConfigTabs.Toml.Node
/-!
The shape of a snippet file shared by its three formats: its fields, the draft that collects
them, and the wording of shape errors.
-/
namespace ConfigTabs

/-- The fields of a snippet file. -/
inductive SnippetField where
  | title
  | data
  | overrides
  | excerpt
  deriving DecidableEq, Repr

namespace SnippetField

def keys : List String := ["title", "data", "overrides", "excerpt", "predots"]

def ofKey? : String → Option SnippetField
  | "title" => some .title
  | "data" => some .data
  | "overrides" => some .overrides
  | "excerpt" | "predots" => some .excerpt
  | _ => none

def name : SnippetField → String
  | .title => "title"
  | .data => "data"
  | .overrides => "overrides"
  | .excerpt => "excerpt"

def index : SnippetField → Nat
  | .title => 0
  | .data => 1
  | .overrides => 2
  | .excerpt => 3

end SnippetField

def overrideKeys : List String := ["yaml", "toml", "json"]

namespace Shape

private def tick (s : String) : String := "`" ++ s ++ "`"

def oneOf : List String → String
  | [] => "nothing"
  | [a] => tick a
  | [a, b] => tick a ++ " or " ++ tick b
  | names => "one of " ++ ", ".intercalate (names.map tick)

def unknownField (key : String) (expected : List String) : String :=
  if expected.isEmpty then "unknown field " ++ tick key ++ ", there are no fields"
  else "unknown field " ++ tick key ++ ", expected " ++ oneOf expected

def unknownVariant (key : String) (expected : List String) : String :=
  if expected.isEmpty then "unknown variant " ++ tick key ++ ", there are no variants"
  else "unknown variant " ++ tick key ++ ", expected " ++ oneOf expected

def duplicateField (name : String) : String := "duplicate field " ++ tick name

def missingField (name : String) : String := "missing field " ++ tick name

def invalidType (unexpected expected : String) : String :=
  "invalid type: " ++ unexpected ++ ", expected " ++ expected

def invalidValue (unexpected expected : String) : String :=
  "invalid value: " ++ unexpected ++ ", expected " ++ expected

def invalidLength (n : Nat) (expected : String) : String :=
  "invalid length " ++ toString n ++ ", expected " ++ expected

def floatStyle : FloatStyle := { scientific := false }

/-- What was found, as shape errors name it. -/
inductive Found where
  | bool (b : Bool)
  | unsigned (n : Nat)
  | signed (i : Int)
  | float (x : Binary64)
  | str (s : String)
  | unit
  | seq
  | map
  | enumValue
  /-- Anything else, already in words. -/
  | other (text : String)

def Found.describe (unitWord : String) (floatText : Binary64 → String) : Found → String
  | .bool b => "boolean " ++ tick (if b then "true" else "false")
  | .unsigned n => "integer " ++ tick (toString n)
  | .signed i => "integer " ++ tick (toString i)
  | .float x => "floating point " ++ tick (floatText x)
  | .str s => "string " ++ Text.debugQuote s
  | .unit => unitWord
  | .seq => "sequence"
  | .map => "map"
  | .enumValue => "enum"
  | .other text => text

def plainFloat (x : Binary64) : String :=
  match x.shape with
  | .nan => "NaN"
  | .infinite => if x.negative then "-inf" else "inf"
  | .finite _ _ => x.finiteText floatStyle

end Shape

def describeNode : Toml.Node → String
  | .string s _ => "string " ++ Text.debugQuote s
  | .integer i _ => "integer `" ++ toString i ++ "`"
  | .float x _ => "floating point `" ++ Shape.plainFloat x ++ "`"
  | .boolean b _ => "boolean `" ++ (if b then "true" else "false") ++ "`"
  | .array .. | .tableArray .. => "sequence"
  | .datetime .. | .inlineTable .. | .table .. => "map"

def datetimeKey : String := "$__toml_private_datetime"

/-- The fields of a snippet file read so far; a field read twice is an error. -/
structure SnippetDraft where
  title : Option String := none
  data : Option (Option Value) := none
  overrides : Option Overrides := none
  excerpt : Option Bool := none

namespace SnippetDraft

def has (d : SnippetDraft) : SnippetField → Bool
  | .title => d.title.isSome
  | .data => d.data.isSome
  | .overrides => d.overrides.isSome
  | .excerpt => d.excerpt.isSome

def finish (d : SnippetDraft) : Except String SnippetInput :=
  match d.title with
  | none => .error (Shape.missingField "title")
  | some t =>
    .ok { titleTemplate := t, value := d.data.getD none, overrides := d.overrides.getD {},
          excerpt := d.excerpt.getD false }

end SnippetDraft

structure OverridesDraft where
  seen : List Format := []
  overrides : Overrides := {}

end ConfigTabs
