import ConfigTabs.Number.Binary64
import ConfigTabs.Toml.Datetime
/-!
The tree a TOML document is read into: ordered tables that remember how they came to be.
-/
namespace ConfigTabs.Toml

structure Span where
  start : Nat
  stop : Nat
  deriving DecidableEq, Repr, Inhabited

structure Key where
  name : String
  raw : String
  span : Span
  deriving DecidableEq, Repr, Inhabited

/-- A TOML value or table. -/
inductive Node where
  | string (s : String) (span : Span)
  | integer (i : Int) (span : Span)
  | float (x : Binary64) (span : Span)
  | boolean (b : Bool) (span : Span)
  | datetime (d : Datetime) (span : Span)
  | array (items : List Node) (span : Span)
  /-- A table written inline; `dotted` when a dotted key inside another inline table made it. -/
  | inlineTable (entries : List (Key × Node)) (dotted : Bool) (span : Option Span)
  /-- A table outside any value: the document, a header's table, or one made on the way. -/
  | table (entries : List (Key × Node)) (implicit dotted : Bool) (span : Option Span)
  /-- The tables of a repeated `[[header]]`, each a `table`. -/
  | tableArray (tables : List Node) (span : Option Span)
  deriving Repr, Inhabited

abbrev Entries := List (Key × Node)

namespace Node

def typeName : Node → String
  | .string .. => "string"
  | .integer .. => "integer"
  | .float .. => "float"
  | .boolean .. => "boolean"
  | .datetime .. => "datetime"
  | .array .. => "array"
  | .inlineTable .. => "inline table"
  | .table .. => "table"
  | .tableArray .. => "array of tables"

def span? : Node → Option Span
  | .string _ s | .integer _ s | .float _ s | .boolean _ s | .datetime _ s | .array _ s => some s
  | .inlineTable _ _ s | .table _ _ _ s | .tableArray _ s => s

end Node

namespace Entries

def find? (es : Entries) (name : String) : Option Node :=
  (List.find? (fun e => e.1.name == name) es).map (·.2)

def update (es : Entries) (name : String) (n : Node) : Entries :=
  es.map fun e => if e.1.name == name then (e.1, n) else e

def erase (es : Entries) (name : String) : Entries :=
  es.filter fun e => !(e.1.name == name)

end Entries

end ConfigTabs.Toml
