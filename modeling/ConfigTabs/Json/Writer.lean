import ConfigTabs.Number.Text
import ConfigTabs.Value.Basic
/-!
Writing JSON text indented by two spaces per level, with doubles in their shortest form.
-/
namespace ConfigTabs.Json

def floatStyle : FloatStyle := { scientific := true, exponentPlus := true }

def hexDigitLower (n : Nat) : Char :=
  if n < 10 then Char.ofNat ('0'.toNat + n) else Char.ofNat ('a'.toNat + n - 10)

def escapeChar (c : Char) : String :=
  match c with
  | '"' => "\\\""
  | '\\' => "\\\\"
  | '\n' => "\\n"
  | '\r' => "\\r"
  | '\t' => "\\t"
  | '\x08' => "\\b"
  | '\x0c' => "\\f"
  | _ =>
    if c.toNat < 0x20 then
      "\\u00" ++ String.singleton (hexDigitLower (c.toNat / 16)) ++
        String.singleton (hexDigitLower (c.toNat % 16))
    else String.singleton c

/-- A string in double quotes with its special characters escaped. -/
def quote (s : String) : String :=
  "\"" ++ s.toList.foldl (fun acc c => acc ++ escapeChar c) "" ++ "\""

def numberText : Number → String
  | .nat n => toString n
  | .negInt i => toString i
  | .float x => if x.isFinite then x.finiteText floatStyle else "null"

def pad (n : Nat) : String := String.ofList (List.replicate (2 * n) ' ')

mutual

def pretty (level : Nat) : Value → String
  | .null => "null"
  | .bool b => if b then "true" else "false"
  | .number n => numberText n
  | .string s => quote s
  | .array [] => "[]"
  | .array (v :: vs) => "[\n" ++ prettyItems (level + 1) (v :: vs) ++ "\n" ++ pad level ++ "]"
  | .object [] => "\x7b\x7d"
  | .object (f :: fs) => "\x7b\n" ++ prettyFields (level + 1) (f :: fs) ++ "\n" ++ pad level ++ "\x7d"

def prettyItems (level : Nat) : List Value → String
  | [] => ""
  | [v] => pad level ++ pretty level v
  | v :: vs => pad level ++ pretty level v ++ ",\n" ++ prettyItems level vs

def prettyFields (level : Nat) : List (String × Value) → String
  | [] => ""
  | [(k, v)] => pad level ++ quote k ++ ": " ++ pretty level v
  | (k, v) :: fs => pad level ++ quote k ++ ": " ++ pretty level v ++ ",\n" ++ prettyFields level fs

end

/-- The whole text of a value, without a final newline. -/
def write (v : Value) : String := pretty 0 v

mutual

def compact : Value → String
  | .null => "null"
  | .bool b => if b then "true" else "false"
  | .number n => numberText n
  | .string s => quote s
  | .array vs => "[" ++ compactItems vs ++ "]"
  | .object fs => "\x7b" ++ compactFields fs ++ "\x7d"

def compactItems : List Value → String
  | [] => ""
  | [v] => compact v
  | v :: vs => compact v ++ "," ++ compactItems vs

def compactFields : List (String × Value) → String
  | [] => ""
  | [(k, v)] => quote k ++ ":" ++ compact v
  | (k, v) :: fs => quote k ++ ":" ++ compact v ++ "," ++ compactFields fs

end

end ConfigTabs.Json
