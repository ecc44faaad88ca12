import ConfigTabs.Number.Text
import ConfigTabs.Value.Basic
/-!
Writing toml: plain values first, then sub-tables under headers, each string in the first form
that can hold it.
-/
namespace ConfigTabs.Toml

/-- Why a value has no toml text. -/
inductive WriteError where
  /-- A null somewhere in the value. -/
  | unitValue
  /-- An integer above `2 ^ 63 - 1`. -/
  | outOfRange
  /-- The value is not a table. -/
  | notTable
  deriving DecidableEq, Repr

def WriteError.message : WriteError → String
  | .unitValue => "unsupported unit type"
  | .outOfRange => "out-of-range value for u64 type"
  | .notTable => "unsupported rust type"

mutual

def firstFault : Value → Option WriteError
  | .null => some .unitValue
  | .number (.nat n) => if Nat.pow 2 63 ≤ n then some .outOfRange else none
  | .array vs => firstFaultItems vs
  | .object fs => firstFaultFields fs
  | _ => none

def firstFaultItems : List Value → Option WriteError
  | [] => none
  | v :: vs => (firstFault v).or (firstFaultItems vs)

def firstFaultFields : List (String × Value) → Option WriteError
  | [] => none
  | (_, v) :: fs => (firstFault v).or (firstFaultFields fs)

end

/-- Counts of what a string holds, which decide how it is quoted. -/
structure StringShape where
  maxSingleQuotes : Nat := 0
  maxDoubleQuotes : Nat := 0
  /-- Control characters other than tab and line feed. -/
  escapeCodes : Bool := false
  /-- A backslash. -/
  backslash : Bool := false
  newline : Bool := false
  deriving Repr

private def shapeStep (acc : StringShape × Nat × Nat) (c : Char) : StringShape × Nat × Nat :=
  let (s, singles, doubles) := acc
  let singles := if c == '\'' then singles + 1 else 0
  let doubles := if c == '"' then doubles + 1 else 0
  let s := { s with maxSingleQuotes := max s.maxSingleQuotes singles,
                    maxDoubleQuotes := max s.maxDoubleQuotes doubles }
  let s :=
    if c == '\\' then { s with backslash := true }
    else if c == '\t' then s
    else if c == '\n' then { s with newline := true }
    else if c.toNat ≤ 0x1F || c.toNat == 0x7F then { s with escapeCodes := true }
    else s
  (s, singles, doubles)

def StringShape.of (s : String) : StringShape := (s.toList.foldl shapeStep ({}, 0, 0)).1

private def hexUpper (n : Nat) : Char :=
  if n < 10 then Char.ofNat ('0'.toNat + n) else Char.ofNat ('A'.toNat + n - 10)

def escapeBasic (multiline : Bool) : List Char → Nat → String
  | [], _ => ""
  | c :: cs, quotes =>
    if c == '"' then
      if multiline && quotes < 2 then "\"" ++ escapeBasic multiline cs (quotes + 1)
      else "\\\"" ++ escapeBasic multiline cs 0
    else
      let t := match c with
        | '\x08' => "\\b" | '\t' => "\\t" | '\x0c' => "\\f" | '\r' => "\\r" | '\\' => "\\\\"
        | '\n' => if multiline then "\n" else "\\n"
        | _ =>
          if c.toNat ≤ 0x1F || c.toNat == 0x7F then
            "\\u" ++ String.ofList ((List.range 4).reverse.map fun k => hexUpper ((c.toNat / Nat.pow 16 k) % 16))
          else String.singleton c
      t ++ escapeBasic multiline cs 0

def quoteString (s : String) : String :=
  let m := StringShape.of s
  let basic := "\"" ++ escapeBasic false s.toList 0 ++ "\""
  let mlBasic := "\"\"\"" ++ (if m.newline then "\n" else "") ++ escapeBasic true s.toList 0 ++ "\"\"\""
  if !(m.escapeCodes || m.backslash || 0 < m.maxDoubleQuotes || m.newline) then basic
  else if !(m.escapeCodes || 0 < m.maxSingleQuotes || m.newline) then "'" ++ s ++ "'"
  else if !(m.escapeCodes || m.backslash || 2 < m.maxDoubleQuotes) then mlBasic
  else if !(m.escapeCodes || 2 < m.maxSingleQuotes) then
    "'''" ++ (if m.newline then "\n" else "") ++ s ++ "'''"
  else if m.newline then mlBasic else basic

def isBareKeyChar (c : Char) : Bool :=
  ('A' ≤ c && c ≤ 'Z') || ('a' ≤ c && c ≤ 'z') || ('0' ≤ c && c ≤ '9') || c == '-' || c == '_'

def quoteKey (k : String) : String :=
  if !k.isEmpty && k.toList.all isBareKeyChar then k
  else
    let m := StringShape.of k
    let codes := m.escapeCodes || m.newline
    if !(codes || m.backslash || 0 < m.maxDoubleQuotes) then "\"" ++ escapeBasic false k.toList 0 ++ "\""
    else if !(codes || 0 < m.maxSingleQuotes) then "'" ++ k ++ "'"
    else "\"" ++ escapeBasic false k.toList 0 ++ "\""

def floatStyle : FloatStyle := { scientific := false }

def floatText (x : Binary64) : String :=
  match x.shape with
  | .nan => if x.negative then "-nan" else "nan"
  | .infinite => if x.negative then "-inf" else "inf"
  | .finite m _ =>
    if m = 0 then (if x.negative then "-0.0" else "0.0") else x.finiteText floatStyle

def numberText : Number → String
  | .nat n => toString n
  | .negInt i => toString i
  | .float x => floatText x

mutual

def inline : Value → String
  | .null => ""
  | .bool b => if b then "true" else "false"
  | .number n => numberText n
  | .string s => quoteString s
  | .array vs => "[" ++ inlineItems vs ++ "]"
  | .object [] => "\x7b\x7d"
  | .object (f :: fs) => "\x7b " ++ inlineFields (f :: fs) ++ " \x7d"

def inlineItems : List Value → String
  | [] => ""
  | [v] => inline v
  | v :: vs => inline v ++ ", " ++ inlineItems vs

def inlineFields : List (String × Value) → String
  | [] => ""
  | [(k, v)] => quoteKey k ++ " = " ++ inline v
  | (k, v) :: fs => quoteKey k ++ " = " ++ inline v ++ ", " ++ inlineFields fs

end

/-- How a field of a table is written. -/
inductive Placement where
  /-- A `key = value` line. -/
  | plain
  /-- A sub-table with its own header. -/
  | table (fields : List (String × Value))
  /-- An array of tables, one `[[key]]` header per element. -/
  | tables (elements : List (List (String × Value)))

private def objectFields? : Value → Option (List (String × Value))
  | .object fs => some fs
  | _ => none

def placement : Value → Placement
  | .object fs => .table fs
  | .array vs =>
    match vs.mapM objectFields? with
    | some (e :: es) => .tables (e :: es)
    | _ => .plain
  | _ => .plain

def valueLines (fields : List (String × Value)) : String :=
  fields.foldl (fun acc (k, v) =>
    match placement v with
    | .plain => acc ++ quoteKey k ++ " = " ++ inline v ++ "\n"
    | _ => acc) ""

private def hasPlain (fields : List (String × Value)) : Bool :=
  fields.any fun (_, v) => match placement v with
    | .plain => true
    | _ => false

def header (first : Bool) (path : List String) (double : Bool) : String :=
  (if first then "" else "\n") ++ (if double then "[[" else "[") ++
    ".".intercalate (path.map quoteKey) ++ (if double then "]]" else "]") ++ "\n"

def isTableArray (vs : List Value) : Bool :=
  !vs.isEmpty && vs.all fun v => match v with
    | .object _ => true
    | _ => false

mutual

def tableSection (path : List String) (isElement : Bool) (first : Bool)
    (fields : List (String × Value)) : String × Bool :=
  let body := valueLines fields
  let (head, first) :=
    if isElement then (header first path true, false)
    else if fields.isEmpty || hasPlain fields then (header first path false, false)
    else ("", first)
  let (rest, first) := subsections path first fields
  (head ++ body ++ rest, first)
termination_by 2 * sizeOf fields + 1

def subsections (path : List String) (first : Bool) :
    List (String × Value) → String × Bool
  | [] => ("", first)
  | (k, v) :: fs =>
    let (here, first) := match v with
      | .object sub => tableSection (path ++ [k]) false first sub
      | .array vs => if isTableArray vs then elements (path ++ [k]) first vs else ("", first)
      | _ => ("", first)
    let (rest, first) := subsections path first fs
    (here ++ rest, first)
termination_by fields => 2 * sizeOf fields

def elements (path : List String) (first : Bool) : List Value → String × Bool
  | [] => ("", first)
  | v :: vs =>
    let (here, first) := match v with
      | .object e => tableSection path true first e
      | _ => ("", first)
    let (rest, first) := elements path first vs
    (here ++ rest, first)
termination_by vs => 2 * sizeOf vs

end

/-- The toml text of a value. -/
def write (v : Value) : Except WriteError String :=
  match firstFault v with
  | some e => .error e
  | none =>
    match v with
    | .object fs =>
      let body := valueLines fs
      let (rest, _) := subsections [] (!hasPlain fs) fs
      .ok (body ++ rest)
    | _ => .error .notTable

end ConfigTabs.Toml
