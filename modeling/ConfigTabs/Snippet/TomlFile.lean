import ConfigTabs.Toml.Document
import ConfigTabs.Snippet.Schema
/-!
Reading a snippet file written in TOML, with every date and time turned into a string of its
text.
-/
namespace ConfigTabs.Toml

/-! Dates and times given as text. -/

def twoDigits? : List Char → Option (Nat × List Char)
  | a :: b :: rest => if isDigitChar a && isDigitChar b then some (digitsValue 10 [a, b], rest) else none
  | _ => none

def afterChar? (c : Char) : List Char → Option (List Char)
  | d :: rest => if d == c then some rest else none
  | [] => none

def dateOfText? (cs : List Char) : Option (Date × List Char) := do
  let (high, cs) ← twoDigits? cs
  let (low, cs) ← twoDigits? cs
  let cs ← afterChar? '-' cs
  let (m, cs) ← twoDigits? cs
  let cs ← afterChar? '-' cs
  let (d, cs) ← twoDigits? cs
  let y := 100 * high + low
  if m < 1 ∨ 12 < m ∨ d < 1 ∨ daysInMonth y m < d then none
  else some ({ year := y, month := m, day := d }, cs)

def timeOfText? (cs : List Char) : Option (Time × List Char) := do
  let (h, cs) ← twoDigits? cs
  let cs ← afterChar? ':' cs
  let (m, cs) ← twoDigits? cs
  let cs ← afterChar? ':' cs
  let (sec, cs) ← twoDigits? cs
  let (ns, cs) ← match cs with
    | '.' :: rest =>
      let ds := rest.takeWhile isDigitChar
      if ds.isEmpty then none else some (nanos ds, rest.drop ds.length)
    | _ => some (0, cs)
  if 24 < h ∨ 59 < m ∨ 60 < sec then none
  else some ({ hour := h, minute := m, second := sec, nanosecond := ns }, cs)

def offsetOfText? : List Char → Option (Option Offset × List Char)
  | [] => some (none, [])
  | c :: rest =>
    if c == 'Z' || c == 'z' then some (some .utc, rest)
    else if c == '+' || c == '-' then do
      let (h, rest) ← twoDigits? rest
      let rest ← afterChar? ':' rest
      let (m, rest) ← twoDigits? rest
      let total : Int := if c == '-' then -((60 * h + m : Nat) : Int) else ((60 * h + m : Nat) : Int)
      if 24 * 60 < total.natAbs then none else some (some (.minutes total), rest)
    else none

def Datetime.ofText? (text : String) : Option Datetime :=
  let cs := text.toList
  if (cs.drop 2).head? == some ':' then do
    let (t, rest) ← timeOfText? cs
    if rest.isEmpty then some { time := some t } else none
  else do
    let (d, rest) ← dateOfText? cs
    match rest with
    | [] => some { date := some d }
    | c :: rest =>
      if c == 'T' || c == 't' || c == ' ' then do
        let (t, rest) ← timeOfText? rest
        let (o, rest) ← offsetOfText? rest
        if rest.isEmpty then some { date := some d, time := some t, offset := o } else none
      else none

/-! The table the TOML library hands over. -/

def markedDatetime (k : Key) (v : Node) : Except TomlError Node :=
  match v with
  | .string s sp =>
    match Datetime.ofText? s with
    | some d => .ok (.datetime d sp)
    | none => .error { message := "failed to parse datetime", span := some sp }
  | other =>
    .error { message := Shape.invalidType (describeNode other) "string containing a datetime",
             span := other.span? <|> some k.span }

mutual

/-- A value as the TOML library reads it: a table whose first key is `datetimeKey` is the date
and time its value writes, and the rest of it is not looked at; anything else is read part by
part, in order. -/
def readValue : Node → Except TomlError Node
  | .array items sp => (readValues items).map (.array · sp)
  | .tableArray ts sp => (readValues ts).map (.tableArray · sp)
  | .inlineTable es dotted sp =>
    match es with
    | (k, v) :: _ => if k.name == datetimeKey then markedDatetime k v
      else (readEntries es).map (.inlineTable · dotted sp)
    | [] => .ok (.inlineTable [] dotted sp)
  | .table es implicit dotted sp =>
    match es with
    | (k, v) :: _ => if k.name == datetimeKey then markedDatetime k v
      else (readEntries es).map (.table · implicit dotted sp)
    | [] => .ok (.table [] implicit dotted sp)
  | n => .ok n

def readValues : List Node → Except TomlError (List Node)
  | [] => .ok []
  | n :: ns => do
    let n ← readValue n
    let ns ← readValues ns
    pure (n :: ns)

def readEntries : Entries → Except TomlError Entries
  | [] => .ok []
  | (k, n) :: es => do
    let n ← readValue n
    let es ← readEntries es
    pure ((k, n) :: es)

end

mutual

def datetimesAsText : Node → Node
  | .datetime d sp => .string d.text sp
  | .array items sp => .array (datetimesAsTextItems items) sp
  | .tableArray ts sp => .tableArray (datetimesAsTextItems ts) sp
  | .inlineTable es dotted sp => .inlineTable (datetimesAsTextEntries es) dotted sp
  | .table es implicit dotted sp => .table (datetimesAsTextEntries es) implicit dotted sp
  | n => n

def datetimesAsTextItems : List Node → List Node
  | [] => []
  | n :: ns => datetimesAsText n :: datetimesAsTextItems ns

def datetimesAsTextEntries : Entries → Entries
  | [] => []
  | (k, n) :: es => (k, datetimesAsText n) :: datetimesAsTextEntries es

end

def insertSorted (k : String) (v : Value) : List (String × Value) → List (String × Value)
  | [] => [(k, v)]
  | (k', v') :: rest =>
    if k < k' then (k, v) :: (k', v') :: rest else (k', v') :: insertSorted k v rest

mutual

/-- A node as a plain value: tables become objects with sorted keys, dates and times their
text. -/
def plain : Node → Value
  | .string s _ => .string s
  | .integer i _ => .number (Number.ofInt i)
  | .float x _ => .number (.float x)
  | .boolean b _ => .bool b
  | .datetime d _ => .string d.text
  | .array items _ => .array (plainItems items)
  | .inlineTable es _ _ => .object (plainEntries es)
  | .table es _ _ _ => .object (plainEntries es)
  | .tableArray ts _ => .array (plainItems ts)

def plainItems : List Node → List Value
  | [] => []
  | n :: ns => plain n :: plainItems ns

def plainEntries : Entries → List (String × Value)
  | [] => []
  | (k, n) :: es => insertSorted k.name (plain n) (plainEntries es)

end

mutual

def finiteOnly : Value → Value
  | .number (.float x) => if x.isFinite then .number (.float x) else .null
  | .array items => .array (finiteItems items)
  | .object fields => .object (finiteFields fields)
  | v => v

def finiteItems : List Value → List Value
  | [] => []
  | v :: vs => finiteOnly v :: finiteItems vs

def finiteFields : List (String × Value) → List (String × Value)
  | [] => []
  | (k, v) :: fs => (k, finiteOnly v) :: finiteFields fs

end

/-- What a value is, as shape errors name it. -/
def found : Value → Shape.Found
  | .null => .unit
  | .bool b => .bool b
  | .number (.nat n) => .unsigned n
  | .number (.negInt i) => .signed i
  | .number (.float x) => .float x
  | .string s => .str s
  | .array _ => .seq
  | .object _ => .map

def wrongType (v : Value) (expected : String) : TomlError :=
  { message := Shape.invalidType ((found v).describe "unit value" Shape.plainFloat) expected }

def underKey {α : Type} (k : String) (r : Except TomlError α) : Except TomlError α :=
  r.mapError fun e => { e with keys := k :: e.keys }

def expectString : Value → Except TomlError String
  | .string s => .ok s
  | v => .error (wrongType v "a string")

def expectBool : Value → Except TomlError Bool
  | .bool b => .ok b
  | v => .error (wrongType v "a boolean")

def overrideFields : List (String × Value) → OverridesDraft → Except TomlError Overrides
  | [], d => .ok d.overrides
  | (k, v) :: rest, d =>
    match Format.ofName? k with
    | none => .error { message := Shape.unknownField k overrideKeys }
    | some f =>
      if d.seen.contains f then .error { message := Shape.duplicateField f.name }
      else do
        let t ← underKey k (expectString v)
        overrideFields rest { seen := f :: d.seen, overrides := d.overrides.set f t }

def overrideItems (items : List Value) : Except TomlError Overrides := do
  let at_ (i : Nat) : Except TomlError String :=
    match items.drop i with
    | v :: _ => expectString v
    | [] => .error { message := Shape.invalidLength i "struct Overrides with 3 elements" }
  let y ← at_ 0
  let t ← at_ 1
  let j ← at_ 2
  if 3 < items.length then
    .error { message := Shape.invalidLength items.length "fewer elements in array" }
  else .ok { yaml := some y, toml := some t, json := some j }

def readOverrides : Value → Except TomlError Overrides
  | .object fields => overrideFields fields {}
  | .array items => overrideItems items
  | v => .error (wrongType v "struct Overrides")

def snippetFields : List (String × Value) → SnippetDraft → Except TomlError SnippetDraft
  | [], d => .ok d
  | (k, v) :: rest, d =>
    match SnippetField.ofKey? k with
    | none => .error { message := Shape.unknownField k SnippetField.keys }
    | some f =>
      if d.has f then .error { message := Shape.duplicateField f.name }
      else do
        let d ← underKey k <| match f with
          | .title => (expectString v).map fun t => { d with title := some t }
          | .data => .ok { d with data := some (some (finiteOnly v)) }
          | .overrides => (readOverrides v).map fun o => { d with overrides := some o }
          | .excerpt => (expectBool v).map fun b => { d with excerpt := some b }
        snippetFields rest d

/-- Reads a whole snippet file; the message is the text of the error. -/
def readSnippet (text : String) : Except String SnippetInput :=
  let r : Except TomlError SnippetInput := do
    let document ← parseDocument text
    let table ← readEntries document
    let d ← snippetFields (plainEntries (datetimesAsTextEntries table)) {}
    d.finish.mapError fun m => { message := m }
  r.mapError fun e => e.render text

end ConfigTabs.Toml
