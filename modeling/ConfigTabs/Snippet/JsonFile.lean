import ConfigTabs.Json.Reader
import ConfigTabs.Json.Writer
import ConfigTabs.Snippet.Schema
/-!
Reading a snippet file written in JSON, as a record or a list of its fields in order.
-/
namespace ConfigTabs.Json

/-- A failure while a record is read: placed already, or a shape error to be placed when the
record is closed. -/
inductive Fault where
  | located (e : Error)
  | shape (message : String) (at_ : Cursor)

def lift {α : Type} (r : Except Error α) : Except Fault α :=
  match r with
  | .ok a => .ok a
  | .error e => .error (.located e)

def describe (f : Shape.Found) : String := f.describe "null" fun x => x.finiteText floatStyle

def numberFound : Number → Shape.Found
  | .nat n => .unsigned n
  | .negInt i => .signed i
  | .float x => .float x

def wrongKind (c : Cursor) (expected : String) : Error :=
  let c := c.skipBlank
  let found (r : Except Error (Shape.Found × Cursor)) : Error :=
    match r with
    | .error e => e
    | .ok (f, d) => d.error (.schema (Shape.invalidType (describe f) expected))
  match c.rest with
  | [] => c.peekError .eofWhileParsingValue
  | 'n' :: _ => found ((readIdent c.bump ['u', 'l', 'l']).map fun d => (.unit, d))
  | 't' :: _ => found ((readIdent c.bump ['r', 'u', 'e']).map fun d => (.bool true, d))
  | 'f' :: _ => found ((readIdent c.bump ['a', 'l', 's', 'e']).map fun d => (.bool false, d))
  | '-' :: _ => found ((readNumber c.bump false).map fun (n, d) => (numberFound n, d))
  | '"' :: _ => found ((readStringBody c.bump []).map fun (s, d) => (.str s, d))
  | '[' :: _ => c.error (.schema (Shape.invalidType "sequence" expected))
  | '{' :: _ => c.error (.schema (Shape.invalidType "map" expected))
  | ch :: _ =>
    if '0' ≤ ch ∧ ch ≤ '9' then found ((readNumber c true).map fun (n, d) => (numberFound n, d))
    else c.peekError .expectedSomeValue

def readString (c : Cursor) : Except Error (String × Cursor) :=
  let c := c.skipBlank
  match c.rest with
  | [] => .error (c.peekError .eofWhileParsingValue)
  | '"' :: _ => readStringBody c.bump []
  | _ => .error (wrongKind c "a string")

def readBool (c : Cursor) : Except Error (Bool × Cursor) :=
  let c := c.skipBlank
  match c.rest with
  | [] => .error (c.peekError .eofWhileParsingValue)
  | 't' :: _ => (readIdent c.bump ['r', 'u', 'e']).map fun d => (true, d)
  | 'f' :: _ => (readIdent c.bump ['a', 'l', 's', 'e']).map fun d => (false, d)
  | _ => .error (wrongKind c "a boolean")

def readOptional {α : Type} (c : Cursor) (some_ : Cursor → Except Error (α × Cursor)) :
    Except Error (Option α × Cursor) :=
  let c := c.skipBlank
  match c.rest with
  | 'n' :: _ => (readIdent c.bump ['u', 'l', 'l']).map fun d => (none, d)
  | _ => (some_ c).map fun (a, d) => (some a, d)

def settleObject (f : Fault) : Error :=
  match f with
  | .located e => e
  | .shape m c =>
    let c := c.skipBlank
    let c := if c.rest.head? == some '}' then c.bump else c
    c.error (.schema m)

def settleArray (f : Fault) : Error :=
  match f with
  | .located e => e
  | .shape m c =>
    let c := c.skipBlank
    match c.rest with
    | ']' :: _ => c.bump.error (.schema m)
    | ',' :: _ => c.bump.skipBlank.error (.schema m)
    | _ => c.error (.schema m)

def readRecord {α : Type} (c : Cursor) (expected : String)
    (members : Cursor → Except Fault (α × Cursor)) (elements : Cursor → Except Fault (α × Cursor)) : Except Error (α × Cursor) :=
  let c := c.skipBlank
  match c.rest with
  | [] => .error (c.peekError .eofWhileParsingValue)
  | '{' :: _ => do
    let d ← enter c
    match members d with
    | .ok (a, d) =>
      let d ← endObject (leave d)
      return (a, d)
    | .error f => throw (settleObject (match f with
        | .shape m d => .shape m (leave d)
        | f => f))
  | '[' :: _ => do
    let d ← enter c
    match elements d with
    | .ok (a, d) =>
      let d ← endArray (leave d)
      return (a, d)
    | .error f => throw (settleArray (match f with
        | .shape m d => .shape m (leave d)
        | f => f))
  | _ => .error (wrongKind c expected)

def overrideMembers (c : Cursor) (first : Bool) (seen : List Format) (o : Overrides) :
    Nat → Except Fault (Overrides × Cursor)
  | 0 => .ok (o, c)
  | fuel + 1 => do
    let (more, c) ← lift (nextKey c first)
    if !more then return (o, c)
    let (key, c) ← lift (readKey c)
    match Format.ofName? key with
    | none => throw (.shape (Shape.unknownField key overrideKeys) c)
    | some f =>
      if seen.contains f then throw (.shape (Shape.duplicateField f.name) c)
      let c ← lift (readColon c)
      let (t, c) ← lift (readOptional c readString)
      let o := match t with
        | some t => o.set f t
        | none => o
      overrideMembers c false (f :: seen) o fuel

def overrideElements (c : Cursor) : Except Fault (Overrides × Cursor) := do
  let one (c : Cursor) (first : Bool) (i : Nat) : Except Fault ((Option String) × Cursor) := do
    let (more, c) ← lift (nextElement c first)
    if !more then throw (.shape (Shape.invalidLength i "struct Overrides with 3 elements") c)
    lift (readOptional c readString)
  let (y, c) ← one c true 0
  let (t, c) ← one c false 1
  let (j, c) ← one c false 2
  return ({ yaml := y, toml := t, json := j }, c)

def readOverrides (c : Cursor) : Except Error (Overrides × Cursor) :=
  readRecord c "struct Overrides" (fun d => overrideMembers d true [] {} (fuelFor d))
    overrideElements

def readField (c : Cursor) (d : SnippetDraft) : SnippetField → Except Error (SnippetDraft × Cursor)
  | .title => (readString c).map fun (t, c) => ({ d with title := some t }, c)
  | .data => (readOptional c fun c => readValue (fuelFor c) c).map fun (v, c) => ({ d with data := some v }, c)
  | .overrides => (readOverrides c).map fun (o, c) => ({ d with overrides := some o }, c)
  | .excerpt => (readBool c).map fun (b, c) => ({ d with excerpt := some b }, c)

def snippetMembers (c : Cursor) (first : Bool) (d : SnippetDraft) : Nat → Except Fault (SnippetDraft × Cursor)
  | 0 => .ok (d, c)
  | fuel + 1 => do
    let (more, c) ← lift (nextKey c first)
    if !more then return (d, c)
    let (key, c) ← lift (readKey c)
    match SnippetField.ofKey? key with
    | none => throw (.shape (Shape.unknownField key SnippetField.keys) c)
    | some f =>
      if d.has f then throw (.shape (Shape.duplicateField f.name) c)
      let c ← lift (readColon c)
      let (d, c) ← lift (readField c d f)
      snippetMembers c false d fuel

def snippetElements (c : Cursor) : Except Fault (SnippetDraft × Cursor) := do
  let fields := [SnippetField.title, .data, .overrides, .excerpt]
  go c true {} fields
where
  go (c : Cursor) (first : Bool) (d : SnippetDraft) : List SnippetField → Except Fault (SnippetDraft × Cursor)
    | [] => .ok (d, c)
    | f :: fs => do
      let (more, c) ← lift (nextElement c first)
      if !more then
        if f == .title then throw (.shape (Shape.invalidLength 0 "struct SnippetFile with 4 elements") c)
        else return (d, c)
      let (d, c) ← lift (readField c d f)
      go c false d fs

/-- Reads a whole snippet file; the message is the reader's, with its position. -/
def readSnippet (s : String) : Except String SnippetInput :=
  let c := Cursor.ofString s
  let r : Except Error (SnippetInput × Cursor) := do
    let members (d : Cursor) : Except Fault (SnippetInput × Cursor) := do
      let (draft, d) ← snippetMembers d true {} (fuelFor d)
      match draft.finish with
      | .ok i => return (i, d)
      | .error m => throw (.shape m d)
    let elements (d : Cursor) : Except Fault (SnippetInput × Cursor) := do
      let (draft, d) ← snippetElements d
      match draft.finish with
      | .ok i => return (i, d)
      | .error m => throw (.shape m d)
    let (i, c) ← readRecord c "struct SnippetFile" members elements
    finish c
    return (i, c)
  match r with
  | .ok (i, _) => .ok i
  | .error e => .error e.message

end ConfigTabs.Json
