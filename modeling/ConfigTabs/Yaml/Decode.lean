import ConfigTabs.Yaml.Document
import ConfigTabs.Yaml.Scalar
import ConfigTabs.Snippet.Schema
/-!
Reading typed data out of a loaded YAML document, with aliases followed and errors placed by
position and path.
-/
namespace ConfigTabs.Yaml

/-- Where a reader is in the tree of the document. -/
inductive Path where
  | root
  | index (parent : Path) (i : Nat)
  | key (parent : Path) (k : String)
  | alias (parent : Path)
  | unknown (parent : Path)
  deriving Repr, Inhabited

namespace Path

/-- The path as messages show it: keys joined by dots, indices in brackets, `.` alone for the
root and `?` for a key that is not a scalar. -/
def text : Path → String
  | .root => "."
  | .index p i => p.text ++ "[" ++ toString i ++ "]"
  | .key p k => prefixOf p ++ k
  | .alias p => p.text
  | .unknown p => prefixOf p ++ "?"
where
  prefixOf : Path → String
    | .root => ""
    | p => p.text ++ "."

end Path

/-- A failure to read a document. -/
inductive DecodeError where
  /-- A shape error, with its position and path once known. -/
  | message (text : String) (place : Option (Mark × String))
  | load (e : LoadError)
  | recursionLimit (mark : Mark)
  | repetitionLimit
  | endOfStream
  | moreThanOneDocument
  deriving Repr, Inhabited

namespace DecodeError

private def markSuffix (m : Mark) : String := if m.isStart then "" else " at " ++ m.text

def text : DecodeError → String
  | .message t none => t
  | .message t (some (m, path)) => (if path == "." then "" else path ++ ": ") ++ t ++ markSuffix m
  | .load (.malformed e) => e.message
  | .load (.unknownAnchor m) => "unknown anchor" ++ markSuffix m
  | .recursionLimit m => "recursion limit exceeded" ++ markSuffix m
  | .repetitionLimit => "repetition limit exceeded"
  | .endOfStream => "EOF while parsing a value"
  | .moreThanOneDocument => "deserializing from YAML containing more than one document is not supported"

def place (e : DecodeError) (m : Mark) (path : Path) : DecodeError :=
  match e with
  | .message t none => .message t (some (m, path.text))
  | e => e

end DecodeError

/-- How far a reader has got: the next event, and how many times aliases sent it back. -/
structure Reader where
  pos : Nat := 0
  jumps : Nat := 0
  deriving Repr, Inhabited

abbrev Decode (α : Type) := StateT Reader (Except DecodeError) α

def fail {α : Type} (text : String) : Decode α := throw (.message text none)

def liftText {α : Type} (r : Except String α) : Decode α :=
  match r with
  | .ok a => pure a
  | .error t => fail t

def placed {α : Type} (m : Mark) (path : Path) (d : Decode α) : Decode α := fun r =>
  (d r).mapError fun e => e.place m path

namespace Document

def shortfall (d : Document) : DecodeError :=
  match d.error with
  | some e => .load e
  | none => .endOfStream

def peek (d : Document) : Decode (Item × Mark) := fun r =>
  match d.items[r.pos]? with
  | some x => .ok (x, r)
  | none => .error d.shortfall

def next (d : Document) : Decode (Item × Mark) := fun r =>
  match d.items[r.pos]? with
  | some x => .ok (x, { r with pos := r.pos + 1 })
  | none => .error d.shortfall

def advance (_ : Document) : Decode Unit := modify fun r => { r with pos := r.pos + 1 }

def jump {α : Type} (d : Document) (id : Nat) (inner : Decode α) : Decode α := fun r =>
  let jumps := r.jumps + 1
  if jumps > d.items.size * 100 then .error .repetitionLimit
  else match inner { pos := d.anchorIndex id, jumps } with
    | .ok (a, r') => .ok (a, { pos := r.pos, jumps := r'.jumps })
    | .error e => .error e

end Document

/-! Scalars. -/

def boolTag : String := "tag:yaml.org,2002:bool"
def intTag : String := "tag:yaml.org,2002:int"
def floatTag : String := "tag:yaml.org,2002:float"
def nullTag : String := "tag:yaml.org,2002:null"

/-- What a scalar says. An integer is `unsigned` or `signed` when it fits 64 bits and `wide`
when it needs 128. -/
inductive Reading where
  | unit
  | bool (b : Bool)
  | unsigned (n : Nat)
  | signed (i : Int)
  | wide (i : Int)
  | float (x : Binary64)
  | str (s : String)
  deriving Repr

def intReading? (text : String) : Option Reading :=
  let cs := text.toList
  match unsignedInt? 64 cs with
  | some n => some (.unsigned n)
  | none => match negativeInt? 64 cs with
    | some i => some (.signed i)
    | none => match unsignedInt? 128 cs with
      | some n => some (.wide n)
      | none => (negativeInt? 128 cs).map .wide

def untagged (text : String) : Reading :=
  match resolve text with
  | .null => .unit
  | .bool b => .bool b
  | .int i true => if 0 ≤ i then .unsigned i.toNat else .signed i
  | .int i false => .wide i
  | .float x => .float x
  | .text => .str text

def isTaggedNull (text : String) : Bool := !text.isEmpty && isNullWord text

def mistyped (text expected : String) : String :=
  Shape.invalidValue ("string " ++ Text.debugQuote text) expected

def readScalar (tag : Option String) (text : String) (style : ScalarStyle) : Except String Reading :=
  match tag with
  | some t =>
    if t == boolTag then
      match boolWord? text with
      | some b => .ok (.bool b)
      | none => .error (mistyped text "a boolean")
    else if t == intTag then
      match intReading? text with
      | some r => .ok r
      | none => .error (mistyped text "an integer")
    else if t == floatTag then
      match float? text.toList with
      | some x => .ok (.float x)
      | none => .error (mistyped text "a float")
    else if t == nullTag then
      if isTaggedNull text then .ok .unit else .error (mistyped text "null")
    else if t.startsWith "!" && style == .plain then .ok (untagged text)
    else .ok (.str text)
  | none => if style == .plain then .ok (untagged text) else .ok (.str text)

def Reading.found : Reading → Shape.Found
  | .unit => .unit
  | .bool b => .bool b
  | .unsigned n => .unsigned n
  | .signed i => .signed i
  | .wide i => .other ("integer `" ++ toString i ++ "` as " ++ (if 0 ≤ i then "u128" else "i128"))
  | .float x => .float x
  | .str s => .str s

def describe (f : Shape.Found) : String := f.describe "unit value" Shape.plainFloat

def wrongType (f : Shape.Found) (expected : String) : String :=
  Shape.invalidType (describe f) expected

def mismatch (item : Item) (expected : String) : DecodeError :=
  match item with
  | .scalar tag text style =>
    match readScalar tag text style with
    | .ok r => .message (wrongType r.found expected) none
    | .error t => .message t none
  | .sequenceStart _ => .message (wrongType .seq expected) none
  | .mappingStart _ => .message (wrongType .map expected) none
  | _ => .endOfStream

def isVariantTag (tag : Option String) : Bool := tag.any (·.startsWith "!")

def Reading.value : Reading → Except String Value
  | .unit => .ok .null
  | .bool b => .ok (.bool b)
  | .unsigned n => .ok (.number (.nat n))
  | .signed i => .ok (.number (Number.ofInt i))
  | .wide _ => .error "JSON number out of range"
  | .float x => .ok (if x.isFinite then .number (.float x) else .null)
  | .str s => .ok (.string s)

def valuePath (path : Path) (key : Option String) : Path :=
  match key with
  | some k => .key path k
  | none => .unknown path

def scalarText? : Item → Option String
  | .scalar _ t _ => some t
  | _ => none

/-! Readers. Each takes fuel that bounds how deeply reads nest; `readFuel` is enough for any
document. -/

def readFuel (d : Document) : Nat := 256 * (d.items.size + 8)

def readStr {α : Type} (d : Document) (visit : String → Except String α) (expected : String) :
    Nat → Path → Decode α
  | 0, _ => throw .endOfStream
  | fuel + 1, path => do
    let (item, m) ← d.next
    placed m path <| match item with
      | .scalar _ text _ => liftText (visit text)
      | .alias id => d.jump id (readStr d visit expected fuel (.alias path))
      | other => throw (mismatch other expected)

def readBool (d : Document) : Nat → Path → Decode Bool
  | 0, _ => throw .endOfStream
  | fuel + 1, path => do
    let (item, m) ← d.next
    placed m path <| match item with
      | .scalar tag text style =>
        match readScalar tag text style with
        | .ok (.bool b) => pure b
        | .ok r => fail (wrongType r.found "a boolean")
        | .error t => fail t
      | .alias id => d.jump id (readBool d fuel (.alias path))
      | other => throw (mismatch other "a boolean")

def readOption {α : Type} (d : Document) (inner : Path → Decode α) : Nat → Path → Decode (Option α)
  | 0, _ => throw .endOfStream
  | fuel + 1, path => do
    let (item, _) ← d.peek
    match item with
    | .alias id =>
      d.advance
      d.jump id (readOption d inner fuel (.alias path))
    | .scalar tag text style =>
      if style != .plain then some <$> inner path
      else match tag with
        | some t =>
          if t == nullTag then
            if isTaggedNull text then do d.advance; pure none
            else fail (mistyped text "null")
          else some <$> inner path
        | none =>
          if isNullWord text then do d.advance; pure none
          else some <$> inner path
    | .void => do d.advance; pure none
    | _ => some <$> inner path

mutual

def readValue (d : Document) : Nat → Path → Nat → Decode Value
  | 0, _, _ => throw .endOfStream
  | fuel + 1, path, depth => do
    let (item, m) ← d.next
    placed m path <| match item with
      | .alias id => d.jump id (readValue d fuel (.alias path) depth)
      | .scalar tag text style =>
        if isVariantTag tag then fail (wrongType .enumValue "any valid JSON value")
        else liftText (readScalar tag text style >>= Reading.value)
      | .sequenceStart tag =>
        if isVariantTag tag then fail (wrongType .enumValue "any valid JSON value")
        else if depth == 0 then throw (.recursionLimit m)
        else do
          let items ← readItems d fuel path (depth - 1) 0 []
          let _ ← d.next
          pure (.array items)
      | .mappingStart tag =>
        if isVariantTag tag then fail (wrongType .enumValue "any valid JSON value")
        else if depth == 0 then throw (.recursionLimit m)
        else do
          let fields ← readFields d fuel path (depth - 1) true []
          let _ ← d.next
          pure (.object fields)
      | .void => pure .null
      | _ => throw .endOfStream

def readItems (d : Document) : Nat → Path → Nat → Nat → List Value → Decode (List Value)
  | 0, _, _, _, _ => throw .endOfStream
  | fuel + 1, path, depth, i, acc => do
    let (item, _) ← d.peek
    match item with
    | .sequenceEnd | .void => pure acc.reverse
    | _ =>
      let v ← readValue d fuel (.index path i) depth
      readItems d fuel path depth (i + 1) (v :: acc)

def readFields (d : Document) : Nat → Path → Nat → Bool → List (String × Value) →
    Decode (List (String × Value))
  | 0, _, _, _, _ => throw .endOfStream
  | fuel + 1, path, depth, first, acc => do
    let (item, _) ← d.peek
    match item with
    | .mappingEnd | .void => pure acc
    | _ =>
      let k ← readStr d .ok (if first then "a string key" else "a string") fuel path
      let v ← readValue d fuel (valuePath path (scalarText? item)) depth
      readFields d fuel path depth false (Value.setField acc k v)

end

def readEntries {α κ : Type} (d : Document) (keyOf : String → Except String κ)
    (field : κ → α → Path → Nat → Nat → Decode α) (fuel : Nat) (path : Path) (depth : Nat) :
    Nat → α → Decode α
  | 0, a => pure a
  | count + 1, a => do
    let (item, _) ← d.peek
    match item with
    | .mappingEnd | .void => pure a
    | _ =>
      let k ← readStr d keyOf "field identifier" fuel path
      let a ← field k a (valuePath path (scalarText? item)) depth fuel
      readEntries d keyOf field fuel path depth count a

def readRecord {α β κ : Type} (d : Document) (expected : String) (keyOf : String → Except String κ)
    (init : α) (field : κ → α → Path → Nat → Nat → Decode α) (finish : α → Except String β) :
    Nat → Path → Nat → Decode β
  | 0, _, _ => throw .endOfStream
  | fuel + 1, path, depth => do
    let (item, m) ← d.next
    placed m path <| match item with
      | .alias id => d.jump id (readRecord d expected keyOf init field finish fuel (.alias path) depth)
      | .mappingStart _ =>
        if depth == 0 then throw (.recursionLimit m)
        else do
          let a ← readEntries d keyOf field fuel path (depth - 1) d.items.size init
          let b ← liftText (finish a)
          let _ ← d.next
          pure b
      | .void => liftText (finish init)
      | .scalar _ text style =>
        if text.isEmpty && style == .plain then liftText (finish init)
        else throw (mismatch item expected)
      | other => throw (mismatch other expected)

def decodeFirst {α : Type} (text : String) (read : Document → Decode α) : Except DecodeError α :=
  let (doc, parser) := loadFirst text
  match read doc {} with
  | .error e => .error e
  | .ok (a, _) =>
    match doc.error with
    | some e => .error (.load e)
    | none =>
      match parser with
      | some p => if p.hasMoreDocuments then .error .moreThanOneDocument else .ok a
      | none => .ok a

end ConfigTabs.Yaml
