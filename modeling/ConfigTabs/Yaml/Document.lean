import ConfigTabs.Yaml.Event
/-!
Loading the first document of a YAML stream as a flat list of node events, aliases numbered.
-/
namespace ConfigTabs.Yaml

/-- A node event of a loaded document. -/
inductive Item where
  | alias (id : Nat)
  | scalar (tag : Option String) (text : String) (style : ScalarStyle)
  | sequenceStart (tag : Option String)
  | sequenceEnd
  | mappingStart (tag : Option String)
  | mappingEnd
  /-- What an empty stream holds. -/
  | void
  deriving Repr, Inhabited

inductive LoadError where
  | malformed (e : SyntaxError)
  | unknownAnchor (mark : Mark)
  deriving Repr, Inhabited

structure Document where
  items : Array (Item × Mark) := #[]
  /-- For each anchor number, the index of the event it is placed on. -/
  anchors : List (Nat × Nat) := []
  error : Option LoadError := none
  deriving Repr, Inhabited

def setEntry {α : Type} [BEq α] (key : α) (v : Nat) : List (α × Nat) → List (α × Nat)
  | [] => [(key, v)]
  | (k, w) :: rest => if k == key then (k, v) :: rest else (k, w) :: setEntry key v rest

def lookupEntry {α : Type} [BEq α] (key : α) (xs : List (α × Nat)) : Option Nat :=
  (xs.find? (·.1 == key)).map (·.2)

namespace Document

def push (d : Document) (i : Item) (m : Mark) : Document := { d with items := d.items.push (i, m) }

def anchorIndex (d : Document) (id : Nat) : Nat := (lookupEntry id d.anchors).getD 0

end Document

/-- A document being loaded, with the anchor names met so far. -/
structure Loading where
  doc : Document := {}
  names : List (String × Nat) := []

namespace Loading

def place (l : Loading) (anchor : Option String) : Loading :=
  match anchor with
  | none => l
  | some a =>
    let id := l.names.length
    { names := setEntry a id l.names,
      doc := { l.doc with anchors := setEntry id l.doc.items.size l.doc.anchors } }

def add (l : Loading) (anchor : Option String) (i : Item) (m : Mark) : Loading :=
  let l := l.place anchor
  { l with doc := l.doc.push i m }

end Loading

def loadDocument (first : Bool) : Nat → Parser → Loading → Option Document × Option Parser
  | 0, _, l => (some l.doc, none)
  | fuel + 1, p, l =>
    match p.next with
    | .error e => (some { l.doc with error := some (.malformed e) }, some p)
    | .ok (none, _) => (if first then some l.doc else none, none)
    | .ok (some ev, p) =>
      match ev.kind with
      | .streamStart | .documentStart => loadDocument first fuel p l
      | .streamEnd =>
        if first then
          (some (if l.doc.items.isEmpty then l.doc.push .void ev.mark else l.doc), none)
        else (none, none)
      | .documentEnd => (some l.doc, some p)
      | .alias name =>
        match lookupEntry name l.names with
        | some id => loadDocument first fuel p (l.add none (.alias id) ev.mark)
        | none => (some { l.doc with error := some (.unknownAnchor ev.mark) }, some p)
      | .scalar anchor tag text style =>
        loadDocument first fuel p (l.add anchor (.scalar tag text style) ev.mark)
      | .sequenceStart anchor tag => loadDocument first fuel p (l.add anchor (.sequenceStart tag) ev.mark)
      | .sequenceEnd => loadDocument first fuel p (l.add none .sequenceEnd ev.mark)
      | .mappingStart anchor tag => loadDocument first fuel p (l.add anchor (.mappingStart tag) ev.mark)
      | .mappingEnd => loadDocument first fuel p (l.add none .mappingEnd ev.mark)

def firstUnprintable (text : String) : Option Nat :=
  let rec go : List Char → Nat → Option Nat
    | [], _ => none
    | c :: cs, offset => if isStreamChar c then go cs (offset + c.utf8Size) else some offset
  go text.toList 0

def eventBound (n : Nat) : Nat := 16 * (n + 8)

def loadFirst (text : String) : Document × Option Parser :=
  match firstUnprintable text with
  | some offset =>
    ({ error := some (.malformed { problem := "control characters are not allowed", offset }) }, none)
  | none =>
    let chars := match text.toList with
      | '\uFEFF' :: rest => rest
      | cs => cs
    let p : Parser := { scanner := { rest := chars } }
    match loadDocument true (eventBound chars.length) p {} with
    | (some d, p) => (d, p)
    | (none, p) => ({}, p)

def Parser.hasMoreDocuments (p : Parser) : Bool :=
  (loadDocument false (eventBound p.scanner.rest.length) p {}).1.isSome

end ConfigTabs.Yaml
