import ConfigTabs.Yaml.Token
/-!
The YAML parser: it turns tokens into events, one at a time.
-/
namespace ConfigTabs.Yaml

inductive EventKind where
  | streamStart
  | streamEnd
  | documentStart
  | documentEnd
  | alias (name : String)
  | scalar (anchor tag : Option String) (text : String) (style : ScalarStyle)
  | sequenceStart (anchor tag : Option String)
  | sequenceEnd
  | mappingStart (anchor tag : Option String)
  | mappingEnd
  deriving Repr, Inhabited

structure Event where
  kind : EventKind
  /-- Where the event's node or marker starts. -/
  mark : Mark
  deriving Repr, Inhabited

inductive ParseState where
  | streamStart
  | implicitDocumentStart
  | documentStart
  | documentContent
  | documentEnd
  | blockNode
  | blockNodeOrIndentlessSequence
  | flowNode
  | blockSequenceFirstEntry
  | blockSequenceEntry
  | indentlessSequenceEntry
  | blockMappingFirstKey
  | blockMappingKey
  | blockMappingValue
  | flowSequenceFirstEntry
  | flowSequenceEntry
  | flowSequenceEntryMappingKey
  | flowSequenceEntryMappingValue
  | flowSequenceEntryMappingEnd
  | flowMappingFirstKey
  | flowMappingKey
  | flowMappingValue
  | flowMappingEmptyValue
  | finished
  deriving DecidableEq, Repr, Inhabited

structure Parser where
  scanner : Scanner
  state : ParseState := .streamStart
  states : List ParseState := []
  marks : List Mark := []
  tagDirectives : List (String × String) := []
  deriving Repr, Inhabited

/-- The standard tag handles. -/
def defaultTagDirectives : List (String × String) := [("!", "!"), ("!!", "tag:yaml.org,2002:")]

namespace Parser

def peek (p : Parser) : Except SyntaxError (Token × Parser) := do
  let (t, s) ← p.scanner.peekToken
  pure (t, { p with scanner := s })

def skip (p : Parser) : Parser := { p with scanner := p.scanner.skipToken }

def pop (p : Parser) : Parser :=
  { p with state := p.states.headD .finished, states := p.states.drop 1 }

def push (p : Parser) (st : ParseState) : Parser := { p with states := st :: p.states }

def popMark (p : Parser) : Mark × Parser := (p.marks.headD {}, { p with marks := p.marks.drop 1 })

def errorWithContext (context : String) (contextMark : Mark) (problem : String) (problemMark : Mark) : SyntaxError :=
  { problem, problemMark, context := some context, contextMark }

def emptyScalar (mark : Mark) : Event := { kind := .scalar none none "" .plain, mark }

/-- Reads the directives before a document; the standard handles are added unless redefined. -/
def processDirectives (p : Parser) : Except SyntaxError Parser :=
  let rec go : Nat → Parser → Bool → List (String × String) → Except SyntaxError (Parser × List (String × String))
    | 0, p, _, tags => .ok (p, tags)
    | fuel + 1, p, seenVersion, tags => do
      let (t, p) ← p.peek
      match t.kind with
      | .versionDirective major minor =>
        if seenVersion then throw { problem := "found duplicate %YAML directive", problemMark := t.start }
        if major != 1 || (minor != 1 && minor != 2) then
          throw { problem := "found incompatible YAML document", problemMark := t.start }
        go fuel p.skip true tags
      | .tagDirective handle pre =>
        if tags.any (·.1 == handle) then
          throw { problem := "found duplicate %TAG directive", problemMark := t.start }
        go fuel p.skip seenVersion (tags ++ [(handle, pre)])
      | _ => .ok (p, tags)
  do
    let (p, tags) ← go (p.scanner.rest.length + 2) p false []
    let tags := defaultTagDirectives.foldl (fun acc d => if acc.any (·.1 == d.1) then acc else acc ++ [d]) tags
    pure { p with tagDirectives := tags }

def parseDocumentStart (p : Parser) (implicit : Bool) : Except SyntaxError (Event × Parser) := do
  let (t, p) ← p.peek
  let rec skipEnds : Nat → Token → Parser → Except SyntaxError (Token × Parser)
    | 0, t, p => .ok (t, p)
    | fuel + 1, t, p =>
      if t.kind == .documentEnd then do
        let (t, p) ← p.skip.peek
        skipEnds fuel t p
      else .ok (t, p)
  let (t, p) ← if implicit then pure (t, p) else skipEnds (p.scanner.rest.length + 2) t p
  let isDirective := match t.kind with
    | .versionDirective .. | .tagDirective .. => true
    | _ => false
  if implicit && !isDirective && t.kind != .documentStart && t.kind != .streamEnd then do
    let p ← p.processDirectives
    let p := { p.push .documentEnd with state := .blockNode }
    pure ({ kind := .documentStart, mark := t.start }, p)
  else if t.kind != .streamEnd then do
    let start := t.start
    let p ← p.processDirectives
    let (t, p) ← p.peek
    if t.kind != .documentStart then
      throw { problem := "did not find expected <document start>", problemMark := t.start }
    let p := { p.push .documentEnd with state := .documentContent }
    pure ({ kind := .documentStart, mark := start }, p.skip)
  else
    pure ({ kind := .streamEnd, mark := t.start }, { p.skip with state := .finished })

def parseDocumentEnd (p : Parser) : Except SyntaxError (Event × Parser) := do
  let (t, p) ← p.peek
  let p := if t.kind == .documentEnd then p.skip else p
  pure ({ kind := .documentEnd, mark := t.start }, { p with state := .documentStart, tagDirectives := [] })

def parseNode (p : Parser) (block indentless : Bool) : Except SyntaxError (Event × Parser) := do
  let (t, p) ← p.peek
  match t.kind with
  | .alias name => pure ({ kind := .alias name, mark := t.start }, p.skip.pop)
  | _ =>
    let start := t.start
    let (anchor, tagParts, t, p) ← match t.kind with
      | .anchor a => do
        let (t2, p) ← p.skip.peek
        match t2.kind with
        | .tag h s => do
          let (t3, p) ← p.skip.peek
          pure (some a, some (h, s, t2.start), t3, p)
        | _ => pure (some a, none, t2, p)
      | .tag h s => do
        let (t2, p) ← p.skip.peek
        match t2.kind with
        | .anchor a => do
          let (t3, p) ← p.skip.peek
          pure (some a, some (h, s, t.start), t3, p)
        | _ => pure (none, some (h, s, t.start), t2, p)
      | _ => pure (none, none, t, p)
    let tag ← match tagParts with
      | none => pure none
      | some (h, s, tagMark) =>
        if h.isEmpty then pure (some s)
        else match p.tagDirectives.find? (·.1 == h) with
          | some (_, pre) => pure (some (pre ++ s))
          | none => throw (errorWithContext "while parsing a node" start "found undefined tag handle" tagMark)
    let withProps := anchor.isSome || tag.isSome
    match t.kind with
    | .blockEntry =>
      if indentless then
        pure ({ kind := .sequenceStart anchor tag, mark := start }, { p with state := .indentlessSequenceEntry })
      else if withProps then
        pure ({ kind := .scalar anchor tag "" .plain, mark := start }, p.pop)
      else throw (errorWithContext (if block then "while parsing a block node" else "while parsing a flow node")
        start "did not find expected node content" t.start)
    | .scalar text style =>
      pure ({ kind := .scalar anchor tag text style, mark := start }, p.skip.pop)
    | .flowSequenceStart =>
      pure ({ kind := .sequenceStart anchor tag, mark := start }, { p with state := .flowSequenceFirstEntry })
    | .flowMappingStart =>
      pure ({ kind := .mappingStart anchor tag, mark := start }, { p with state := .flowMappingFirstKey })
    | .blockSequenceStart =>
      if block then
        pure ({ kind := .sequenceStart anchor tag, mark := start }, { p with state := .blockSequenceFirstEntry })
      else if withProps then pure ({ kind := .scalar anchor tag "" .plain, mark := start }, p.pop)
      else throw (errorWithContext "while parsing a flow node" start "did not find expected node content" t.start)
    | .blockMappingStart =>
      if block then
        pure ({ kind := .mappingStart anchor tag, mark := start }, { p with state := .blockMappingFirstKey })
      else if withProps then pure ({ kind := .scalar anchor tag "" .plain, mark := start }, p.pop)
      else throw (errorWithContext "while parsing a flow node" start "did not find expected node content" t.start)
    | _ =>
      if withProps then pure ({ kind := .scalar anchor tag "" .plain, mark := start }, p.pop)
      else throw (errorWithContext (if block then "while parsing a block node" else "while parsing a flow node")
        start "did not find expected node content" t.start)

def pushMarkAndSkip (p : Parser) (first : Bool) : Except SyntaxError Parser := do
  if first then
    let (t, p) ← p.peek
    pure { p.skip with marks := t.start :: p.marks }
  else pure p

def parseBlockSequenceEntry (p : Parser) (first : Bool) : Except SyntaxError (Event × Parser) := do
  let p ← p.pushMarkAndSkip first
  let (t, p) ← p.peek
  match t.kind with
  | .blockEntry =>
    let mark := t.stop
    let (t, p) ← p.skip.peek
    if t.kind != .blockEntry && t.kind != .blockEnd then
      parseNode (p.push .blockSequenceEntry) true false
    else pure (emptyScalar mark, { p with state := .blockSequenceEntry })
  | .blockEnd =>
    let (_, p) := p.popMark
    pure ({ kind := .sequenceEnd, mark := t.start }, p.skip.pop)
  | _ =>
    let (m, _) := p.popMark
    throw (errorWithContext "while parsing a block collection" m "did not find expected '-' indicator" t.start)

def parseIndentlessSequenceEntry (p : Parser) : Except SyntaxError (Event × Parser) := do
  let (t, p) ← p.peek
  if t.kind == .blockEntry then
    let mark := t.stop
    let (t, p) ← p.skip.peek
    if t.kind != .blockEntry && t.kind != .key && t.kind != .value && t.kind != .blockEnd then
      parseNode (p.push .indentlessSequenceEntry) true false
    else pure (emptyScalar mark, { p with state := .indentlessSequenceEntry })
  else pure ({ kind := .sequenceEnd, mark := t.start }, p.pop)

def parseBlockMappingKey (p : Parser) (first : Bool) : Except SyntaxError (Event × Parser) := do
  let p ← p.pushMarkAndSkip first
  let (t, p) ← p.peek
  match t.kind with
  | .key =>
    let mark := t.stop
    let (t, p) ← p.skip.peek
    if t.kind != .key && t.kind != .value && t.kind != .blockEnd then
      parseNode (p.push .blockMappingValue) true true
    else pure (emptyScalar mark, { p with state := .blockMappingValue })
  | .blockEnd =>
    let (_, p) := p.popMark
    pure ({ kind := .mappingEnd, mark := t.start }, p.skip.pop)
  | _ =>
    let (m, _) := p.popMark
    throw (errorWithContext "while parsing a block mapping" m "did not find expected key" t.start)

def parseBlockMappingValue (p : Parser) : Except SyntaxError (Event × Parser) := do
  let (t, p) ← p.peek
  if t.kind == .value then
    let mark := t.stop
    let (t, p) ← p.skip.peek
    if t.kind != .key && t.kind != .value && t.kind != .blockEnd then
      parseNode (p.push .blockMappingKey) true true
    else pure (emptyScalar mark, { p with state := .blockMappingKey })
  else pure (emptyScalar t.start, { p with state := .blockMappingKey })

def parseFlowSequenceEntry (p : Parser) (first : Bool) : Except SyntaxError (Event × Parser) := do
  let p ← p.pushMarkAndSkip first
  let (t, p) ← p.peek
  let (t, p) ← if t.kind != .flowSequenceEnd && !first then
      if t.kind == .flowEntry then p.skip.peek
      else
        let (m, _) := p.popMark
        throw (errorWithContext "while parsing a flow sequence" m "did not find expected ',' or ']'" t.start)
    else pure (t, p)
  if t.kind == .key then
    pure ({ kind := .mappingStart none none, mark := t.start }, { p.skip with state := .flowSequenceEntryMappingKey })
  else if t.kind != .flowSequenceEnd then
    parseNode (p.push .flowSequenceEntry) false false
  else
    let (_, p) := p.popMark
    pure ({ kind := .sequenceEnd, mark := t.start }, p.skip.pop)

def parseFlowSequenceEntryMappingKey (p : Parser) : Except SyntaxError (Event × Parser) := do
  let (t, p) ← p.peek
  if t.kind != .value && t.kind != .flowEntry && t.kind != .flowSequenceEnd then
    parseNode (p.push .flowSequenceEntryMappingValue) false false
  else pure (emptyScalar t.stop, { p.skip with state := .flowSequenceEntryMappingValue })

def parseFlowSequenceEntryMappingValue (p : Parser) : Except SyntaxError (Event × Parser) := do
  let (t, p) ← p.peek
  if t.kind == .value then
    let (t, p) ← p.skip.peek
    if t.kind != .flowEntry && t.kind != .flowSequenceEnd then
      parseNode (p.push .flowSequenceEntryMappingEnd) false false
    else pure (emptyScalar t.start, { p with state := .flowSequenceEntryMappingEnd })
  else pure (emptyScalar t.start, { p with state := .flowSequenceEntryMappingEnd })

def parseFlowMappingKey (p : Parser) (first : Bool) : Except SyntaxError (Event × Parser) := do
  let p ← p.pushMarkAndSkip first
  let (t, p) ← p.peek
  let (t, p) ← if t.kind != .flowMappingEnd && !first then
      if t.kind == .flowEntry then p.skip.peek
      else
        let (m, _) := p.popMark
        throw (errorWithContext "while parsing a flow mapping" m "did not find expected ',' or '\x7d'" t.start)
    else pure (t, p)
  if t.kind == .key then
    let (t, p) ← p.skip.peek
    if t.kind != .value && t.kind != .flowEntry && t.kind != .flowMappingEnd then
      parseNode (p.push .flowMappingValue) false false
    else pure (emptyScalar t.start, { p with state := .flowMappingValue })
  else if t.kind != .flowMappingEnd then
    parseNode (p.push .flowMappingEmptyValue) false false
  else
    let (_, p) := p.popMark
    pure ({ kind := .mappingEnd, mark := t.start }, p.skip.pop)

def parseFlowMappingValue (p : Parser) (empty : Bool) : Except SyntaxError (Event × Parser) := do
  let (t, p) ← p.peek
  if empty then pure (emptyScalar t.start, { p with state := .flowMappingKey })
  else if t.kind == .value then
    let (t, p) ← p.skip.peek
    if t.kind != .flowEntry && t.kind != .flowMappingEnd then
      parseNode (p.push .flowMappingKey) false false
    else pure (emptyScalar t.start, { p with state := .flowMappingKey })
  else pure (emptyScalar t.start, { p with state := .flowMappingKey })

/-- The next event; `none` once the stream has ended. -/
def next (p : Parser) : Except SyntaxError (Option Event × Parser) :=
  let some_ (r : Except SyntaxError (Event × Parser)) := r.map fun (e, p) => (some e, p)
  match p.state with
  | .streamStart => do
    let (t, p) ← p.peek
    if t.kind != .streamStart then
      throw { problem := "did not find expected <stream-start>", problemMark := t.start }
    pure (some { kind := .streamStart, mark := t.start }, { p.skip with state := .implicitDocumentStart })
  | .implicitDocumentStart => some_ (p.parseDocumentStart true)
  | .documentStart => some_ (p.parseDocumentStart false)
  | .documentContent => do
    let (t, p) ← p.peek
    match t.kind with
    | .versionDirective .. | .tagDirective .. | .documentStart | .documentEnd | .streamEnd =>
      pure (some (emptyScalar t.start), p.pop)
    | _ => some_ (p.parseNode true false)
  | .documentEnd => some_ p.parseDocumentEnd
  | .blockNode => some_ (p.parseNode true false)
  | .blockNodeOrIndentlessSequence => some_ (p.parseNode true true)
  | .flowNode => some_ (p.parseNode false false)
  | .blockSequenceFirstEntry => some_ (p.parseBlockSequenceEntry true)
  | .blockSequenceEntry => some_ (p.parseBlockSequenceEntry false)
  | .indentlessSequenceEntry => some_ p.parseIndentlessSequenceEntry
  | .blockMappingFirstKey => some_ (p.parseBlockMappingKey true)
  | .blockMappingKey => some_ (p.parseBlockMappingKey false)
  | .blockMappingValue => some_ p.parseBlockMappingValue
  | .flowSequenceFirstEntry => some_ (p.parseFlowSequenceEntry true)
  | .flowSequenceEntry => some_ (p.parseFlowSequenceEntry false)
  | .flowSequenceEntryMappingKey => some_ p.parseFlowSequenceEntryMappingKey
  | .flowSequenceEntryMappingValue => some_ p.parseFlowSequenceEntryMappingValue
  | .flowSequenceEntryMappingEnd => do
    let (t, p) ← p.peek
    pure (some { kind := .mappingEnd, mark := t.start }, { p with state := .flowSequenceEntry })
  | .flowMappingFirstKey => some_ (p.parseFlowMappingKey true)
  | .flowMappingKey => some_ (p.parseFlowMappingKey false)
  | .flowMappingValue => some_ (p.parseFlowMappingValue false)
  | .flowMappingEmptyValue => some_ (p.parseFlowMappingValue true)
  | .finished => .ok (none, p)

end Parser

end ConfigTabs.Yaml
