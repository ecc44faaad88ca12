/-!
The YAML scanner: it turns the characters of a stream into tokens, inserting simple keys and
block starts and ends as indentation changes.
-/
namespace ConfigTabs.Yaml

structure Mark where
  index : Nat := 0
  line : Nat := 0
  column : Nat := 0
  deriving DecidableEq, Repr, Inhabited

inductive ScalarStyle where
  | plain
  | singleQuoted
  | doubleQuoted
  | literal
  | folded
  deriving DecidableEq, Repr, Inhabited

inductive TokenKind where
  | streamStart
  | streamEnd
  | versionDirective (major minor : Nat)
  | tagDirective (handle pre : String)
  | documentStart
  | documentEnd
  | blockSequenceStart
  | blockMappingStart
  | blockEnd
  | flowSequenceStart
  | flowSequenceEnd
  | flowMappingStart
  | flowMappingEnd
  | blockEntry
  | flowEntry
  | key
  | value
  | alias (name : String)
  | anchor (name : String)
  | tag (handle suffix : String)
  | scalar (text : String) (style : ScalarStyle)
  deriving DecidableEq, Repr, Inhabited

structure Token where
  kind : TokenKind
  start : Mark
  stop : Mark
  deriving Repr, Inhabited

/-- A failure to read a stream: what went wrong and where, and what was being read and from
where. A character that may not appear in a stream is reported by its byte offset instead. -/
structure SyntaxError where
  problem : String
  problemMark : Mark := {}
  context : Option String := none
  contextMark : Mark := {}
  offset : Nat := 0
  deriving Repr, Inhabited

def Mark.text (m : Mark) : String :=
  "line " ++ toString (m.line + 1) ++ " column " ++ toString (m.column + 1)

def Mark.isStart (m : Mark) : Bool := m.line == 0 && m.column == 0

/-- The sentence for a failure: positions at the very start are left out, and the context's
position only when it differs from the problem's. -/
def SyntaxError.message (e : SyntaxError) : String :=
  let pm := e.problemMark
  let cm := e.contextMark
  let place :=
    if !pm.isStart then " at " ++ pm.text
    else if e.offset != 0 then " at position " ++ toString e.offset
    else ""
  let context := match e.context with
    | none => ""
    | some c =>
      ", " ++ c ++
        (if !cm.isStart && (cm.line != pm.line || cm.column != pm.column) then " at " ++ cm.text else "")
  e.problem ++ place ++ context

/-! Characters. -/

def isBreakChar (c : Char) : Bool :=
  c == '\r' || c == '\n' || c == '\x85' || c == '\u2028' || c == '\u2029'

def isBlankChar (c : Char) : Bool := c == ' ' || c == '\t'

def isAlphaChar (c : Char) : Bool :=
  ('0' ≤ c && c ≤ '9') || ('A' ≤ c && c ≤ 'Z') || ('a' ≤ c && c ≤ 'z') || c == '_' || c == '-'

def isDigitChar (c : Char) : Bool := '0' ≤ c && c ≤ '9'

def isHexChar (c : Char) : Bool :=
  isDigitChar c || ('A' ≤ c && c ≤ 'F') || ('a' ≤ c && c ≤ 'f')

def hexValue (c : Char) : Nat :=
  if isDigitChar c then c.toNat - 48
  else if 'A' ≤ c && c ≤ 'F' then c.toNat - 55
  else c.toNat - 87

/-- Characters a stream may hold. -/
def isStreamChar (c : Char) : Bool :=
  let n := c.toNat
  n == 0x09 || n == 0x0A || n == 0x0D || (0x20 ≤ n && n ≤ 0x7E) || n == 0x85 ||
    (0xA0 ≤ n && n ≤ 0xD7FF) || (0xE000 ≤ n && n ≤ 0xFFFD) || (0x10000 ≤ n && n ≤ 0x10FFFF)

def isUriChar (c : Char) : Bool :=
  isAlphaChar c || ";/?:@&=+$.%!~*'()".toList.contains c

/-- A place where a key without `?` may have started. -/
structure SimpleKey where
  possible : Bool := false
  required : Bool := false
  tokenNumber : Nat := 0
  mark : Mark := {}
  deriving Repr, Inhabited

structure Scanner where
  rest : List Char
  mark : Mark := {}
  /-- Tokens scanned and not yet taken. -/
  queue : List Token := []
  /-- Tokens taken so far. -/
  taken : Nat := 0
  available : Bool := false
  started : Bool := false
  ended : Bool := false
  indent : Int := -1
  indents : List Int := []
  keyAllowed : Bool := false
  /-- One remembered key per flow level, innermost first. -/
  keys : List SimpleKey := []
  flowLevel : Nat := 0
  deriving Repr, Inhabited

namespace Scanner

def at? (s : Scanner) (k : Nat) : Option Char := (s.rest.drop k).head?

def check (s : Scanner) (c : Char) : Bool := s.at? 0 == some c

def checkAt (s : Scanner) (k : Nat) (c : Char) : Bool := s.at? k == some c

def isBreakAt (s : Scanner) (k : Nat) : Bool := (s.at? k).any isBreakChar

def isBreakZAt (s : Scanner) (k : Nat) : Bool :=
  match s.at? k with
  | none => true
  | some c => isBreakChar c

def isBlankAt (s : Scanner) (k : Nat) : Bool := (s.at? k).any isBlankChar

def isBlankZAt (s : Scanner) (k : Nat) : Bool := s.isBlankAt k || s.isBreakZAt k

def atEnd (s : Scanner) : Bool := s.rest.isEmpty

def startsWith (s : Scanner) (p : List Char) : Bool := p.isPrefixOf s.rest

/-- Moves past one character that is not a line break. -/
def skip (s : Scanner) : Scanner :=
  match s.rest with
  | [] => s
  | _ :: cs => { s with rest := cs, mark := { s.mark with index := s.mark.index + 1, column := s.mark.column + 1 } }

def skipN (s : Scanner) : Nat → Scanner
  | 0 => s
  | n + 1 => s.skip.skipN n

/-- Moves past a line break. -/
def skipLine (s : Scanner) : Scanner :=
  match s.rest with
  | '\r' :: '\n' :: cs => { s with rest := cs, mark := { index := s.mark.index + 2, line := s.mark.line + 1, column := 0 } }
  | c :: cs =>
    if isBreakChar c then { s with rest := cs, mark := { index := s.mark.index + 1, line := s.mark.line + 1, column := 0 } }
    else s
  | [] => s

def readLine (s : Scanner) : List Char × Scanner :=
  match s.rest with
  | c :: _ =>
    if c == '\u2028' || c == '\u2029' then ([c], s.skipLine)
    else if isBreakChar c then (['\n'], s.skipLine)
    else ([], s)
  | [] => ([], s)

def takeRun (s : Scanner) (p : Char → Bool) : List Char × Scanner :=
  let run := s.rest.takeWhile p
  (run, s.skipN run.length)

def nextNumber (s : Scanner) : Nat := s.taken + s.queue.length

def enqueue (s : Scanner) (k : TokenKind) (start stop : Mark) : Scanner :=
  { s with queue := s.queue ++ [{ kind := k, start, stop }] }

def insertAt (s : Scanner) (i : Nat) (t : Token) : Scanner :=
  { s with queue := s.queue.take i ++ [t] ++ s.queue.drop i }

def error (s : Scanner) (context : String) (contextMark : Mark) (problem : String) : SyntaxError :=
  { problem, problemMark := s.mark, context := some context, contextMark }

def keyError (s : Scanner) (k : SimpleKey) : SyntaxError :=
  s.error "while scanning a simple key" k.mark "could not find expected ':'"

/-! Remembered keys and indentation. -/

def staleSimpleKeys (s : Scanner) : Except SyntaxError Scanner := do
  let step (k : SimpleKey) : Except SyntaxError SimpleKey :=
    if k.possible && (k.mark.line < s.mark.line || k.mark.index + 1024 < s.mark.index) then
      if k.required then .error (s.keyError k) else .ok { k with possible := false }
    else .ok k
  let keys ← s.keys.reverse.mapM step
  pure { s with keys := keys.reverse }

def removeSimpleKey (s : Scanner) : Except SyntaxError Scanner :=
  match s.keys with
  | k :: ks =>
    if k.possible && k.required then .error (s.keyError k)
    else .ok { s with keys := { k with possible := false } :: ks }
  | [] => .ok s

def saveSimpleKey (s : Scanner) : Except SyntaxError Scanner := do
  if s.keyAllowed then
    let k : SimpleKey :=
      { possible := true, required := s.flowLevel == 0 && s.indent == (s.mark.column : Int),
        tokenNumber := s.nextNumber, mark := s.mark }
    let s ← s.removeSimpleKey
    pure { s with keys := k :: s.keys.drop 1 }
  else pure s

def increaseFlowLevel (s : Scanner) : Scanner :=
  { s with keys := {} :: s.keys, flowLevel := s.flowLevel + 1 }

def decreaseFlowLevel (s : Scanner) : Scanner :=
  if s.flowLevel > 0 then { s with flowLevel := s.flowLevel - 1, keys := s.keys.drop 1 } else s

def rollIndent (s : Scanner) (column : Int) (number : Option Nat) (k : TokenKind) (mark : Mark) : Scanner :=
  if s.flowLevel > 0 then s
  else if s.indent < column then
    let s := { s with indents := s.indent :: s.indents, indent := column }
    match number with
    | none => s.enqueue k mark mark
    | some n => s.insertAt (n - s.taken) { kind := k, start := mark, stop := mark }
  else s

def unrollIndent (s : Scanner) (column : Int) : Scanner :=
  if s.flowLevel > 0 then s else go s.indents.length s
where
  go : Nat → Scanner → Scanner
    | 0, s => s
    | fuel + 1, s =>
      if s.indent > column then
        let s := s.enqueue .blockEnd s.mark s.mark
        go fuel { s with indent := s.indents.headD (-1), indents := s.indents.drop 1 }
      else s

def scanToNextToken (s : Scanner) : Scanner :=
  go (s.rest.length + 1) s
where
  go : Nat → Scanner → Scanner
    | 0, s => s
    | fuel + 1, s =>
      let s := if s.mark.column == 0 && s.check '\uFEFF' then s.skip else s
      let (_, s) := s.takeRun fun c => c == ' ' || (c == '\t' && (s.flowLevel > 0 || !s.keyAllowed))
      let s := if s.check '#' then (s.takeRun fun c => !isBreakChar c).2 else s
      if s.isBreakAt 0 then
        let s := s.skipLine
        go fuel (if s.flowLevel == 0 then { s with keyAllowed := true } else s)
      else s

/-! Scanning single tokens. -/

def scanAnchor (s : Scanner) (isAlias : Bool) : Except SyntaxError Scanner :=
  let start := s.mark
  let (name, s) := s.skip.takeRun isAlphaChar
  let ends := s.isBlankZAt 0 || ['?', ':', ',', ']', '}', '%', '@', '`'].any s.check
  if name.isEmpty || !ends then
    .error (s.error (if isAlias then "while scanning an alias" else "while scanning an anchor") start
      "did not find expected alphabetic or numeric character")
  else
    let n := String.ofList name
    .ok (s.enqueue (if isAlias then .alias n else .anchor n) start s.mark)

def uriEscapes (s : Scanner) (directive : Bool) (start : Mark) : Except SyntaxError (List Char × Scanner) :=
  let ctx := if directive then "while parsing a %TAG directive" else "while parsing a tag"
  let octet (s : Scanner) : Except SyntaxError (Nat × Scanner) :=
    match s.rest with
    | '%' :: a :: b :: _ =>
      if isHexChar a && isHexChar b then .ok (hexValue a * 16 + hexValue b, s.skipN 3)
      else .error (s.error ctx start "did not find URI escaped octet")
    | _ => .error (s.error ctx start "did not find URI escaped octet")
  do
    let (first, s) ← octet s
    let width :=
      if first < 0x80 then 1 else if first / 32 == 6 then 2 else if first / 16 == 14 then 3
      else if first / 8 == 30 then 4 else 0
    if width == 0 then throw (s.error ctx start "found an incorrect leading UTF-8 octet")
    let rec more : Nat → Scanner → List Nat → Except SyntaxError (List Nat × Scanner)
      | 0, s, acc => .ok (acc, s)
      | n + 1, s, acc => do
        let (o, s) ← octet s
        if o / 64 != 2 then throw (s.error ctx start "found an incorrect trailing UTF-8 octet")
        more n s (acc ++ [o])
    let (rest, s) ← more (width - 1) s []
    let bytes := (first :: rest).map fun n => n.toUInt8
    let text := (String.fromUTF8? (ByteArray.mk bytes.toArray)).getD ""
    pure (text.toList, s)

def scanTagUri (s : Scanner) (uriChar directive : Bool) (head : Option String) (start : Mark) :
    Except SyntaxError (String × Scanner) :=
  let headChars := match head with
    | some h => h.toList.drop 1
    | none => []
  let headLength := match head with
    | some h => h.length
    | none => 0
  let allowed (c : Char) : Bool := isUriChar c || (uriChar && (c == ',' || c == '[' || c == ']'))
  let rec go : Nat → Scanner → List Char → Nat → Except SyntaxError (List Char × Nat × Scanner)
    | 0, s, acc, n => .ok (acc, n, s)
    | fuel + 1, s, acc, n =>
      match s.at? 0 with
      | some c =>
        if !allowed c then .ok (acc, n, s)
        else if c == '%' then do
          let (cs, s) ← uriEscapes s directive start
          go fuel s (acc ++ cs) (n + 1)
        else go fuel s.skip (acc ++ [c]) (n + 1)
      | none => .ok (acc, n, s)
  do
    let (cs, n, s) ← go (s.rest.length + 1) s headChars headLength
    if n == 0 then
      throw (s.error (if directive then "while parsing a %TAG directive" else "while parsing a tag") start
        "did not find expected tag URI")
    pure (String.ofList cs, s)

def scanTagHandle (s : Scanner) (directive : Bool) (start : Mark) : Except SyntaxError (String × Scanner) :=
  if !s.check '!' then
    .error (s.error (if directive then "while scanning a tag directive" else "while scanning a tag") start
      "did not find expected '!'")
  else
    let (name, s) := s.skip.takeRun isAlphaChar
    if s.check '!' then .ok (String.ofList ('!' :: name ++ ['!']), s.skip)
    else if directive && !name.isEmpty then
      .error (s.error "while parsing a tag directive" start "did not find expected '!'")
    else .ok (String.ofList ('!' :: name), s)

def scanTag (s : Scanner) : Except SyntaxError Scanner := do
  let start := s.mark
  let (handle, suffix, s) ← if s.checkAt 1 '<' then do
      let (suffix, s) ← scanTagUri (s.skipN 2) true false none start
      if !s.check '>' then throw (s.error "while scanning a tag" start "did not find the expected '>'")
      pure ("", suffix, s.skip)
    else do
      let (handle, s) ← scanTagHandle s false start
      if handle.length ≥ 2 && handle.endsWith "!" then
        let (suffix, s) ← scanTagUri s false false none start
        pure (handle, suffix, s)
      else
        let (suffix, s) ← scanTagUri s false false (some handle) start
        if suffix.isEmpty then pure ("", "!", s) else pure ("!", suffix, s)
  if !s.isBlankZAt 0 && (s.flowLevel == 0 || !s.check ',') then
    throw (s.error "while scanning a tag" start "did not find expected whitespace or line break")
  pure (s.enqueue (.tag handle suffix) start s.mark)

def blockBreaks (s : Scanner) (indent : Nat) (start : Mark) :
    Except SyntaxError (Scanner × Nat × List Char) :=
  let rec go : Nat → Scanner → Nat → List Char → Except SyntaxError (Scanner × Nat × List Char)
    | 0, s, maxIndent, breaks => .ok (s, maxIndent, breaks)
    | fuel + 1, s, maxIndent, breaks =>
      let spaces := (s.rest.takeWhile (· == ' ')).length
      let s := s.skipN (if indent == 0 then spaces else min spaces (indent - s.mark.column))
      let maxIndent := max maxIndent s.mark.column
      if (indent == 0 || s.mark.column < indent) && s.check '\t' then
        .error (s.error "while scanning a block scalar" start
          "found a tab character where an indentation space is expected")
      else if !s.isBreakAt 0 then .ok (s, maxIndent, breaks)
      else
        let (b, s) := s.readLine
        go fuel s maxIndent (breaks ++ b)
  do
    let (s, maxIndent, breaks) ← go (s.rest.length + 1) s 0 []
    let indent := if indent == 0 then max 1 (max maxIndent (s.indent + 1).toNat) else indent
    pure (s, indent, breaks)

def scanBlockScalar (s : Scanner) (literal : Bool) : Except SyntaxError Scanner := do
  let start := s.mark
  let s := s.skip
  let zeroIndent := s.error "while scanning a block scalar" start "found an indentation indicator equal to 0"
  let chompOf (c : Char) : Int := if c == '+' then 1 else -1
  let (chomping, increment, s) ← match s.at? 0 with
    | some c =>
      if c == '+' || c == '-' then
        let t := s.skip
        match t.at? 0 with
        | some d =>
          if isDigitChar d then
            if d == '0' then throw { zeroIndent with problemMark := t.mark }
            else pure (chompOf c, d.toNat - 48, t.skip)
          else pure (chompOf c, 0, t)
        | none => pure (chompOf c, 0, t)
      else if isDigitChar c then
        if c == '0' then throw zeroIndent
        else
          let t := s.skip
          match t.at? 0 with
          | some e => if e == '+' || e == '-' then pure (chompOf e, c.toNat - 48, t.skip) else pure (0, c.toNat - 48, t)
          | none => pure (0, c.toNat - 48, t)
      else pure (0, 0, s)
    | none => pure (0, 0, s)
  let (_, s) := s.takeRun isBlankChar
  let s := if s.check '#' then (s.takeRun fun c => !isBreakChar c).2 else s
  if !s.isBreakZAt 0 then
    throw (s.error "while scanning a block scalar" start "did not find expected comment or line break")
  let s := if s.isBreakAt 0 then s.skipLine else s
  let endMark := s.mark
  let indent : Nat := if increment > 0 then (if s.indent ≥ 0 then s.indent.toNat + increment else increment) else 0
  let (s, indent, trailing) ← blockBreaks s indent start
  let rec body : Nat → Scanner → List Char → List Char → List Char → Bool →
      Except SyntaxError (Scanner × List Char × List Char × List Char)
    | 0, s, text, leading, trailing, _ => .ok (s, text, leading, trailing)
    | fuel + 1, s, text, leading, trailing, leadingBlank =>
      if s.mark.column != indent || s.atEnd then .ok (s, text, leading, trailing)
      else
        let trailingBlank := s.isBlankAt 0
        let text :=
          if !literal && leading.head? == some '\n' && !leadingBlank && !trailingBlank then
            if trailing.isEmpty then text ++ [' '] else text
          else text ++ leading
        let text := text ++ trailing
        let leadingBlank := s.isBlankAt 0
        let (line, s) := s.takeRun fun c => !isBreakChar c
        let (leading, s) := s.readLine
        match blockBreaks s indent start with
        | .error e => .error e
        | .ok (s, _, trailing) => body fuel s (text ++ line) leading trailing leadingBlank
  let (s, text, leading, trailing) ← body (s.rest.length + 1) s [] [] trailing false
  let text := if chomping != -1 then text ++ leading else text
  let text := if chomping == 1 then text ++ trailing else text
  pure (s.enqueue (.scalar (String.ofList text) (if literal then .literal else .folded)) start endMark)

def foldBreaks (leading trailing : List Char) : List Char :=
  if leading.head? == some '\n' then (if trailing.isEmpty then [' '] else trailing)
  else leading ++ trailing

def escapeOf (c : Char) : Option (List Char) :=
  match c with
  | '0' => some ['\x00']
  | 'a' => some ['\x07']
  | 'b' => some ['\x08']
  | 't' | '\t' => some ['\t']
  | 'n' => some ['\n']
  | 'v' => some ['\x0b']
  | 'f' => some ['\x0c']
  | 'r' => some ['\r']
  | 'e' => some ['\x1b']
  | ' ' => some [' ']
  | '"' => some ['"']
  | '/' => some ['/']
  | '\'' => some ['\'']
  | '\\' => some ['\\']
  | 'N' => some ['\x85']
  | '_' => some ['\xa0']
  | 'L' => some ['\u2028']
  | 'P' => some ['\u2029']
  | _ => none

def isDocumentIndicator (s : Scanner) : Bool :=
  s.mark.column == 0 && (s.startsWith ['-', '-', '-'] || s.startsWith ['.', '.', '.']) && s.isBlankZAt 3

def quotedRun (single : Bool) (start : Mark) : Nat → Scanner → List Char →
    Except SyntaxError (List Char × Bool × Scanner)
  | 0, s, acc => .ok (acc, false, s)
  | fuel + 1, s, acc =>
    if s.isBlankZAt 0 then .ok (acc, false, s)
    else if single && s.check '\'' && s.checkAt 1 '\'' then quotedRun single start fuel (s.skipN 2) (acc ++ ['\''])
    else if s.check (if single then '\'' else '"') then .ok (acc, false, s)
    else if !single && s.check '\\' && s.isBreakAt 1 then .ok (acc, true, s.skip.skipLine)
    else if !single && s.check '\\' then
      let code := s.at? 1
      let length := match code with
        | some 'x' => 2
        | some 'u' => 4
        | some 'U' => 8
        | _ => 0
      if length == 0 then
        match code.bind escapeOf with
        | some cs => quotedRun single start fuel (s.skipN 2) (acc ++ cs)
        | none => .error (s.error "while parsing a quoted scalar" start "found unknown escape character")
      else
        let t := s.skipN 2
        let digits := t.rest.take length
        if digits.length < length || !digits.all isHexChar then
          .error (t.error "while parsing a quoted scalar" start "did not find expected hexdecimal number")
        else
          let v := digits.foldl (fun a c => a * 16 + hexValue c) 0
          if (0xD800 ≤ v && v ≤ 0xDFFF) || v > 0x10FFFF then
            .error (t.error "while parsing a quoted scalar" start "found invalid Unicode character escape code")
          else quotedRun single start fuel (t.skipN length) (acc ++ [Char.ofNat v])
    else
      match s.at? 0 with
      | some c => quotedRun single start fuel s.skip (acc ++ [c])
      | none => .ok (acc, false, s)

def flowBlanks : Nat → Scanner → Bool → List Char → List Char → List Char →
    Scanner × Bool × List Char × List Char × List Char
  | 0, s, lb, ws, leading, trailing => (s, lb, ws, leading, trailing)
  | fuel + 1, s, lb, ws, leading, trailing =>
    if s.isBlankAt 0 then
      match s.at? 0 with
      | some c => flowBlanks fuel s.skip lb (if lb then ws else ws ++ [c]) leading trailing
      | none => (s, lb, ws, leading, trailing)
    else if s.isBreakAt 0 then
      let (b, t) := s.readLine
      if !lb then flowBlanks fuel t true [] b trailing
      else flowBlanks fuel t true ws leading (trailing ++ b)
    else (s, lb, ws, leading, trailing)

def scanFlowScalar (s : Scanner) (single : Bool) : Except SyntaxError Scanner :=
  let start := s.mark
  let rec go : Nat → Scanner → List Char → Except SyntaxError (List Char × Scanner)
    | 0, s, text => .ok (text, s)
    | fuel + 1, s, text =>
      if s.isDocumentIndicator then
        .error (s.error "while scanning a quoted scalar" start "found unexpected document indicator")
      else if s.atEnd then
        .error (s.error "while scanning a quoted scalar" start "found unexpected end of stream")
      else
        match quotedRun single start (s.rest.length + 1) s [] with
        | .error e => .error e
        | .ok (run, escapedBreak, s) =>
          let text := text ++ run
          if s.check (if single then '\'' else '"') then .ok (text, s)
          else
            let (s, lb, ws, leading, trailing) := flowBlanks (s.rest.length + 1) s escapedBreak [] [] []
            let text := if lb then text ++ foldBreaks leading trailing else text ++ ws
            go fuel s text
  match go (s.rest.length + 1) s.skip [] with
  | .error e => .error e
  | .ok (text, s) =>
    let s := s.skip
    .ok (s.enqueue (.scalar (String.ofList text) (if single then .singleQuoted else .doubleQuoted)) start s.mark)

def scanPlainScalar (s : Scanner) : Except SyntaxError Scanner :=
  let start := s.mark
  let indent : Int := s.indent + 1
  let rec run : Nat → Scanner → List Char → Bool → List Char → List Char → List Char → Mark →
      Except SyntaxError (Scanner × List Char × Bool × List Char × List Char × List Char × Mark)
    | 0, s, text, lb, ws, leading, trailing, stop => .ok (s, text, lb, ws, leading, trailing, stop)
    | fuel + 1, s, text, lb, ws, leading, trailing, stop =>
      if s.isBlankZAt 0 then .ok (s, text, lb, ws, leading, trailing, stop)
      else if s.flowLevel > 0 && s.check ':' && [',', '?', '[', ']', '{', '}'].any (s.checkAt 1) then
        .error (s.error "while scanning a plain scalar" start "found unexpected ':'")
      else if (s.check ':' && s.isBlankZAt 1) ||
          (s.flowLevel > 0 && [',', '[', ']', '{', '}'].any s.check) then
        .ok (s, text, lb, ws, leading, trailing, stop)
      else
        let (text, ws, leading, trailing) :=
          if lb then (text ++ foldBreaks leading trailing, ws, [], [])
          else (text ++ ws, [], leading, trailing)
        match s.at? 0 with
        | some c =>
          let s := s.skip
          run fuel s (text ++ [c]) false ws leading trailing s.mark
        | none => .ok (s, text, lb, ws, leading, trailing, stop)
  let rec blanks : Nat → Scanner → Bool → List Char → List Char → List Char →
      Except SyntaxError (Scanner × Bool × List Char × List Char × List Char)
    | 0, s, lb, ws, leading, trailing => .ok (s, lb, ws, leading, trailing)
    | fuel + 1, s, lb, ws, leading, trailing =>
      if s.isBlankAt 0 then
        if lb && (s.mark.column : Int) < indent && s.check '\t' then
          .error (s.error "while scanning a plain scalar" start "found a tab character that violates indentation")
        else
          match s.at? 0 with
          | some c => blanks fuel s.skip lb (if lb then ws else ws ++ [c]) leading trailing
          | none => .ok (s, lb, ws, leading, trailing)
      else if s.isBreakAt 0 then
        let (b, t) := s.readLine
        if !lb then blanks fuel t true [] b trailing
        else blanks fuel t true ws leading (trailing ++ b)
      else .ok (s, lb, ws, leading, trailing)
  let rec outer : Nat → Scanner → List Char → Bool → List Char → List Char → List Char → Mark →
      Except SyntaxError (Scanner × List Char × Bool × Mark)
    | 0, s, text, lb, _, _, _, stop => .ok (s, text, lb, stop)
    | fuel + 1, s, text, lb, ws, leading, trailing, stop =>
      if s.isDocumentIndicator || s.check '#' then .ok (s, text, lb, stop)
      else
        match run (s.rest.length + 1) s text lb ws leading trailing stop with
        | .error e => .error e
        | .ok (s, text, lb, ws, leading, trailing, stop) =>
          if !(s.isBlankAt 0 || s.isBreakAt 0) then .ok (s, text, lb, stop)
          else
            match blanks (s.rest.length + 1) s lb ws leading trailing with
            | .error e => .error e
            | .ok (s, lb, ws, leading, trailing) =>
              if s.flowLevel == 0 && (s.mark.column : Int) < indent then .ok (s, text, lb, stop)
              else outer fuel s text lb ws leading trailing stop
  match outer (s.rest.length + 1) s [] false [] [] [] start with
  | .error e => .error e
  | .ok (s, text, lb, stop) =>
    let s := s.enqueue (.scalar (String.ofList text) .plain) start stop
    .ok (if lb then { s with keyAllowed := true } else s)

/-! Directives. -/

def directiveError (s : Scanner) (start : Mark) (problem : String) : SyntaxError :=
  s.error "while scanning a directive" start problem

def versionNumber (s : Scanner) (start : Mark) : Except SyntaxError (Nat × Scanner) :=
  let (ds, t) := s.takeRun isDigitChar
  if ds.length > 9 then
    .error ((s.skipN 9).error "while scanning a %YAML directive" start "found extremely long version number")
  else if ds.isEmpty then
    .error (s.error "while scanning a %YAML directive" start "did not find expected version number")
  else .ok (ds.foldl (fun a c => a * 10 + (c.toNat - 48)) 0, t)

def scanDirective (s : Scanner) : Except SyntaxError Scanner := do
  let start := s.mark
  let (name, s) := s.skip.takeRun isAlphaChar
  if name.isEmpty then throw (directiveError s start "could not find expected directive name")
  if !s.isBlankZAt 0 then throw (directiveError s start "found unexpected non-alphabetical character")
  let (kind, s) ← if name == ['Y', 'A', 'M', 'L'] then do
      let (_, s) := s.takeRun isBlankChar
      let (major, s) ← versionNumber s start
      if !s.check '.' then
        throw (s.error "while scanning a %YAML directive" start "did not find expected digit or '.' character")
      let (minor, s) ← versionNumber s.skip start
      pure (TokenKind.versionDirective major minor, s)
    else if name == ['T', 'A', 'G'] then do
      let (_, s) := s.takeRun isBlankChar
      let (handle, s) ← scanTagHandle s true start
      if !s.isBlankAt 0 then
        throw (s.error "while scanning a %TAG directive" start "did not find expected whitespace")
      let (_, s) := s.takeRun isBlankChar
      let (pre, s) ← scanTagUri s true true none start
      if !s.isBlankZAt 0 then
        throw (s.error "while scanning a %TAG directive" start "did not find expected whitespace or line break")
      pure (TokenKind.tagDirective handle pre, s)
    else throw (directiveError s start "found unknown directive name")
  let stop := s.mark
  let (_, s) := s.takeRun isBlankChar
  let s := if s.check '#' then (s.takeRun fun c => !isBreakChar c).2 else s
  if !s.isBreakZAt 0 then throw (directiveError s start "did not find expected comment or line break")
  let s := s.enqueue kind start stop
  pure (if s.isBreakAt 0 then s.skipLine else s)

/-! Fetching tokens. -/

def fetchStreamStart (s : Scanner) : Scanner :=
  let s := { s with indent := -1, keys := [{}], keyAllowed := true, started := true }
  s.enqueue .streamStart s.mark s.mark

def fetchStreamEnd (s : Scanner) : Except SyntaxError Scanner := do
  let s := if s.mark.column != 0 then { s with mark := { s.mark with column := 0, line := s.mark.line + 1 } } else s
  let s := s.unrollIndent (-1)
  let s ← s.removeSimpleKey
  let s := { s with keyAllowed := false }
  pure (s.enqueue .streamEnd s.mark s.mark)

def simpleToken (s : Scanner) (k : TokenKind) (width : Nat) : Scanner :=
  let start := s.mark
  let s := s.skipN width
  s.enqueue k start s.mark

def fetchNextToken (s : Scanner) : Except SyntaxError Scanner := do
  if !s.started then return s.fetchStreamStart
  let s := s.scanToNextToken
  let s ← s.staleSimpleKeys
  let s := s.unrollIndent s.mark.column
  match s.at? 0 with
  | none => s.fetchStreamEnd
  | some c =>
    let blankZ1 := s.isBlankZAt 1
    if s.mark.column == 0 && c == '%' then do
      let s ← (s.unrollIndent (-1)).removeSimpleKey
      scanDirective { s with keyAllowed := false }
    else if s.mark.column == 0 && (s.startsWith ['-', '-', '-'] || s.startsWith ['.', '.', '.']) && s.isBlankZAt 3 then do
      let s ← (s.unrollIndent (-1)).removeSimpleKey
      let s := { s with keyAllowed := false }
      pure (s.simpleToken (if c == '-' then .documentStart else .documentEnd) 3)
    else if c == '[' || c == '{' then do
      let s ← s.saveSimpleKey
      let s := { s.increaseFlowLevel with keyAllowed := true }
      pure (s.simpleToken (if c == '[' then .flowSequenceStart else .flowMappingStart) 1)
    else if c == ']' || c == '}' then do
      let s ← s.removeSimpleKey
      let s := { s.decreaseFlowLevel with keyAllowed := false }
      pure (s.simpleToken (if c == ']' then .flowSequenceEnd else .flowMappingEnd) 1)
    else if c == ',' then do
      let s ← s.removeSimpleKey
      pure ({ s with keyAllowed := true }.simpleToken .flowEntry 1)
    else if c == '-' && blankZ1 then do
      let s ← if s.flowLevel == 0 then
          if !s.keyAllowed then
            throw { problem := "block sequence entries are not allowed in this context", problemMark := s.mark }
          else pure (s.rollIndent s.mark.column none .blockSequenceStart s.mark)
        else pure s
      let s ← s.removeSimpleKey
      pure ({ s with keyAllowed := true }.simpleToken .blockEntry 1)
    else if c == '?' && (s.flowLevel > 0 || blankZ1) then do
      let s ← if s.flowLevel == 0 then
          if !s.keyAllowed then
            throw { problem := "mapping keys are not allowed in this context", problemMark := s.mark }
          else pure (s.rollIndent s.mark.column none .blockMappingStart s.mark)
        else pure s
      let s ← s.removeSimpleKey
      pure ({ s with keyAllowed := s.flowLevel == 0 }.simpleToken .key 1)
    else if c == ':' && (s.flowLevel > 0 || blankZ1) then do
      let s ← match s.keys with
        | k :: ks =>
          if k.possible then
            let s := s.insertAt (k.tokenNumber - s.taken) { kind := .key, start := k.mark, stop := k.mark }
            let s := s.rollIndent k.mark.column (some k.tokenNumber) .blockMappingStart k.mark
            pure { s with keys := { k with possible := false } :: ks, keyAllowed := false }
          else if s.flowLevel == 0 then
            if !s.keyAllowed then
              throw { problem := "mapping values are not allowed in this context", problemMark := s.mark }
            else pure { s.rollIndent s.mark.column none .blockMappingStart s.mark with keyAllowed := true }
          else pure { s with keyAllowed := false }
        | [] => pure s
      pure (s.simpleToken .value 1)
    else if c == '*' || c == '&' then do
      let s ← s.saveSimpleKey
      scanAnchor { s with keyAllowed := false } (c == '*')
    else if c == '!' then do
      let s ← s.saveSimpleKey
      scanTag { s with keyAllowed := false }
    else if (c == '|' || c == '>') && s.flowLevel == 0 then do
      let s ← s.removeSimpleKey
      scanBlockScalar { s with keyAllowed := true } (c == '|')
    else if c == '\'' || c == '"' then do
      let s ← s.saveSimpleKey
      scanFlowScalar { s with keyAllowed := false } (c == '\'')
    else if !(s.isBlankZAt 0 || "-?:,[]{}#&*!|>'\"%@`".toList.contains c) ||
        (c == '-' && !s.isBlankAt 1) ||
        (s.flowLevel == 0 && (c == '?' || c == ':') && !blankZ1) then do
      let s ← s.saveSimpleKey
      scanPlainScalar { s with keyAllowed := false }
    else
      throw (s.error "while scanning for the next token" s.mark "found character that cannot start any token")

def fetchMore (s : Scanner) : Except SyntaxError Scanner :=
  go (s.rest.length + s.indents.length + 8) s
where
  go : Nat → Scanner → Except SyntaxError Scanner
    | 0, s => .ok { s with available := true }
    | fuel + 1, s => do
      let need ← if s.queue.isEmpty then pure true
        else do
          let t ← s.staleSimpleKeys
          pure (t.keys.any fun k => k.possible && k.tokenNumber == t.taken)
      let s ← if s.queue.isEmpty then pure s else s.staleSimpleKeys
      if !need then return { s with available := true }
      let s ← s.fetchNextToken
      go fuel s

/-- The next token, once it is certain. -/
def peekToken (s : Scanner) : Except SyntaxError (Token × Scanner) := do
  let s ← if s.available then pure s else s.fetchMore
  match s.queue.head? with
  | some t => pure (t, s)
  | none => throw { problem := "did not find expected <stream-end>", problemMark := s.mark }

/-- Takes the first token. -/
def skipToken (s : Scanner) : Scanner :=
  { s with available := false, taken := s.taken + 1, queue := s.queue.drop 1 }

end Scanner

end ConfigTabs.Yaml
