import ConfigTabs.Toml.Tables
/-!
The grammar of TOML values and keys, read one character at a time; a failure that is not
final lets the caller try another reading.
-/
namespace ConfigTabs.Toml

/-- Something a failed step was looking for. -/
inductive Wanted where
  | char (c : Char)
  | words (s : String)
  deriving DecidableEq, Repr

inductive Note where
  | label (s : String)
  | wanted (w : Wanted)
  deriving DecidableEq, Repr

/-- Why reading stopped. -/
structure Failure where
  /-- The byte offset where reading stood. -/
  offset : Nat
  notes : List Note := []
  cause : Option String := none
  /-- No other reading may be tried. -/
  final : Bool := false
  deriving Repr

def Wanted.text : Wanted → String
  | .words s => s
  | .char '\n' => "newline"
  | .char '`' => "'`'"
  | .char c =>
    if c.toNat < 0x20 ∨ c.toNat = 0x7F then "`" ++ String.ofList (escapeControl c) ++ "`"
    else "`" ++ String.singleton c ++ "`"
where
  escapeControl (c : Char) : List Char :=
    match c with
    | '\t' => ['\\', 't']
    | '\r' => ['\\', 'r']
    | '\n' => ['\\', 'n']
    | '\x00' => ['\\', '0']
    | _ =>
      let h := Nat.toDigits 16 c.toNat
      ['\\', 'u', '\x7b'] ++ h ++ ['\x7d']

/-- The sentence for a failure: the innermost label, then what was expected, then the cause,
one per line. -/
def Failure.message (f : Failure) : String :=
  let label := f.notes.findSome? fun n => match n with
    | .label s => some s
    | _ => none
  let wanted := f.notes.filterMap fun n => match n with
    | .wanted w => some w.text
    | _ => none
  let parts := (match label with
      | some l => ["invalid " ++ l]
      | none => []) ++
    (if wanted.isEmpty then [] else ["expected " ++ ", ".intercalate wanted]) ++
    (match f.cause with
      | some c => [c]
      | none => [])
  "\n".intercalate parts

/-- Where reading stands: what is left and its byte offset in the document. -/
structure Src where
  rest : List Char
  offset : Nat
  deriving Repr

/-- The outcome of a step. -/
inductive Step (α : Type) where
  | ok (a : α) (next : Src)
  | fail (f : Failure)

namespace Src

def peek? (s : Src) : Option Char := s.rest.head?

def bump (s : Src) : Src :=
  match s.rest with
  | [] => s
  | c :: cs => ⟨cs, s.offset + c.utf8Size⟩

def advance (s : Src) : Nat → Src
  | 0 => s
  | n + 1 => (s.bump).advance n

def startsWith (s : Src) (p : List Char) : Bool := p.isPrefixOf s.rest

/-- The longest run of characters with property `p`, and what follows it. -/
def span (s : Src) (p : Char → Bool) : List Char × Src :=
  let (a, b) := s.rest.span p
  (a, ⟨b, s.offset + a.foldl (fun n c => n + c.utf8Size) 0⟩)

def spanAtMost (s : Src) (n : Nat) (p : Char → Bool) : List Char × Src :=
  let a := (s.rest.take n).takeWhile p
  (a, ⟨s.rest.drop a.length, s.offset + a.foldl (fun n c => n + c.utf8Size) 0⟩)

def textTo (s t : Src) : String := String.ofList (s.rest.take (s.rest.length - t.rest.length))

/-- A failure that stands here. -/
def failure (s : Src) (notes : List Note := []) : Failure := { offset := s.offset, notes }

def budget (s : Src) : Nat := s.rest.length + 2

end Src

namespace Step

def note {α : Type} (n : Note) : Step α → Step α
  | .fail f => .fail { f with notes := f.notes ++ [n] }
  | r => r

def notes {α : Type} (ns : List Note) : Step α → Step α
  | .fail f => .fail { f with notes := f.notes ++ ns }
  | r => r

def final {α : Type} : Step α → Step α
  | .fail f => .fail { f with final := true }
  | r => r

def map {α β : Type} (g : α → β) : Step α → Step β
  | .ok a s => .ok (g a) s
  | .fail f => .fail f

def bind {α β : Type} (r : Step α) (k : α → Src → Step β) : Step β :=
  match r with
  | .ok a s => k a s
  | .fail f => .fail f

end Step

/-! Characters. -/

def isWs (c : Char) : Bool := c == ' ' || c == '\t'

def inRange (c : Char) (lo hi : Nat) : Bool := lo ≤ c.toNat && c.toNat ≤ hi

def isNonAscii (c : Char) : Bool := 0x80 ≤ c.toNat

def isNonEol (c : Char) : Bool := c == '\t' || inRange c 0x20 0x7E || isNonAscii c

def isBasicUnescaped (c : Char) : Bool :=
  isWs c || c.toNat == 0x21 || inRange c 0x23 0x5B || inRange c 0x5D 0x7E || isNonAscii c

def isLiteralChar (c : Char) : Bool :=
  c == '\t' || inRange c 0x20 0x26 || inRange c 0x28 0x7E || isNonAscii c

def isUnquotedKeyChar (c : Char) : Bool :=
  inRange c 0x41 0x5A || inRange c 0x61 0x7A || inRange c 0x30 0x39 || c == '-' || c == '_'

def isDigitChar (c : Char) : Bool := inRange c 0x30 0x39

def isHexChar (c : Char) : Bool := isDigitChar c || inRange c 0x41 0x46 || inRange c 0x61 0x66

def isOctChar (c : Char) : Bool := inRange c 0x30 0x37

def isBinChar (c : Char) : Bool := c == '0' || c == '1'

def digitValue (c : Char) : Nat :=
  if isDigitChar c then c.toNat - 0x30
  else if inRange c 0x41 0x46 then c.toNat - 0x41 + 10
  else if inRange c 0x61 0x66 then c.toNat - 0x61 + 10
  else 0

def digitsValue (radix : Nat) (ds : List Char) : Nat :=
  ds.foldl (fun acc c => acc * radix + digitValue c) 0

/-! Blanks, comments and line ends. -/

def ws (s : Src) : Src := (s.span isWs).2

def comment (s : Src) : Src := (s.bump.span isNonEol).2

def newline (s : Src) : Step Unit :=
  match s.rest with
  | '\n' :: _ => .ok () s.bump
  | '\r' :: '\n' :: _ => .ok () (s.advance 2)
  | _ :: _ => .fail s.bump.failure
  | [] => .fail s.failure

def skipNewline (s : Src) : Src :=
  match newline s with
  | .ok _ t => t
  | .fail _ => s

def lineEnding (s : Src) : Step Unit :=
  match s.rest with
  | '\n' :: _ => .ok () s.bump
  | '\r' :: '\n' :: _ => .ok () (s.advance 2)
  | [] => .ok () s
  | _ => .fail s.failure

def lineTrailing (s : Src) : Step Unit :=
  let s := ws s
  lineEnding (if s.peek? == some '#' then comment s else s)

def wsCommentNewline : Nat → Src → Step Unit
  | 0, s => .ok () s
  | fuel + 1, s =>
    let s1 := ws s
    match s1.peek? with
    | some '#' =>
      match newline (comment s1) with
      | .ok _ s2 => wsCommentNewline fuel s2
      | .fail f => .fail f
    | some '\n' | some '\r' =>
      match newline s1 with
      | .ok _ s2 => wsCommentNewline fuel s2
      | .fail f => .fail f
    | _ => .ok () s1

def wsNewline : Nat → Src → Src
  | 0, s => s
  | fuel + 1, s =>
    match newline s with
    | .ok _ t => wsNewline fuel t
    | .fail _ =>
      let (run, t) := s.span isWs
      if run.isEmpty then s else wsNewline fuel t

/-! Strings. -/

def escapeWanted : List Note :=
  ['b', 'f', 'n', 'r', 't', 'u', 'U', '\\', '"'].map fun c => .wanted (.char c)

def isCharCode (n : Nat) : Bool := n < 0xD800 || (0xDFFF < n && n < 0x110000)

def hexEscape (n : Nat) (label : String) (s : Src) : Step Char :=
  let (ds, t) := s.spanAtMost n isHexChar
  if ds.length < n then .fail { offset := s.offset, notes := [.label label], final := true }
  else
    let v := digitsValue 16 ds
    if isCharCode v then .ok (Char.ofNat v) t
    else .fail { offset := s.offset, notes := [.label label], cause := some "value is out of range",
                 final := true }

def escapeSeq (s : Src) : Step Char :=
  match s.rest with
  | [] => .fail s.failure
  | c :: _ =>
    let t := s.bump
    match c with
    | 'b' => .ok '\x08' t
    | 'f' => .ok '\x0c' t
    | 'n' => .ok '\n' t
    | 'r' => .ok '\r' t
    | 't' => .ok '\t' t
    | '\\' => .ok '\\' t
    | '"' => .ok '"' t
    | 'u' => hexEscape 4 "unicode 4-digit hex code" t
    | 'U' => hexEscape 8 "unicode 8-digit hex code" t
    | _ => .fail { offset := t.offset, notes := .label "escape sequence" :: escapeWanted, final := true }

def basicBody : Nat → Src → List Char → Step (List Char)
  | 0, s, acc => .ok acc s
  | fuel + 1, s, acc =>
    let (run, t) := s.span isBasicUnescaped
    if !run.isEmpty then basicBody fuel t (acc ++ run)
    else if s.peek? == some '\\' then
      match escapeSeq s.bump with
      | .ok c t => basicBody fuel t (acc ++ [c])
      | .fail f => if f.final then .fail f else .ok acc s
    else .ok acc s

def basicString (s : Src) : Step String :=
  match basicBody s.budget s.bump [] with
  | .fail f => .fail f
  | .ok cs t =>
    if t.peek? == some '"' then .ok (String.ofList cs) t.bump
    else .fail { offset := t.offset, notes := [.label "basic string"], final := true }

def literalString (s : Src) : Step String :=
  let (cs, t) := s.bump.span isLiteralChar
  if t.peek? == some '\'' then .ok (String.ofList cs) t.bump
  else .fail { offset := t.offset, notes := [.label "literal string"], final := true }

def isMlbUnescaped (c : Char) : Bool := isBasicUnescaped c

def escapedNewline (s : Src) : Option Src :=
  if s.peek? == some '\\' then
    match newline (ws s.bump) with
    | .ok _ t => some (wsNewline t.budget t)
    | .fail _ => none
  else none

def escapedNewlines : Nat → Src → Src
  | 0, s => s
  | fuel + 1, s =>
    match escapedNewline s with
    | some t => escapedNewlines fuel t
    | none => s

def mlbContent (s : Src) : Step (List Char) :=
  let (run, t) := s.span isMlbUnescaped
  if !run.isEmpty then .ok run t
  else match escapedNewline s with
    | some t => .ok [] (escapedNewlines t.budget t)
    | none =>
      let lineEnd : Step (List Char) := match newline s with
        | .ok _ t => .ok ['\n'] t
        | .fail f => .fail f
      if s.peek? == some '\\' then
        match escapeSeq s.bump with
        | .ok c t => .ok [c] t
        | .fail f => if f.final then .fail f else lineEnd
      else lineEnd

def quotesBefore (q : Char) (term : Src → Bool) (s : Src) : Option (List Char × Src) :=
  if s.startsWith [q, q] && term (s.advance 2) then some ([q, q], s.advance 2)
  else if s.startsWith [q] && term s.bump then some ([q], s.bump)
  else none

def notQuote (q : Char) (s : Src) : Bool :=
  match s.peek? with
  | some c => c != q
  | none => false

def tripleQuote (q : Char) (s : Src) : Bool := s.startsWith [q, q, q]

def mlBasicBody : Nat → Src → List Char → Step (List Char)
  | 0, s, acc => .ok acc s
  | fuel + 1, s, acc =>
    let finish (t : Src) : Step (List Char) :=
      match quotesBefore '"' (tripleQuote '"') t with
      | some (q, u) => .ok (acc ++ q) u
      | none => .ok acc t
    match mlbContent s with
    | .ok cs t => mlBasicBody fuel t (acc ++ cs)
    | .fail f =>
      if f.final then .fail f
      else match quotesBefore '"' (notQuote '"') s with
        | some (q, t) =>
          match mlbContent t with
          | .ok cs u => mlBasicBody fuel u (acc ++ q ++ cs)
          | .fail f => if f.final then .fail f else finish t
        | none => finish s

def mlBasicString (s : Src) : Step String :=
  let t := skipNewline (s.advance 3)
  match mlBasicBody t.budget t [] with
  | .fail f => .fail { f with notes := f.notes ++ [.label "multiline basic string"] }
  | .ok cs u =>
    if tripleQuote '"' u then .ok (String.ofList cs) (u.advance 3)
    else .fail { offset := u.offset, notes := [.label "multiline basic string"], final := true }

def mllContent (s : Src) : Option (Char × Src) :=
  match s.peek? with
  | some c =>
    if isLiteralChar c then some (c, s.bump)
    else match newline s with
      | .ok _ t => some ('\n', t)
      | .fail _ => none
  | none => none

def mlLiteralBody : Nat → Src → List Char → List Char × Src
  | 0, s, acc => (acc, s)
  | fuel + 1, s, acc =>
    let finish (t : Src) : List Char × Src :=
      match quotesBefore '\'' (tripleQuote '\'') t with
      | some (q, u) => (acc ++ q, u)
      | none => (acc, t)
    match mllContent s with
    | some (c, t) => mlLiteralBody fuel t (acc ++ [c])
    | none =>
      match quotesBefore '\'' (notQuote '\'') s with
      | some (q, t) =>
        match mllContent t with
        | some (c, u) => mlLiteralBody fuel u (acc ++ q ++ [c])
        | none => finish s
      | none => finish s

def mlLiteralString (s : Src) : Step String :=
  let t := skipNewline (s.advance 3)
  let (cs, u) := mlLiteralBody t.budget t []
  if tripleQuote '\'' u then .ok (String.ofList cs) (u.advance 3)
  else .fail { offset := u.offset, notes := [.label "multiline literal string"], final := true }

/-- Any of the four kinds of string; `s` is at a quote or an apostrophe. -/
def string (s : Src) : Step String :=
  if tripleQuote '"' s then mlBasicString s
  else if s.peek? == some '"' then basicString s
  else if tripleQuote '\'' s then mlLiteralString s
  else literalString s

/-! Keys. -/

def bareKey (s : Src) : Step String :=
  let (cs, t) := s.span isUnquotedKeyChar
  if cs.isEmpty then .fail s.failure else .ok (String.ofList cs) t

def simpleKey (s : Src) : Step Key :=
  let r := match s.peek? with
    | some '"' => basicString s
    | some '\'' => literalString s
    | some _ => bareKey s
    | none => .fail s.failure
  r.bind fun name t => .ok { name, raw := s.textTo t, span := ⟨s.offset, t.offset⟩ } t

def keyPart (s : Src) : Step Key := (simpleKey (ws s)).bind fun k t => .ok k (ws t)

def keyRest : Nat → Src → List Key → Step (List Key)
  | 0, s, acc => .ok acc s
  | fuel + 1, s, acc =>
    if s.peek? == some '.' then
      match keyPart s.bump with
      | .ok k t => keyRest fuel t (acc ++ [k])
      | .fail f => if f.final then .fail f else .ok acc s
    else .ok acc s

def depthLimit : Nat := 80

/-- A key, dotted or not. -/
def key (s : Src) : Step (List Key) :=
  match ((keyPart s).bind fun k t => keyRest t.budget t [k]).note (.label "key") with
  | .ok ks t =>
    if depthLimit ≤ ks.length then .fail { offset := s.offset, cause := some Clash.tooDeep.message }
    else .ok ks t
  | .fail f => .fail f

/-! Numbers. -/

def digitWanted : Note := .wanted (.words "digit")

def digitRun (isD : Char → Bool) : Nat → Src → List Char → Step (List Char)
  | 0, s, acc => .ok acc s
  | fuel + 1, s, acc =>
    match s.rest with
    | c :: _ =>
      if isD c then digitRun isD fuel s.bump (acc ++ [c])
      else if c == '_' then
        let t := s.bump
        match t.peek? with
        | some d =>
          if isD d then digitRun isD fuel t.bump (acc ++ [d])
          else .fail { offset := t.offset, notes := [digitWanted], final := true }
        | none => .fail { offset := t.offset, notes := [digitWanted], final := true }
      else .ok acc s
    | [] => .ok acc s

def sign (s : Src) : Bool × Src :=
  match s.peek? with
  | some '+' => (false, s.bump)
  | some '-' => (true, s.bump)
  | _ => (false, s)

def decInt (s : Src) : Step (Bool × List Char) :=
  let (neg, t) := sign s
  let r : Step (List Char) := match t.peek? with
    | some c =>
      if inRange c 0x31 0x39 then digitRun isDigitChar t.budget t.bump [c]
      else if c == '0' then .ok ['0'] t.bump
      else .fail t.failure
    | none => .fail t.failure
  (r.map fun ds => (neg, ds)).note (.label "integer")

def maxI64 : Int := Nat.pow 2 63 - 1

def minI64 : Int := -(Nat.pow 2 63)

def radixInt (radix : Nat) (isD : Char → Bool) (label : String) (s : Src) : Step Int :=
  let t := s.advance 2
  let r : Step (List Char) := match t.peek? with
    | some c => if isD c then digitRun isD t.budget t.bump [c] else .fail t.failure
    | none => .fail t.failure
  match (r.note (.label label)).final with
  | .ok ds u =>
    let v := digitsValue radix ds
    if maxI64 < v then
      .fail { offset := s.offset, cause := some "number too large to fit in target type", final := true }
    else .ok v u
  | .fail f => .fail f

def integer (s : Src) : Step Int :=
  match s.rest with
  | '0' :: 'x' :: _ => radixInt 16 isHexChar "hexadecimal integer" s
  | '0' :: 'o' :: _ => radixInt 8 isOctChar "octal integer" s
  | '0' :: 'b' :: _ => radixInt 2 isBinChar "binary integer" s
  | _ =>
    match decInt s with
    | .ok (neg, ds) t =>
      let v : Int := digitsValue 10 ds
      let v := if neg then -v else v
      if maxI64 < v then
        .fail { offset := s.offset, cause := some "number too large to fit in target type", final := true }
      else if v < minI64 then
        .fail { offset := s.offset, cause := some "number too small to fit in target type", final := true }
      else .ok v t
    | .fail f => .fail f

def zeroPrefixable (s : Src) : Step (List Char) :=
  match s.peek? with
  | some c => if isDigitChar c then digitRun isDigitChar s.budget s.bump [c] else .fail s.failure
  | none => .fail s.failure

/-- An exponent part: its sign and digits. -/
def exponent (s : Src) : Step (Bool × List Char) :=
  match s.peek? with
  | some 'e' | some 'E' =>
    let (neg, t) := sign s.bump
    ((zeroPrefixable t).map fun ds => (neg, ds)).final
  | _ => .fail s.failure

def fraction (s : Src) : Step (List Char) :=
  if s.peek? == some '.' then ((zeroPrefixable s.bump).final).note digitWanted
  else .fail s.failure

def specialFloat (s : Src) : Step Binary64 :=
  let (neg, t) := sign s
  if t.startsWith ['i', 'n', 'f'] then .ok (Binary64.infinity neg) (t.advance 3)
  else if t.startsWith ['n', 'a', 'n'] then
    .ok (if neg then Binary64.nan.neg else Binary64.nan) (t.advance 3)
  else .fail t.failure

def expValue (e : Bool × List Char) : Int :=
  let v : Int := digitsValue 10 e.2
  if e.1 then -v else v

def floatOf (s : Src) (neg : Bool) (intDigits fracDigits : List Char) (e : Int) (t : Src) :
    Step Binary64 :=
  let x := Binary64.ofDecimal neg (digitsValue 10 (intDigits ++ fracDigits)) (e - fracDigits.length)
  if x == Binary64.infinity false then .fail { offset := s.offset, final := true }
  else .ok x t

def float (s : Src) : Step Binary64 :=
  let regular : Step Binary64 :=
    match decInt s with
    | .fail f => .fail f
    | .ok (neg, ds) t =>
      match exponent t with
      | .ok e u => floatOf s neg ds [] (expValue e) u
      | .fail f =>
        if f.final then .fail f
        else match fraction t with
          | .fail f => .fail f
          | .ok fd u =>
            match exponent u with
            | .ok e v => floatOf s neg ds fd (expValue e) v
            | .fail f => if f.final then .fail f else floatOf s neg ds fd 0 u
  let r : Step Binary64 := match regular with
    | .fail f => if f.final then .fail f else specialFloat s
    | ok => ok
  r.note (.label "floating-point number")

/-! Dates and times. -/

def fixedDigits (n : Nat) (s : Src) : Option (Nat × Src) :=
  let (ds, t) := s.spanAtMost n isDigitChar
  if ds.length < n then none else some (digitsValue 10 ds, t)

def outOfRange (s : Src) (final : Bool) : Failure :=
  { offset := s.offset, cause := some Clash.outOfRange.message, final }

def isLeapYear (y : Nat) : Bool := y % 4 == 0 && (y % 100 != 0 || y % 400 == 0)

def daysInMonth (y m : Nat) : Nat :=
  if m == 2 then (if isLeapYear y then 29 else 28)
  else if m == 4 || m == 6 || m == 9 || m == 11 then 30
  else 31

def fullDate (s : Src) : Step Date :=
  match fixedDigits 4 s with
  | none => .fail s.failure
  | some (y, s1) =>
    if s1.peek? != some '-' then .fail s1.failure
    else
      let s2 := s1.bump
      match fixedDigits 2 s2 with
      | none => .fail { s2.failure with final := true }
      | some (m, s3) =>
        if m < 1 ∨ 12 < m then .fail (outOfRange s2 true)
        else if s3.peek? != some '-' then .fail { s3.failure with final := true }
        else
          let s4 := s3.bump
          match fixedDigits 2 s4 with
          | none => .fail { s4.failure with final := true }
          | some (d, s5) =>
            if d < 1 ∨ 31 < d ∨ daysInMonth y m < d then .fail (outOfRange s4 true)
            else .ok { year := y, month := m, day := d } s5

def nanos (ds : List Char) : Nat :=
  let ds := ds.take 9
  digitsValue 10 ds * Nat.pow 10 (9 - ds.length)

def partialTime (s : Src) : Step Time :=
  match fixedDigits 2 s with
  | none => .fail s.failure
  | some (h, s1) =>
    if 23 < h then .fail (outOfRange s false)
    else if s1.peek? != some ':' then .fail s1.failure
    else
      let s2 := s1.bump
      match fixedDigits 2 s2 with
      | none => .fail { s2.failure with final := true }
      | some (mi, s3) =>
        if 59 < mi then .fail (outOfRange s2 true)
        else if s3.peek? != some ':' then .fail { s3.failure with final := true }
        else
          let s4 := s3.bump
          match fixedDigits 2 s4 with
          | none => .fail { s4.failure with final := true }
          | some (se, s5) =>
            if 60 < se then .fail (outOfRange s4 true)
            else
              let t : Time := { hour := h, minute := mi, second := se }
              if s5.peek? == some '.' then
                let (ds, s6) := s5.bump.span isDigitChar
                if ds.isEmpty then .ok t s5 else .ok { t with nanosecond := nanos ds } s6
              else .ok t s5

def timeOffset (s : Src) : Step Offset :=
  let r : Step Offset := match s.peek? with
    | some 'Z' | some 'z' => .ok .utc s.bump
    | some c =>
      if c == '+' || c == '-' then
        let s1 := s.bump
        match fixedDigits 2 s1 with
        | none => .fail { s1.failure with final := true }
        | some (h, s2) =>
          if 23 < h then .fail (outOfRange s1 true)
          else if s2.peek? != some ':' then .fail { s2.failure with final := true }
          else
            let s3 := s2.bump
            match fixedDigits 2 s3 with
            | none => .fail { s3.failure with final := true }
            | some (m, s4) =>
              if 59 < m then .fail (outOfRange s3 true)
              else
                let v : Int := h * 60 + m
                .ok (.minutes (if c == '-' then -v else v)) s4
      else .fail s.failure
    | none => .fail s.failure
  r.note (.label "time offset")

def dateTime (s : Src) : Step Datetime :=
  let withDate : Step Datetime :=
    match fullDate s with
    | .fail f => .fail f
    | .ok d s1 =>
      let dateOnly : Step Datetime := .ok { date := some d } s1
      match s1.peek? with
      | some c =>
        if c == 'T' || c == 't' || c == ' ' then
          match partialTime s1.bump with
          | .ok t s2 =>
            match timeOffset s2 with
            | .ok o s3 => .ok { date := some d, time := some t, offset := some o } s3
            | .fail f => if f.final then .fail f else .ok { date := some d, time := some t } s2
          | .fail f => if f.final then .fail f else dateOnly
        else dateOnly
      | none => dateOnly
  match withDate.note (.label "date-time") with
  | .fail f =>
    if f.final then .fail f
    else ((partialTime s).map fun t => ({ time := some t } : Datetime)).note (.label "time")
  | ok => ok

/-! Values. -/

def stringNotes : List Note := [.label "string", .wanted (.char '"'), .wanted (.char '\'')]

def word (w : List Char) (n : Node) (s : Src) : Step Node :=
  if s.startsWith w then .ok n (s.advance w.length) else .fail s.failure

def spanned {α : Type} (s : Src) (r : Step α) (mk : α → Span → Node) : Step Node :=
  r.bind fun a t => .ok (mk a ⟨s.offset, t.offset⟩) t

def numberLike (s : Src) : Step Node :=
  match spanned s (dateTime s) .datetime with
  | .fail f =>
    if f.final then .fail f
    else match spanned s (float s) .float with
      | .fail f => if f.final then .fail f else spanned s (integer s) .integer
      | ok => ok
  | ok => ok

mutual

/-- A value. `depth` counts the arrays and inline tables around it. -/
def value : Nat → Nat → Src → Step Node
  | 0, _, s => .fail s.failure
  | fuel + 1, depth, s =>
    let tooDeep : Step Node :=
      .fail { offset := s.offset, cause := some Clash.tooDeep.message, final := true }
    match s.peek? with
    | none => .fail s.failure
    | some c =>
      if c == '"' || c == '\'' then spanned s (string s) .string
      else if c == '[' then
        if depthLimit ≤ depth + 1 then tooDeep else array fuel (depth + 1) s
      else if c == '{' then
        if depthLimit ≤ depth + 1 then tooDeep else inlineTable fuel (depth + 1) s
      else if c == '+' || c == '-' || isDigitChar c then numberLike s
      else if c == '_' then (spanned s (integer s) .integer).note (.wanted (.words "leading digit"))
      else if c == '.' then (spanned s (float s) .float).note (.wanted (.words "leading digit"))
      else if c == 't' then
        ((spanned s (word ['t', 'r', 'u', 'e'] (.boolean true ⟨0, 0⟩) s) fun n sp =>
          match n with
          | .boolean b _ => .boolean b sp
          | other => other).final).notes stringNotes
      else if c == 'f' then
        ((spanned s (word ['f', 'a', 'l', 's', 'e'] (.boolean false ⟨0, 0⟩) s) fun n sp =>
          match n with
          | .boolean b _ => .boolean b sp
          | other => other).final).notes stringNotes
      else if c == 'i' then
        (spanned s (word ['i', 'n', 'f'] (.float (Binary64.infinity false) ⟨0, 0⟩) s) fun n sp =>
          match n with
          | .float x _ => .float x sp
          | other => other).notes stringNotes
      else if c == 'n' then
        (spanned s (word ['n', 'a', 'n'] (.float Binary64.nan ⟨0, 0⟩) s) fun n sp =>
          match n with
          | .float x _ => .float x sp
          | other => other).notes stringNotes
      else .fail (s.failure stringNotes)
termination_by fuel => 2 * fuel

/-- An array; `s` is at its opening bracket. -/
def array : Nat → Nat → Src → Step Node
  | fuel, depth, s =>
    let s1 := s.bump
    let items : Step (List Node) :=
      if s1.peek? == some ']' then .ok [] s1
      else
        match arrayItems fuel depth s1 true [] with
        | .fail f => .fail f
        | .ok vs s2 =>
          let s3 := if !vs.isEmpty && s2.peek? == some ',' then s2.bump else s2
          (wsCommentNewline s3.budget s3).map fun _ => vs
    match items with
    | .fail f => .fail { f with final := true }
    | .ok vs s2 =>
      if s2.peek? == some ']' then .ok (.array vs ⟨s.offset, s2.bump.offset⟩) s2.bump
      else .fail { offset := s2.offset, notes := [.label "array", .wanted (.char ']')], final := true }
termination_by fuel => 2 * fuel + 1

def arrayItems : Nat → Nat → Src → Bool → List Node → Step (List Node)
  | 0, _, s, _, acc => .ok acc s
  | fuel + 1, depth, s, first, acc =>
    if first then
      match arrayValue fuel depth s with
      | .ok v t => arrayItems fuel depth t false [v]
      | .fail f => if f.final then .fail f else .ok [] s
    else if s.peek? == some ',' then
      match arrayValue fuel depth s.bump with
      | .ok v t => arrayItems fuel depth t false (acc ++ [v])
      | .fail f => if f.final then .fail f else .ok acc s
    else .ok acc s
termination_by fuel => 2 * fuel

def arrayValue : Nat → Nat → Src → Step Node
  | fuel, depth, s =>
    match wsCommentNewline s.budget s with
    | .fail f => .fail f
    | .ok _ s1 =>
      match value fuel depth s1 with
      | .fail f => .fail f
      | .ok v s2 =>
        match wsCommentNewline s2.budget s2 with
        | .fail f => .fail f
        | .ok _ s3 => .ok v s3
termination_by fuel => 2 * fuel + 1

def inlineTable : Nat → Nat → Src → Step Node
  | fuel, depth, s =>
    let s1 := s.bump
    match inlinePairs fuel depth s1 true [] with
    | .fail f => .fail { f with final := true }
    | .ok kvs s2 =>
      let s3 := ws s2
      match tableFromPairs kvs [] with
      | .error clash => .fail { offset := s1.offset, cause := some clash.message, final := true }
      | .ok entries =>
        if s3.peek? == some '}' then .ok (.inlineTable entries false (some ⟨s.offset, s3.bump.offset⟩)) s3.bump
        else .fail { offset := s3.offset, notes := [.label "inline table", .wanted (.char '}')],
                     final := true }
termination_by fuel => 2 * fuel + 1

def inlinePairs : Nat → Nat → Src → Bool → List (List Key × Key × Node) →
    Step (List (List Key × Key × Node))
  | 0, _, s, _, acc => .ok acc s
  | fuel + 1, depth, s, first, acc =>
    if first then
      match inlinePair fuel depth s with
      | .ok kv t => inlinePairs fuel depth t false [kv]
      | .fail f => if f.final then .fail f else .ok [] s
    else if s.peek? == some ',' then
      match inlinePair fuel depth s.bump with
      | .ok kv t => inlinePairs fuel depth t false (acc ++ [kv])
      | .fail f => if f.final then .fail f else .ok acc s
    else .ok acc s
termination_by fuel => 2 * fuel

def inlinePair : Nat → Nat → Src → Step (List Key × Key × Node)
  | fuel, depth, s =>
    match key s with
    | .fail f => .fail f
    | .ok ks s1 =>
      if s1.peek? != some '=' then
        .fail { offset := s1.offset, notes := [.wanted (.char '.'), .wanted (.char '=')], final := true }
      else
        match value fuel depth (ws s1.bump) with
        | .fail f => .fail { f with final := true }
        | .ok v s2 => .ok (ks.dropLast, ks.getLast?.getD default, v) (ws s2)
termination_by fuel => 2 * fuel + 1

end

end ConfigTabs.Toml
