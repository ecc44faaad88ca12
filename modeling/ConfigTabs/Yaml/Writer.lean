import ConfigTabs.Number.Text
import ConfigTabs.Value.Basic
import ConfigTabs.Yaml.Scalar
/-!
Writing yaml in block style, each string in the first style that reads back the same.
-/
namespace ConfigTabs.Yaml

def floatStyle : FloatStyle := { scientific := true }

def bestWidth : Nat := 80

def bestIndent : Nat := 2

def isBreak (c : Char) : Bool :=
  c == '\r' || c == '\n' || c == '\x85' || c == ' ' || c == ' '

def isBlank (c : Char) : Bool := c == ' ' || c == '\t'

def isPrintable (c : Char) : Bool :=
  let n := c.toNat
  n == 0x0A || (0x20 ≤ n && n ≤ 0x7E) || (0xA0 ≤ n && n ≤ 0xD7FF) ||
    (0xE000 ≤ n && n ≤ 0xFFFD && n != 0xFEFF) || 0x10000 ≤ n

def isBlankOrEnd : Option Char → Bool
  | none => true
  | some c => isBlank c || isBreak c

/-- The styles a scalar may be written in. -/
structure ScalarFreedom where
  multiline : Bool
  flowPlain : Bool
  blockPlain : Bool
  singleQuoted : Bool
  block : Bool
  deriving Repr

private structure Scan where
  blockIndicators : Bool := false
  flowIndicators : Bool := false
  lineBreaks : Bool := false
  special : Bool := false
  leadingSpace : Bool := false
  leadingBreak : Bool := false
  trailingSpace : Bool := false
  trailingBreak : Bool := false
  breakSpace : Bool := false
  spaceBreak : Bool := false
  previousSpace : Bool := false
  previousBreak : Bool := false

private def scanChars (first : Bool) (preceded : Bool) (s : Scan) : List Char → Scan
  | [] => s
  | c :: rest =>
    let followed := isBlankOrEnd rest.head?
    let s :=
      if first then
        let s := if "#,[]\x7b\x7d&*!|>'\"%@`".toList.contains c then
          { s with flowIndicators := true, blockIndicators := true } else s
        let s := if c == '?' || c == ':' then
          { s with flowIndicators := true, blockIndicators := s.blockIndicators || followed } else s
        if c == '-' && followed then { s with flowIndicators := true, blockIndicators := true }
        else s
      else
        let s := if ",?[]\x7b\x7d".toList.contains c then { s with flowIndicators := true } else s
        let s := if c == ':' then
          { s with flowIndicators := true, blockIndicators := s.blockIndicators || followed } else s
        if c == '#' && preceded then { s with flowIndicators := true, blockIndicators := true }
        else s
    let s := if !isPrintable c then { s with special := true } else s
    let s := if isBreak c then { s with lineBreaks := true } else s
    let s :=
      if c == ' ' then
        { s with leadingSpace := s.leadingSpace || first,
                 trailingSpace := s.trailingSpace || rest.isEmpty,
                 breakSpace := s.breakSpace || s.previousBreak,
                 previousSpace := true, previousBreak := false }
      else if isBreak c then
        { s with leadingBreak := s.leadingBreak || first,
                 trailingBreak := s.trailingBreak || rest.isEmpty,
                 spaceBreak := s.spaceBreak || s.previousSpace,
                 previousSpace := false, previousBreak := true }
      else { s with previousSpace := false, previousBreak := false }
    scanChars false (isBlankOrEnd (some c)) s rest

def analyze (cs : List Char) : ScalarFreedom :=
  if cs.isEmpty then ⟨false, false, true, true, false⟩
  else
    let marker := ['-', '-', '-'].isPrefixOf cs || ['.', '.', '.'].isPrefixOf cs
    let s := scanChars true true { blockIndicators := marker, flowIndicators := marker } cs
    let edges := s.leadingSpace || s.leadingBreak || s.trailingSpace || s.trailingBreak
    let hard := s.spaceBreak || s.special
    { multiline := s.lineBreaks
      flowPlain := !(edges || s.breakSpace || hard || s.lineBreaks || s.flowIndicators)
      blockPlain := !(edges || s.breakSpace || hard || s.lineBreaks || s.blockIndicators)
      singleQuoted := !(s.breakSpace || hard)
      block := !(s.trailingSpace || hard) }

/-- The styles of scalars. -/
inductive Style where
  | plain
  | singleQuoted
  | doubleQuoted
  | literal
  deriving DecidableEq, Repr

def chooseStyle (asked : Style) (f : ScalarFreedom) (simpleKey : Bool) (empty : Bool) : Style :=
  let s := if simpleKey && f.multiline then Style.doubleQuoted else asked
  let s := if s == .plain && (!f.blockPlain || (empty && simpleKey)) then .singleQuoted else s
  let s := if s == .singleQuoted && !f.singleQuoted then .doubleQuoted else s
  if s == .literal && (!f.block || simpleKey) then .doubleQuoted else s

def askedStyle (s : String) : Style :=
  if s.toList.contains '\n' then .literal
  else match resolve s with
    | .text => if digitsButNotNumber s.toList then .singleQuoted else .plain
    | _ => .singleQuoted

/-- The writer's position: the text so far, the column, and whether the last thing written
was blank or indentation. -/
structure Emitter where
  out : String := ""
  column : Nat := 0
  whitespace : Bool := true
  indention : Bool := true

namespace Emitter

def put (e : Emitter) (c : Char) : Emitter := { e with out := e.out.push c, column := e.column + 1 }

def putBreak (e : Emitter) : Emitter := { e with out := e.out.push '\n', column := 0 }

def writeBreak (e : Emitter) (c : Char) : Emitter :=
  if c == '\n' then e.putBreak else { e with out := e.out.push c, column := 0 }

def putSpaces (e : Emitter) : Nat → Emitter
  | 0 => e
  | n + 1 => (e.put ' ').putSpaces n

def writeIndent (e : Emitter) (indent : Int) : Emitter :=
  let ind := indent.toNat
  let e := if !e.indention || ind < e.column || (e.column == ind && !e.whitespace) then e.putBreak
    else e
  { e.putSpaces (ind - e.column) with whitespace := true, indention := true }

def writeIndicator (e : Emitter) (s : String) (needWs isWs isIndention : Bool) : Emitter :=
  let e := if needWs && !e.whitespace then e.put ' ' else e
  let e := s.toList.foldl put e
  { e with whitespace := isWs, indention := e.indention && isIndention }

def plainBody (indent : Int) (allowBreaks : Bool) (e : Emitter) (spaces : Bool) :
    List Char → Emitter
  | [] => e
  | c :: rest =>
    if c == ' ' then
      if allowBreaks && !spaces && bestWidth < e.column && rest.head? != some ' ' then
        plainBody indent allowBreaks (e.writeIndent indent) true rest
      else plainBody indent allowBreaks (e.put c) true rest
    else plainBody indent allowBreaks { e.put c with indention := false } false rest

def writePlain (e : Emitter) (cs : List Char) (indent : Int) (allowBreaks : Bool) : Emitter :=
  let e := if !e.whitespace && !cs.isEmpty then e.put ' ' else e
  { plainBody indent allowBreaks e false cs with whitespace := false, indention := false }

def singleBody (indent : Int) (allowBreaks : Bool) (e : Emitter) (first spaces breaks : Bool) :
    List Char → Emitter × Bool
  | [] => (e, breaks)
  | c :: rest =>
    if c == ' ' then
      if allowBreaks && !spaces && bestWidth < e.column && !first && !rest.isEmpty &&
          rest.head? != some ' ' then
        singleBody indent allowBreaks (e.writeIndent indent) false true breaks rest
      else singleBody indent allowBreaks (e.put c) false true breaks rest
    else if isBreak c then
      let e := if !breaks && c == '\n' then e.putBreak else e
      singleBody indent allowBreaks { e.writeBreak c with indention := true } false spaces true rest
    else
      let e := if breaks then e.writeIndent indent else e
      let e := if c == '\'' then e.put '\'' else e
      singleBody indent allowBreaks { e.put c with indention := false } false false false rest

def writeSingleQuoted (e : Emitter) (cs : List Char) (indent : Int) (allowBreaks : Bool) :
    Emitter :=
  let e := e.writeIndicator "'" true false false
  let (e, breaks) := singleBody indent allowBreaks e true false false cs
  let e := if breaks then e.writeIndent indent else e
  { e.writeIndicator "'" false false false with whitespace := false, indention := false }

private def hexUpper (n : Nat) : Char :=
  if n < 10 then Char.ofNat ('0'.toNat + n) else Char.ofNat ('A'.toNat + n - 10)

def escapeText (c : Char) : String :=
  match c.toNat with
  | 0x00 => "0" | 0x07 => "a" | 0x08 => "b" | 0x09 => "t" | 0x0A => "n" | 0x0B => "v"
  | 0x0C => "f" | 0x0D => "r" | 0x1B => "e" | 0x22 => "\"" | 0x5C => "\\" | 0x85 => "N"
  | 0xA0 => "_" | 0x2028 => "L" | 0x2029 => "P"
  | n =>
    let (mark, width) := if n ≤ 0xFF then ('x', 2) else if n ≤ 0xFFFF then ('u', 4) else ('U', 8)
    String.ofList (mark :: (List.range width).reverse.map fun k => hexUpper ((n / Nat.pow 16 k) % 16))

def needsEscape (c : Char) : Bool :=
  !isPrintable c || c.toNat == 0xFEFF || isBreak c || c == '"' || c == '\\'

def doubleBody (indent : Int) (allowBreaks : Bool) (e : Emitter) (first spaces : Bool) :
    List Char → Emitter
  | [] => e
  | c :: rest =>
    if needsEscape c then
      let e := (escapeText c).toList.foldl put (e.put '\\')
      doubleBody indent allowBreaks e false false rest
    else if c == ' ' then
      if allowBreaks && !spaces && bestWidth < e.column && !first && !rest.isEmpty then
        let e := e.writeIndent indent
        let e := if rest.head? == some ' ' then e.put '\\' else e
        doubleBody indent allowBreaks e false true rest
      else doubleBody indent allowBreaks (e.put c) false true rest
    else doubleBody indent allowBreaks (e.put c) false false rest

def writeDoubleQuoted (e : Emitter) (cs : List Char) (indent : Int) (allowBreaks : Bool) :
    Emitter :=
  let e := e.writeIndicator "\"" true false false
  let e := doubleBody indent allowBreaks e true false cs
  { e.writeIndicator "\"" false false false with whitespace := false, indention := false }

def blockHints (cs : List Char) : String :=
  let indentHint := match cs.head? with
    | some c => if c == ' ' || isBreak c then toString bestIndent else ""
    | none => ""
  let chomp := match cs.reverse with
    | [] => "-"
    | c :: before =>
      if !isBreak c then "-"
      else match before with
        | [] => "+"
        | d :: _ => if isBreak d then "+" else ""
  indentHint ++ chomp

def literalBody (indent : Int) (e : Emitter) (breaks : Bool) : List Char → Emitter
  | [] => e
  | c :: rest =>
    if isBreak c then literalBody indent { e.writeBreak c with indention := true } true rest
    else
      let e := if breaks then e.writeIndent indent else e
      literalBody indent { e.put c with indention := false } false rest

def writeLiteral (e : Emitter) (cs : List Char) (indent : Int) : Emitter :=
  let e := e.writeIndicator "|" true false false
  let hints := blockHints cs
  let e := if hints.isEmpty then e else e.writeIndicator hints false false false
  let e := { e.putBreak with indention := true, whitespace := true }
  literalBody indent e true cs

end Emitter

def deeper (indent : Int) (scalar : Bool) : Int :=
  if indent < 0 then (if scalar then bestIndent else 0) else indent + bestIndent

def Emitter.scalar (e : Emitter) (text : String) (asked : Style) (indent : Int)
    (simpleKey : Bool) : Emitter :=
  let cs := text.toList
  let f := analyze cs
  let inner := deeper indent true
  match chooseStyle asked f simpleKey cs.isEmpty with
  | .plain => e.writePlain cs inner (!simpleKey)
  | .singleQuoted => e.writeSingleQuoted cs inner (!simpleKey)
  | .doubleQuoted => e.writeDoubleQuoted cs inner (!simpleKey)
  | .literal => e.writeLiteral cs inner

def numberText : Number → String
  | .nat n => toString n
  | .negInt i => toString i
  | .float x =>
    match x.shape with
    | .nan => ".nan"
    | .infinite => if x.negative then "-.inf" else ".inf"
    | .finite _ _ => x.finiteText floatStyle

def simpleKey (k : String) : Bool := !(analyze k.toList).multiline && k.utf8ByteSize ≤ 128

mutual

def Emitter.node (e : Emitter) (indent : Int) (inMapping : Bool) : Value → Emitter
  | .null => e.scalar "null" .plain indent false
  | .bool b => e.scalar (if b then "true" else "false") .plain indent false
  | .number n => e.scalar (numberText n) .plain indent false
  | .string s => e.scalar s (askedStyle s) indent false
  | .array [] => (e.writeIndicator "[" true true false).writeIndicator "]" false false false
  | .array (v :: vs) =>
    let inner := if inMapping && !e.indention then (if indent < 0 then 0 else indent)
      else deeper indent false
    e.items inner (v :: vs)
  | .object [] => (e.writeIndicator "\x7b" true true false).writeIndicator "\x7d" false false false
  | .object (f :: fs) => e.entries (deeper indent false) (f :: fs)

/-- Sequence items, each after `- ` on its own line. -/
def Emitter.items (e : Emitter) (indent : Int) : List Value → Emitter
  | [] => e
  | v :: vs =>
    let e := (e.writeIndent indent).writeIndicator "-" true false true
    (e.node indent false v).items indent vs

/-- Mapping entries, each key on its own line. -/
def Emitter.entries (e : Emitter) (indent : Int) : List (String × Value) → Emitter
  | [] => e
  | (k, v) :: rest =>
    let e := e.writeIndent indent
    let e :=
      if simpleKey k then
        let e := e.scalar k (askedStyle k) indent true
        let e := e.writeIndicator ":" false false false
        e.node indent true v
      else
        let e := e.writeIndicator "?" true false true
        let e := e.scalar k (askedStyle k) indent false
        let e := (e.writeIndent indent).writeIndicator ":" true false true
        e.node indent true v
    e.entries indent rest

end

def write (v : Value) : String :=
  let e := ({} : Emitter).node (-1) false v
  (e.writeIndent 0).out

end ConfigTabs.Yaml
