import ConfigTabs.Value.Basic
/-!
Reading JSON text in one pass, with line and byte column for messages and numbers read as the
documents' producer reads them.
-/
namespace ConfigTabs.Json

/-- The reasons reading can stop. `schema` carries a message about the shape of the data. -/
inductive ErrorCode where
  | eofWhileParsingList
  | eofWhileParsingObject
  | eofWhileParsingString
  | eofWhileParsingValue
  | expectedColon
  | expectedListCommaOrEnd
  | expectedObjectCommaOrEnd
  | expectedSomeIdent
  | expectedSomeValue
  | invalidEscape
  | invalidNumber
  | numberOutOfRange
  | controlCharacterWhileParsingString
  | keyMustBeAString
  | loneLeadingSurrogateInHexEscape
  | trailingComma
  | trailingCharacters
  | unexpectedEndOfHexEscape
  | recursionLimitExceeded
  | schema (message : String)
  deriving DecidableEq, Repr

/-- The text of each reason. -/
def ErrorCode.message : ErrorCode → String
  | .eofWhileParsingList => "EOF while parsing a list"
  | .eofWhileParsingObject => "EOF while parsing an object"
  | .eofWhileParsingString => "EOF while parsing a string"
  | .eofWhileParsingValue => "EOF while parsing a value"
  | .expectedColon => "expected `:`"
  | .expectedListCommaOrEnd => "expected `,` or `]`"
  | .expectedObjectCommaOrEnd => "expected `,` or `\x7d`"
  | .expectedSomeIdent => "expected ident"
  | .expectedSomeValue => "expected value"
  | .invalidEscape => "invalid escape"
  | .invalidNumber => "invalid number"
  | .numberOutOfRange => "number out of range"
  | .controlCharacterWhileParsingString =>
    "control character (\\u0000-\\u001F) found while parsing a string"
  | .keyMustBeAString => "key must be a string"
  | .loneLeadingSurrogateInHexEscape => "lone leading surrogate in hex escape"
  | .trailingComma => "trailing comma"
  | .trailingCharacters => "trailing characters"
  | .unexpectedEndOfHexEscape => "unexpected end of hex escape"
  | .recursionLimitExceeded => "recursion limit exceeded"
  | .schema m => m

/-- A reading failure with its 1-based line and byte column. -/
structure Error where
  code : ErrorCode
  line : Nat
  column : Nat
  deriving DecidableEq, Repr

def Error.message (e : Error) : String :=
  e.code.message ++ " at line " ++ toString e.line ++ " column " ++ toString e.column

/-- The unread text with the position reached and the nesting still allowed. -/
structure Cursor where
  rest : List Char
  line : Nat := 1
  column : Nat := 0
  depth : Nat := 128
  deriving Repr, Inhabited

abbrev Read (α : Type) := Except Error (α × Cursor)

namespace Cursor

def ofString (s : String) : Cursor := { rest := s.toList }

def peek? (c : Cursor) : Option Char := c.rest.head?

def bump (c : Cursor) : Cursor :=
  match c.rest with
  | [] => c
  | '\n' :: r => { c with rest := r, line := c.line + 1, column := 0 }
  | ch :: r => { c with rest := r, column := c.column + ch.utf8Size }

@[simp] theorem rest_bump (c : Cursor) : c.bump.rest = c.rest.tail := by
  unfold bump; split <;> simp_all

def bumpBytes (c : Cursor) (n : Nat) : Cursor :=
  if _h : n = 0 then c
  else
    match c.rest with
    | [] => c
    | ch :: _ =>
      if ch.utf8Size ≤ n then c.bump.bumpBytes (n - ch.utf8Size)
      else { c with column := c.column + n, rest := [] }
termination_by n
decreasing_by have := Char.utf8Size_pos ch; omega

def skipBlank (c : Cursor) : Cursor :=
  match _h : c.rest with
  | ch :: _ => if ch == ' ' || ch == '\t' || ch == '\n' || ch == '\r' then skipBlank c.bump else c
  | [] => c
termination_by c.rest.length
decreasing_by all_goals simp_all

/-- A fault at the position reached. -/
def error (c : Cursor) (code : ErrorCode) : Error := ⟨code, c.line, c.column⟩

def peekError (c : Cursor) (code : ErrorCode) : Error :=
  match c.rest with
  | [] => ⟨code, c.line, c.column⟩
  | '\n' :: _ => ⟨code, c.line + 1, 0⟩
  | _ :: _ => ⟨code, c.line, c.column + 1⟩

def atEnd (c : Cursor) : Cursor := c.rest.foldl (fun (d : Cursor) _ => d.bump) c

end Cursor

def readIdent (c : Cursor) : List Char → Except Error Cursor
  | [] => .ok c
  | x :: xs =>
    match c.rest with
    | [] => .error (c.error .eofWhileParsingValue)
    | y :: _ => if x == y then readIdent c.bump xs else .error (c.bump.error .expectedSomeIdent)

def hexDigit? (ch : Char) : Option Nat :=
  if '0' ≤ ch ∧ ch ≤ '9' then some (ch.toNat - '0'.toNat)
  else if 'a' ≤ ch ∧ ch ≤ 'f' then some (ch.toNat - 'a'.toNat + 10)
  else if 'A' ≤ ch ∧ ch ≤ 'F' then some (ch.toNat - 'A'.toNat + 10)
  else none

def readHex4 (c : Cursor) : Except Error (Nat × Cursor) :=
  match c.rest with
  | a :: b :: d :: e :: _ =>
    if a.utf8Size + b.utf8Size + d.utf8Size + e.utf8Size = 4 then
      match hexDigit? a, hexDigit? b, hexDigit? d, hexDigit? e with
      | some w, some x, some y, some z =>
        .ok (((w * 16 + x) * 16 + y) * 16 + z, c.bump.bump.bump.bump)
      | _, _, _, _ => .error ((c.bumpBytes 4).error .invalidEscape)
    else .error ((c.bumpBytes 4).error .invalidEscape)
  | _ =>
    if (String.ofList c.rest).utf8ByteSize ≥ 4 then .error ((c.bumpBytes 4).error .invalidEscape)
    else .error ((c.bumpBytes (String.ofList c.rest).utf8ByteSize).error .eofWhileParsingString)

def readUnicodeEscape (c : Cursor) : Except Error (Char × Cursor) := do
  let (n, c) ← readHex4 c
  if 0xDC00 ≤ n ∧ n ≤ 0xDFFF then throw (c.error .loneLeadingSurrogateInHexEscape)
  if n < 0xD800 ∨ 0xDBFF < n then return (Char.ofNat n, c)
  match c.rest with
  | [] => throw (c.error .eofWhileParsingString)
  | '\\' :: _ =>
    let c := c.bump
    match c.rest with
    | [] => throw (c.error .eofWhileParsingString)
    | 'u' :: _ =>
      let (n₂, c) ← readHex4 c.bump
      if n₂ < 0xDC00 ∨ 0xDFFF < n₂ then throw (c.error .loneLeadingSurrogateInHexEscape)
      return (Char.ofNat (((n - 0xD800) * 0x400 + (n₂ - 0xDC00)) + 0x10000), c)
    | _ => throw (c.bump.error .unexpectedEndOfHexEscape)
  | _ => throw (c.bump.error .unexpectedEndOfHexEscape)

def readStringBody (c : Cursor) (acc : List Char) : Except Error (String × Cursor) :=
  match _h : c.rest with
  | [] => .error (c.error .eofWhileParsingString)
  | '"' :: _ => .ok (String.ofList acc.reverse, c.bump)
  | '\\' :: _ =>
    let c₁ := c.bump
    match c₁.rest with
    | [] => .error (c₁.error .eofWhileParsingString)
    | e :: _ =>
      let c₂ := c₁.bump
      let simple : Option Char := match e with
        | '"' => some '"' | '\\' => some '\\' | '/' => some '/' | 'b' => some '\x08'
        | 'f' => some '\x0c' | 'n' => some '\n' | 'r' => some '\r' | 't' => some '\t'
        | _ => none
      match simple with
      | some ch => readStringBody c₂ (ch :: acc)
      | none =>
        if e == 'u' then
          match readUnicodeEscape c₂ with
          | .error err => .error err
          | .ok (ch, c₃) =>
            if c₃.rest.length < c.rest.length then readStringBody c₃ (ch :: acc)
            else .error (c₃.error .eofWhileParsingString)
        else .error (c₂.error .invalidEscape)
  | ch :: _ =>
    if ch.toNat < 0x20 then .error (c.bump.error .controlCharacterWhileParsingString)
    else readStringBody c.bump (ch :: acc)
termination_by c.rest.length
decreasing_by
  · simp only [Cursor.rest_bump, _h, List.tail_cons, List.length_tail, List.length_cons]
    omega
  · assumption
  · simp [_h]

def pow10 (k : Nat) : Binary64 := Binary64.ofDecimal false 1 k

def scaleDigits (significand : Nat) (exponent : Int) : Option Binary64 :=
  go (Binary64.ofNat significand) exponent 4
where
  go (f : Binary64) (e : Int) : Nat → Option Binary64
    | 0 => some f
    | fuel + 1 =>
      if e.natAbs ≤ 308 then
        if 0 ≤ e then
          let g := f.mul (pow10 e.toNat)
          if g.isInfinite then none else some g
        else some (f.div (pow10 e.natAbs))
      else if f.isZero then some f
      else if 0 ≤ e then none
      else go (f.div (pow10 308)) (e + 308) fuel

def overflows64 (s d : Nat) : Bool := 10 * s + d > Nat.pow 2 64 - 1

def isDigit (ch : Char) : Bool := '0' ≤ ch && ch ≤ '9'

def digitVal (ch : Char) : Nat := ch.toNat - '0'.toNat

def finishFloat (c : Cursor) (positive : Bool) (s : Nat) (e : Int) : Read Number :=
  match scaleDigits s e with
  | none => .error (c.error .numberOutOfRange)
  | some f => .ok (.float (if positive then f else f.neg), c)

def skipDigits (c : Cursor) : Cursor :=
  match _h : c.rest with
  | ch :: _ => if isDigit ch then skipDigits c.bump else c
  | [] => c
termination_by c.rest.length
decreasing_by all_goals simp_all

def readExponentDigits (c : Cursor) (positive zeroSig posExp : Bool) (start : Int)
    (s : Nat) (acc : Nat) : Read Number :=
  match _h : c.rest with
  | ch :: _ =>
    if isDigit ch then
      let d := digitVal ch
      if acc ≥ 2147483647 / 10 ∧ (acc > 2147483647 / 10 ∨ d > 2147483647 % 10) then
        -- too large an exponent: zero for a negative one or zero digits, else out of range
        if !zeroSig && posExp then .error (c.bump.error .numberOutOfRange)
        else .ok (.float (Binary64.zero (!positive)), skipDigits c.bump)
      else readExponentDigits c.bump positive zeroSig posExp start s (acc * 10 + d)
    else finishFloat c positive s (if posExp then start + acc else start - acc)
  | [] => finishFloat c positive s (if posExp then start + acc else start - acc)
termination_by c.rest.length
decreasing_by all_goals simp_all

def readExponent (c : Cursor) (positive : Bool) (s : Nat) (start : Int) : Read Number :=
  let c := c.bump
  let (posExp, c) := match c.rest with
    | '+' :: _ => (true, c.bump)
    | '-' :: _ => (false, c.bump)
    | _ => (true, c)
  match c.rest with
  | [] => .error (c.error .eofWhileParsingValue)
  | ch :: _ =>
    if isDigit ch then readExponentDigits c.bump positive (s == 0) posExp start s (digitVal ch)
    else .error (c.bump.error .invalidNumber)

def readFraction (c : Cursor) (positive : Bool) (s : Nat) (before : Int) (after : Int) :
    Read Number :=
  match _h : c.rest with
  | ch :: _ =>
    if isDigit ch then
      if overflows64 s (digitVal ch) then
        let c := skipDigits c
        match c.rest with
        | 'e' :: _ | 'E' :: _ => readExponent c positive s (before + after)
        | _ => finishFloat c positive s (before + after)
      else readFraction c.bump positive (10 * s + digitVal ch) before (after - 1)
    else fractionEnd c positive s before after
  | [] => fractionEnd c positive s before after
termination_by c.rest.length
decreasing_by all_goals simp_all
where
  fractionEnd (c : Cursor) (positive : Bool) (s : Nat) (before after : Int) : Read Number :=
    if after == 0 then
      match c.rest with
      | [] => .error (c.peekError .eofWhileParsingValue)
      | _ => .error (c.peekError .invalidNumber)
    else
      match c.rest with
      | 'e' :: _ | 'E' :: _ => readExponent c positive s (before + after)
      | _ => finishFloat c positive s (before + after)

def readNumberTail (c : Cursor) (positive : Bool) (s : Nat) : Read Number :=
  match c.rest with
  | '.' :: _ => readFraction c.bump positive s 0 0
  | 'e' :: _ | 'E' :: _ => readExponent c positive s 0
  | _ =>
    if positive then .ok (.nat s, c)
    else if s = 0 then .ok (.float (Binary64.zero true), c)
    else if s ≤ Nat.pow 2 63 then .ok (.negInt (-(s : Int)), c)
    else .ok (.float (Binary64.ofNat s).neg, c)

def readLongInteger (c : Cursor) (positive : Bool) (s : Nat) (extra : Int) : Read Number :=
  match _h : c.rest with
  | ch :: _ =>
    if isDigit ch then readLongInteger c.bump positive s (extra + 1)
    else if ch == '.' then readFraction c.bump positive s extra 0
    else if ch == 'e' || ch == 'E' then readExponent c positive s extra
    else finishFloat c positive s extra
  | [] => finishFloat c positive s extra
termination_by c.rest.length
decreasing_by all_goals simp_all

def readIntegerDigits (c : Cursor) (positive : Bool) (s : Nat) : Read Number :=
  match _h : c.rest with
  | ch :: _ =>
    if isDigit ch then
      if overflows64 s (digitVal ch) then readLongInteger c positive s 0
      else readIntegerDigits c.bump positive (10 * s + digitVal ch)
    else readNumberTail c positive s
  | [] => readNumberTail c positive s
termination_by c.rest.length
decreasing_by all_goals simp_all

def readNumber (c : Cursor) (positive : Bool) : Read Number :=
  match c.rest with
  | [] => .error (c.error .eofWhileParsingValue)
  | '0' :: r =>
    match r with
    | ch :: _ => if isDigit ch then .error (c.bump.peekError .invalidNumber)
                 else readNumberTail c.bump positive 0
    | [] => readNumberTail c.bump positive 0
  | ch :: _ =>
    if isDigit ch then readIntegerDigits c.bump positive (digitVal ch)
    else .error (c.bump.error .invalidNumber)

def enter (c : Cursor) : Except Error Cursor :=
  if c.depth ≤ 1 then .error (c.peekError .recursionLimitExceeded)
  else .ok { c.bump with depth := c.depth - 1 }

def leave (c : Cursor) : Cursor := { c with depth := c.depth + 1 }

def endArray (c : Cursor) : Except Error Cursor :=
  let c := c.skipBlank
  match c.rest with
  | ']' :: _ => .ok c.bump
  | ',' :: _ =>
    let d := c.bump.skipBlank
    match d.rest with
    | ']' :: _ => .error (d.peekError .trailingComma)
    | _ => .error (d.peekError .trailingCharacters)
  | [] => .error (c.peekError .eofWhileParsingList)
  | _ => .error (c.peekError .trailingCharacters)

def endObject (c : Cursor) : Except Error Cursor :=
  let c := c.skipBlank
  match c.rest with
  | '}' :: _ => .ok c.bump
  | ',' :: _ => .error (c.peekError .trailingComma)
  | [] => .error (c.peekError .eofWhileParsingObject)
  | _ => .error (c.peekError .trailingCharacters)

def nextElement (c : Cursor) (first : Bool) : Except Error (Bool × Cursor) :=
  let c := c.skipBlank
  match c.rest with
  | [] => .error (c.peekError .eofWhileParsingList)
  | ']' :: _ => .ok (false, c)
  | ',' :: _ =>
    if first then .ok (true, c)
    else
      let d := c.bump.skipBlank
      match d.rest with
      | ']' :: _ => .error (d.peekError .trailingComma)
      | [] => .error (d.peekError .eofWhileParsingValue)
      | _ => .ok (true, d)
  | _ => if first then .ok (true, c) else .error (c.peekError .expectedListCommaOrEnd)

def nextKey (c : Cursor) (first : Bool) : Except Error (Bool × Cursor) :=
  let c := c.skipBlank
  match c.rest with
  | [] => .error (c.peekError .eofWhileParsingObject)
  | '}' :: _ => .ok (false, c)
  | '"' :: _ => if first then .ok (true, c) else .error (c.peekError .expectedObjectCommaOrEnd)
  | ',' :: _ =>
    if first then .error (c.peekError .keyMustBeAString)
    else
      let d := c.bump.skipBlank
      match d.rest with
      | '"' :: _ => .ok (true, d)
      | '}' :: _ => .error (d.peekError .trailingComma)
      | [] => .error (d.peekError .eofWhileParsingValue)
      | _ => .error (d.peekError .keyMustBeAString)
  | _ => if first then .error (c.peekError .keyMustBeAString)
         else .error (c.peekError .expectedObjectCommaOrEnd)

def readColon (c : Cursor) : Except Error Cursor :=
  let c := c.skipBlank
  match c.rest with
  | ':' :: _ => .ok c.bump
  | [] => .error (c.peekError .eofWhileParsingObject)
  | _ => .error (c.peekError .expectedColon)

def readKey (c : Cursor) : Read String := readStringBody c.bump []

mutual

def readValue : Nat → Cursor → Except Error (Value × Cursor)
  | 0, c => .error (c.error .eofWhileParsingValue)
  | fuel + 1, c =>
    let c := c.skipBlank
    match c.rest with
    | [] => .error (c.peekError .eofWhileParsingValue)
    | 'n' :: _ => (readIdent c.bump ['u', 'l', 'l']).map fun d => (.null, d)
    | 't' :: _ => (readIdent c.bump ['r', 'u', 'e']).map fun d => (.bool true, d)
    | 'f' :: _ => (readIdent c.bump ['a', 'l', 's', 'e']).map fun d => (.bool false, d)
    | '-' :: _ => (readNumber c.bump false).map fun (n, d) => (.number n, d)
    | '"' :: _ => (readStringBody c.bump []).map fun (s, d) => (.string s, d)
    | '[' :: _ => do
      let d ← enter c
      match readElements fuel d [] true with
      | .ok (items, d) =>
        let d ← endArray (leave d)
        return (.array items, d)
      | .error e => throw e
    | '{' :: _ => do
      let d ← enter c
      match readMembers fuel d [] true with
      | .ok (fields, d) =>
        let d ← endObject (leave d)
        return (.object fields, d)
      | .error e => throw e
    | ch :: _ =>
      if '0' ≤ ch ∧ ch ≤ '9' then (readNumber c true).map fun (n, d) => (.number n, d)
      else .error (c.peekError .expectedSomeValue)

def readElements : Nat → Cursor → List Value → Bool → Except Error (List Value × Cursor)
  | 0, c, _, _ => .error (c.error .eofWhileParsingList)
  | fuel + 1, c, acc, first => do
    let (more, c) ← nextElement c first
    if more then
      let (v, d) ← readValue fuel c
      readElements fuel d (v :: acc) false
    else return (acc.reverse, c)

def readMembers : Nat → Cursor → List (String × Value) → Bool →
    Except Error (List (String × Value) × Cursor)
  | 0, c, _, _ => .error (c.error .eofWhileParsingObject)
  | fuel + 1, c, acc, first => do
    let (more, c) ← nextKey c first
    if more then
      let (k, c) ← readKey c
      let c ← readColon c
      let (v, d) ← readValue fuel c
      readMembers fuel d (Value.setField acc k v) false
    else return (acc, c)

end

def fuelFor (c : Cursor) : Nat := 2 * c.rest.length + 2

def finish (c : Cursor) : Except Error Unit :=
  let c := c.skipBlank
  match c.rest with
  | [] => .ok ()
  | _ => .error (c.peekError .trailingCharacters)

/-- Reads a whole text as one value. -/
def parse (s : String) : Except Error Value := do
  let c := Cursor.ofString s
  let (v, c) ← readValue (fuelFor c) c
  finish c
  return v

end ConfigTabs.Json
