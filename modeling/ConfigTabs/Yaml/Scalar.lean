import ConfigTabs.Number.Literal
/-!
What an unquoted yaml scalar denotes: null, a boolean, an integer, a float or text.
-/
namespace ConfigTabs.Yaml

/-- The reading of a plain scalar. Integers are kept whole, with their width class: `small`
fits 64 bits, otherwise the literal fits 128 bits. -/
inductive Plain where
  | null
  | bool (b : Bool)
  | int (i : Int) (small : Bool)
  | float (x : Binary64)
  | text
  deriving Repr

private def startsWithSign : List Char → Bool
  | '+' :: _ | '-' :: _ => true
  | _ => false

def digitsButNotNumber (s : List Char) : Bool :=
  let body := match s with
    | '+' :: r | '-' :: r => r
    | r => r
  1 < body.length && body.head? == some '0' && body.tail.all (fun c => '0' ≤ c && c ≤ '9')

private def stripPrefix? (p s : List Char) : Option (List Char) :=
  if p.isPrefixOf s then some (s.drop p.length) else none

def unsignedInt? (bits : Nat) (s : List Char) : Option Nat :=
  let unpositive? : Option (List Char) := match s with
    | '+' :: r => if startsWithSign r then none else some r
    | r => some r
  unpositive?.bind fun u =>
    let viaPrefix (p : List Char) (radix : Nat) : Option Nat :=
      (stripPrefix? p u).bind fun rest =>
        if startsWithSign rest then none else Literal.parseUnsigned? bits radix rest
    let signed := match stripPrefix? ['0', 'x'] u, stripPrefix? ['0', 'o'] u, stripPrefix? ['0', 'b'] u with
      | some rest, _, _ => if startsWithSign rest then some none else (viaPrefix ['0', 'x'] 16).map some
      | _, some rest, _ => if startsWithSign rest then some none else (viaPrefix ['0', 'o'] 8).map some
      | _, _, some rest => if startsWithSign rest then some none else (viaPrefix ['0', 'b'] 2).map some
      | _, _, _ => none
    match signed with
    | some (some n) => some n
    | some none => none
    | none =>
      if startsWithSign u then none
      else if digitsButNotNumber s then none
      else Literal.parseUnsigned? bits 10 u

def negativeInt? (bits : Nat) (s : List Char) : Option Int :=
  let viaPrefix (p : List Char) (radix : Nat) : Option (Option Int) :=
    (stripPrefix? p s).map fun rest =>
      if startsWithSign rest then none else Literal.parseSigned? bits radix ('-' :: rest)
  let tried := match viaPrefix ['-', '0', 'x'] 16 with
    | some r => some r
    | none => match viaPrefix ['-', '0', 'o'] 8 with
      | some r => some r
      | none => viaPrefix ['-', '0', 'b'] 2
  match tried with
  | some (some i) => some i
  | some none => if (stripPrefix? ['-', '0', 'x'] s).any startsWithSign ||
                    (stripPrefix? ['-', '0', 'o'] s).any startsWithSign ||
                    (stripPrefix? ['-', '0', 'b'] s).any startsWithSign then none
                 else decimal
  | none => decimal
where
  decimal : Option Int := if digitsButNotNumber s then none else Literal.parseSigned? bits 10 s

def float? (s : List Char) : Option Binary64 :=
  let unpositive? : Option (List Char) := match s with
    | '+' :: r => if startsWithSign r then none else some r
    | r => some r
  unpositive?.bind fun u =>
    let w := String.ofList u
    if w == ".inf" || w == ".Inf" || w == ".INF" then some (Binary64.infinity false)
    else
      let w' := String.ofList s
      if w' == "-.inf" || w' == "-.Inf" || w' == "-.INF" then some (Binary64.infinity true)
      else if w' == ".nan" || w' == ".NaN" || w' == ".NAN" then some Binary64.nan
      else match Literal.parseFloat? u with
        | some x => if x.isFinite then some x else none
        | none => none

def isNullWord (s : String) : Bool :=
  s.isEmpty || s == "~" || s == "null" || s == "Null" || s == "NULL"

def boolWord? (s : String) : Option Bool :=
  if s == "true" || s == "True" || s == "TRUE" then some true
  else if s == "false" || s == "False" || s == "FALSE" then some false
  else none

/-- The reading of a plain scalar, in the order: null, boolean, integer, float, text. -/
def resolve (s : String) : Plain :=
  let cs := s.toList
  if isNullWord s then .null
  else match boolWord? s with
    | some b => .bool b
    | none =>
      match unsignedInt? 64 cs with
      | some n => .int n true
      | none => match negativeInt? 64 cs with
        | some i => .int i true
        | none => match unsignedInt? 128 cs with
          | some n => .int n false
          | none => match negativeInt? 128 cs with
            | some i => .int i false
            | none =>
              if digitsButNotNumber cs then .text
              else match float? cs with
                | some x => .float x
                | none => .text

end ConfigTabs.Yaml
