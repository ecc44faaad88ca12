import ConfigTabs.Number.Binary64
/-!
Reading integer literals in a radix and width, and decimal floats rounded to the nearest
double.
-/
namespace ConfigTabs.Literal

def digitValue? (radix : Nat) (c : Char) : Option Nat :=
  let v :=
    if '0' ≤ c ∧ c ≤ '9' then c.toNat - '0'.toNat
    else if 'a' ≤ c ∧ c ≤ 'z' then c.toNat - 'a'.toNat + 10
    else if 'A' ≤ c ∧ c ≤ 'Z' then c.toNat - 'A'.toNat + 10
    else 36
  if v < radix then some v else none

def digitsValue? (radix : Nat) (cs : List Char) : Option Nat :=
  if cs.isEmpty then none
  else cs.foldl (fun acc c => acc.bind fun a => (digitValue? radix c).map (a * radix + ·)) (some 0)

/-- An unsigned literal below `2 ^ bits`, with an optional `+`. -/
def parseUnsigned? (bits radix : Nat) (s : List Char) : Option Nat :=
  let body := match s with
    | '+' :: r => r
    | r => r
  (digitsValue? radix body).bind fun n => if n < Nat.pow 2 bits then some n else none

def parseSigned? (bits radix : Nat) (s : List Char) : Option Int :=
  let (neg, body) := match s with
    | '+' :: r => (false, r)
    | '-' :: r => (true, r)
    | r => (false, r)
  (digitsValue? radix body).bind fun n =>
    if neg then (if n ≤ Nat.pow 2 (bits - 1) then some (-(n : Int)) else none)
    else if n < Nat.pow 2 (bits - 1) then some (n : Int) else none

private def lower (c : Char) : Char := c.toLower

def specialFloat? (neg : Bool) (s : List Char) : Option Binary64 :=
  let w := String.ofList (s.map lower)
  if w == "inf" || w == "infinity" then some (Binary64.infinity neg)
  else if w == "nan" then some (if neg then Binary64.nan.neg else Binary64.nan)
  else none

private def isDigit (c : Char) : Bool := '0' ≤ c && c ≤ '9'

def decimalParts? (s : List Char) : Option (Nat × Int) :=
  let intPart := s.takeWhile isDigit
  let r := s.dropWhile isDigit
  let (fracPart, r) := match r with
    | '.' :: r' => (r'.takeWhile isDigit, r'.dropWhile isDigit)
    | _ => ([], r)
  if intPart.isEmpty && fracPart.isEmpty then none
  else
    let mant := (digitsValue? 10 (intPart ++ fracPart)).getD 0
    let scale : Int := -(fracPart.length : Int)
    match r with
    | [] => some (mant, scale)
    | e :: r' =>
      if e == 'e' || e == 'E' then
        let (eneg, ds) := match r' with
          | '+' :: t => (false, t)
          | '-' :: t => (true, t)
          | t => (false, t)
        match digitsValue? 10 ds with
        | some n => some (mant, scale + (if eneg then -(n : Int) else n))
        | none => none
      else none

def parseFloat? (s : List Char) : Option Binary64 :=
  let (neg, body) := match s with
    | '+' :: r => (false, r)
    | '-' :: r => (true, r)
    | r => (false, r)
  match specialFloat? neg body with
  | some x => some x
  | none => (decimalParts? body).map fun (m, e) => Binary64.ofDecimal neg m e

end ConfigTabs.Literal
