import ConfigTabs.Number.Shortest
/-!
Writing a decimal as text, positionally or in scientific form outside a window.
-/
namespace ConfigTabs

/-- The decisions a format makes when it writes a double. -/
structure FloatStyle where
  /-- Scientific notation outside the window; `false` writes every digit positionally. -/
  scientific : Bool
  /-- Largest position of the decimal point, counted from the first digit, written plainly. -/
  pointAtMost : Int := 16
  /-- Positions of the decimal point at or below this are written with an exponent. -/
  pointAbove : Int := -5
  /-- A `+` before a positive exponent. -/
  exponentPlus : Bool := false
  /-- Suffix after an integral value written plainly. -/
  integralSuffix : String := ".0"
  deriving Repr

namespace Decimal

private def zeros (n : Nat) : String := String.ofList (List.replicate n '0')

def positionalText (style : FloatStyle) (d : Decimal) : String :=
  let ds := d.digitChars
  let len : Int := ds.length
  let point := len + d.exponent
  if 0 ≤ d.exponent then String.ofList ds ++ zeros d.exponent.toNat ++ style.integralSuffix
  else if 0 < point then
    String.ofList (ds.take point.toNat) ++ "." ++ String.ofList (ds.drop point.toNat)
  else "0." ++ zeros (-point).toNat ++ String.ofList ds

def scientificText (style : FloatStyle) (d : Decimal) : String :=
  let ds := d.digitChars
  let e := (ds.length : Int) + d.exponent - 1
  let mant := match ds with
    | [c] => String.singleton c
    | c :: rest => String.singleton c ++ "." ++ String.ofList rest
    | [] => "0"
  let sign := if e < 0 then "-" else if style.exponentPlus then "+" else ""
  mant ++ "e" ++ sign ++ toString e.natAbs

def text (style : FloatStyle) (d : Decimal) : String :=
  let point := (d.digitChars.length : Int) + d.exponent
  if !style.scientific then positionalText style d
  else if 0 ≤ d.exponent ∧ point ≤ style.pointAtMost then positionalText style d
  else if 0 < point ∧ point ≤ style.pointAtMost then positionalText style d
  else if style.pointAbove < point ∧ point ≤ 0 then positionalText style d
  else scientificText style d

end Decimal

namespace Binary64

def finiteText (style : FloatStyle) (x : Binary64) : String :=
  (if x.negative then "-" else "") ++ x.shortest.text style

end Binary64

end ConfigTabs
