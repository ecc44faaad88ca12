import ConfigTabs.Number.Binary64
/-!
The shortest decimal text of a finite double: the fewest significant digits whose grid
neighbour lies in the double's rounding interval.
-/
namespace ConfigTabs

/-- A decimal `digits · 10 ^ exponent` with no trailing zero in `digits` (unless it is zero). -/
structure Decimal where
  digits : Nat
  exponent : Int
  deriving DecidableEq, Repr, Inhabited

namespace Decimal

def normalize (d : Decimal) : Decimal :=
  go d.digits d.exponent d.digits
where
  go (m : Nat) (e : Int) : Nat → Decimal
    | 0 => ⟨m, e⟩
    | fuel + 1 => if m ≠ 0 ∧ m % 10 = 0 then go (m / 10) (e + 1) fuel else ⟨m, e⟩

def digitChars (d : Decimal) : List Char := Nat.toDigits 10 d.digits

def compareScaled (num den c : Nat) (k : Int) : Ordering :=
  if 0 ≤ k then compare num (c * Nat.pow 10 k.toNat * den)
  else compare (num * Nat.pow 10 (-k).toNat) (c * den)

def floorLog10 (num den : Nat) : Int :=
  let est : Int := ((Nat.log2 num : Int) - Nat.log2 den) * 30103 / 100000
  -- the estimate is off by at most two; step down while 10 ^ e exceeds the ratio, then up
  let down := stepDown num den est 4
  stepUp num den down 4
where
  stepDown (num den : Nat) (e : Int) : Nat → Int
    | 0 => e
    | fuel + 1 => if compareScaled num den 1 e == .lt then stepDown num den (e - 1) fuel else e
  stepUp (num den : Nat) (e : Int) : Nat → Int
    | 0 => e
    | fuel + 1 => if compareScaled num den 1 (e + 1) != .lt then stepUp num den (e + 1) fuel else e

end Decimal

namespace Binary64

def roundingInterval (m : Nat) (q : Int) (narrowBelow : Bool) : Nat × Nat × Nat × Nat :=
  let below := if narrowBelow then 4 * m - 1 else 4 * m - 2
  let above := 4 * m + 2
  let s := q - 2
  if 0 ≤ s then (below * Nat.pow 2 s.toNat, 4 * m * Nat.pow 2 s.toNat, above * Nat.pow 2 s.toNat, 1)
  else (below, 4 * m, above, Nat.pow 2 (-s).toNat)

def inInterval (low high den c : Nat) (k : Int) (closed : Bool) : Bool :=
  let lo := Decimal.compareScaled low den c k
  let hi := Decimal.compareScaled high den c k
  if closed then lo != .gt && hi != .lt else lo == .lt && hi == .gt

def shortestOf (m : Nat) (q : Int) (narrowBelow : Bool) : Decimal :=
  let (low, v, high, den) := roundingInterval m q narrowBelow
  let closed := m % 2 == 0
  let top := Decimal.floorLog10 v den
  search low v high den closed top 1 17
where
  search (low v high den : Nat) (closed : Bool) (top : Int) (n : Nat) : Nat → Decimal
    | 0 => ⟨0, 0⟩
    | fuel + 1 =>
      let k := top - n + 1
      -- the lower neighbour on the grid 10 ^ k, and whether the value sits on the grid
      let c := if 0 ≤ k then v / (Nat.pow 10 k.toNat * den) else v * Nat.pow 10 (-k).toNat / den
      let exact := Decimal.compareScaled v den c k == .eq
      if exact then (Decimal.normalize ⟨c, k⟩)
      else
        let loIn := inInterval low high den c k closed
        let hiIn := inInterval low high den (c + 1) k closed
        if loIn && hiIn then
          -- distances v - c·10^k and (c+1)·10^k - v compared through 2v against (2c+1)·10^k
          match Decimal.compareScaled (2 * v) den (2 * c + 1) k with
          | .lt => Decimal.normalize ⟨c, k⟩
          | .gt => Decimal.normalize ⟨c + 1, k⟩
          | .eq => Decimal.normalize ⟨if c % 2 = 0 then c else c + 1, k⟩
        else if loIn then Decimal.normalize ⟨c, k⟩
        else if hiIn then Decimal.normalize ⟨c + 1, k⟩
        else if fuel = 0 then Decimal.normalize ⟨c, k⟩
        else search low v high den closed top (n + 1) fuel

def shortest (x : Binary64) : Decimal :=
  match x.shape with
  | .finite m q =>
    if m = 0 then ⟨0, 0⟩
    else shortestOf m q (x.fraction = 0 && 1 < x.biasedExponent)
  | _ => ⟨0, 0⟩

end Binary64

end ConfigTabs
