/-!
Double-precision numbers kept as their 64-bit word, with rounding of exact ratios to the
nearest double.
-/
namespace ConfigTabs

/-- An IEEE 754 binary64 number, stored as its raw word. -/
structure Binary64 where
  bits : UInt64
  deriving DecidableEq, Repr, Inhabited

/-- What a word denotes: a NaN, an infinity, or the finite magnitude `m · 2 ^ q`. -/
inductive Binary64.Shape where
  | nan
  | infinite
  | finite (m : Nat) (q : Int)
  deriving DecidableEq, Repr

namespace Binary64

def fraction (x : Binary64) : Nat := x.bits.toNat % Nat.pow 2 52

def biasedExponent (x : Binary64) : Nat := (x.bits.toNat / Nat.pow 2 52) % Nat.pow 2 11

def negative (x : Binary64) : Bool := decide (Nat.pow 2 63 ≤ x.bits.toNat)

/-- Decodes the magnitude; subnormals share the exponent of the smallest normal. -/
def shape (x : Binary64) : Shape :=
  let e := x.biasedExponent
  let f := x.fraction
  if e = 2047 then (if f = 0 then .infinite else .nan)
  else if e = 0 then .finite f (-1074)
  else .finite (Nat.pow 2 52 + f) ((e : Int) - 1075)

def ofFields (neg : Bool) (e f : Nat) : Binary64 :=
  ⟨UInt64.ofNat ((if neg then Nat.pow 2 63 else 0) + e * Nat.pow 2 52 + f)⟩

def zero (neg : Bool) : Binary64 := ofFields neg 0 0

def infinity (neg : Bool) : Binary64 := ofFields neg 2047 0

def nan : Binary64 := ofFields false 2047 (Nat.pow 2 51)

def isNaN (x : Binary64) : Bool := x.shape == .nan

def isInfinite (x : Binary64) : Bool := x.shape == .infinite

def isFinite (x : Binary64) : Bool :=
  match x.shape with
  | .finite _ _ => true
  | _ => false

def isZero (x : Binary64) : Bool := x.shape == .finite 0 (-1074)

def neg (x : Binary64) : Binary64 :=
  ⟨UInt64.ofNat ((x.bits.toNat + Nat.pow 2 63) % Nat.pow 2 64)⟩

def roundHalfEven (n d : Nat) : Nat :=
  let q := n / d
  let r := n % d
  if 2 * r < d then q
  else if d < 2 * r then q + 1
  else if q % 2 = 0 then q else q + 1

def floorLog2Ratio (n d : Nat) : Int :=
  let a := Nat.log2 n
  let b := Nat.log2 d
  let reaches : Bool :=
    if b ≤ a then decide (d * Nat.pow 2 (a - b) ≤ n) else decide (d ≤ n * Nat.pow 2 (b - a))
  if reaches then (a : Int) - b else (a : Int) - b - 1

def roundShifted (n d : Nat) (s : Int) : Nat :=
  if 0 ≤ s then roundHalfEven (n * Nat.pow 2 s.toNat) d else roundHalfEven n (d * Nat.pow 2 (-s).toNat)

def ofRatio (neg : Bool) (n d : Nat) : Binary64 :=
  let d := if d = 0 then 1 else d
  if n = 0 then zero neg
  else
    let e := floorLog2Ratio n d
    if e < -1022 then
      -- subnormal: a significand that rounds up to 2 ^ 52 is the smallest normal word
      ofFields neg 0 (roundShifted n d 1074)
    else
      let m := roundShifted n d (52 - e)
      let (m, e) := if m = Nat.pow 2 53 then (Nat.pow 2 52, e + 1) else (m, e)
      if 1024 ≤ e then infinity neg else ofFields neg (e + 1023).toNat (m - Nat.pow 2 52)

def ofNat (n : Nat) : Binary64 := ofRatio false n 1

def ratio (m : Nat) (q : Int) : Nat × Nat :=
  if 0 ≤ q then (m * Nat.pow 2 q.toNat, 1) else (m, Nat.pow 2 (-q).toNat)

def mul (x y : Binary64) : Binary64 :=
  let s := x.negative != y.negative
  match x.shape, y.shape with
  | .finite m₁ q₁, .finite m₂ q₂ =>
    let (n, d) := ratio (m₁ * m₂) (q₁ + q₂)
    ofRatio s n d
  | .infinite, .finite m _ => if m = 0 then nan else infinity s
  | .finite m _, .infinite => if m = 0 then nan else infinity s
  | .infinite, .infinite => infinity s
  | _, _ => nan

def div (x y : Binary64) : Binary64 :=
  let s := x.negative != y.negative
  match x.shape, y.shape with
  | .finite m₁ q₁, .finite m₂ q₂ =>
    if m₂ = 0 then (if m₁ = 0 then nan else infinity s)
    else
      let (n₁, d₁) := ratio m₁ q₁
      let (n₂, d₂) := ratio m₂ q₂
      ofRatio s (n₁ * d₂) (d₁ * n₂)
  | .finite _ _, .infinite => zero s
  | .infinite, .finite _ _ => infinity s
  | _, _ => nan

def ofDecimal (neg : Bool) (digits : Nat) (exp10 : Int) : Binary64 :=
  if digits = 0 then zero neg
  else
    let size : Int := (Nat.toDigits 10 digits).length
    if 310 < exp10 + size then infinity neg
    else if exp10 + size < -330 then zero neg
    else if 0 ≤ exp10 then ofRatio neg (digits * Nat.pow 10 exp10.toNat) 1
    else ofRatio neg digits (Nat.pow 10 (-exp10).toNat)

end Binary64

end ConfigTabs
