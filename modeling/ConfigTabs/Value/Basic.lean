import ConfigTabs.Number.Binary64
/-!
The data model shared by the three formats: a tree of nulls, booleans, numbers, strings,
arrays and objects whose fields keep their order.
-/
namespace ConfigTabs

inductive Number where
  /-- A natural number below `2 ^ 64`. -/
  | nat (n : Nat)
  /-- A negative integer, at least `-2 ^ 63`. -/
  | negInt (n : Int)
  /-- Any other number, as a double. -/
  | float (x : Binary64)
  deriving DecidableEq, Repr, Inhabited

/-- A data value; object fields are kept in writing order. -/
inductive Value where
  | null
  | bool (b : Bool)
  | number (n : Number)
  | string (s : String)
  | array (items : List Value)
  | object (fields : List (String × Value))
  deriving Repr, Inhabited

namespace Number

def ofInt (i : Int) : Number :=
  if 0 ≤ i then (if i.toNat < Nat.pow 2 64 then .nat i.toNat else .float (Binary64.ofNat i.toNat))
  else if -(Nat.pow 2 63 : Int) ≤ i then .negInt i
  else .float (Binary64.ofRatio true i.natAbs 1)

end Number

namespace Value

def setField (fields : List (String × Value)) (key : String) (v : Value) : List (String × Value) :=
  if fields.any (fun p => p.1 == key) then
    fields.map (fun p => if p.1 == key then (key, v) else p)
  else fields ++ [(key, v)]

def field? (v : Value) (key : String) : Option Value :=
  match v with
  | .object fs => (fs.find? fun p => p.1 == key).map Prod.snd
  | _ => none

end Value

end ConfigTabs
