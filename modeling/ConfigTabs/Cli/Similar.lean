/-!
Jaro similarity of names, kept as exact fractions, to suggest what a mistyped word may have
meant: candidates above 0.7, the likeliest last.
-/
namespace ConfigTabs.Cli

/-- A fraction `num / den` with a positive denominator. -/
structure Ratio where
  num : Nat
  den : Nat
  deriving Repr, Inhabited

def Ratio.le (x y : Ratio) : Bool := x.num * y.den ≤ y.num * x.den

def Ratio.lt (x y : Ratio) : Bool := x.num * y.den < y.num * x.den

def matchFlags (a b : List Char) : List Bool × List Bool :=
  let reach := max a.length b.length / 2 - 1
  let step (acc : List Bool × List Bool) (ci : Char × Nat) : List Bool × List Bool :=
    let (af, bf) := acc
    let (c, i) := ci
    let lo := i - reach
    let hi := min b.length (i + reach + 1)
    match (List.range' lo (hi - lo)).find? (fun j => b[j]? == some c && !(bf[j]?.getD false)) with
    | some j => (af ++ [true], bf.set j true)
    | none => (af ++ [false], bf)
  a.zipIdx.foldl step ([], List.replicate b.length false)

def kept (cs : List Char) (flags : List Bool) : List Char :=
  (cs.zip flags).filterMap fun (c, f) => if f then some c else none

def jaro (a b : String) : Ratio :=
  let x := a.toList
  let y := b.toList
  if x.isEmpty && y.isEmpty then ⟨1, 1⟩
  else if x.isEmpty || y.isEmpty then ⟨0, 1⟩
  else
    let (af, bf) := matchFlags x y
    let mx := kept x af
    let my := kept y bf
    let m := mx.length
    if m == 0 then ⟨0, 1⟩
    else
      let t := ((mx.zip my).filter fun (p, q) => p != q).length / 2
      let la := x.length
      let lb := y.length
      ⟨m * lb * m + m * la * m + (m - t) * la * lb, 3 * la * lb * m⟩

def threshold : Ratio := ⟨7, 10⟩

def similar (word : String) (candidates : List String) : List String :=
  let scored := candidates.map fun c => (jaro word c, c)
  let close := scored.filter fun (r, _) => threshold.lt r
  (close.mergeSort fun p q => p.1.le q.1).map Prod.snd

def likeliest? (word : String) (candidates : List String) : Option String :=
  (similar word candidates).getLast?

end ConfigTabs.Cli
