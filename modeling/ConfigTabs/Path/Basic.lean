/-!
File paths as slash-separated text read as components, with equality, leading paths, file
names and extensions taken on components.
-/
namespace ConfigTabs

/-- One step of a path. -/
inductive PathComponent where
  | root
  | current
  | parent
  | name (text : String)
  deriving DecidableEq, Repr, Inhabited

namespace Path

def splitAt (sep : Char) (s : String) : List String := (s.toList.splitOn sep).map String.ofList

def parts (p : String) : List String := splitAt '/' p

def components (p : String) : List PathComponent :=
  let absolute := p.startsWith "/"
  let parts := parts p
  let named := parts.filter (fun s => !s.isEmpty && s != ".") |>.map fun s =>
    if s == ".." then PathComponent.parent else .name s
  let leadingDot := !absolute && (parts.head? == some ".")
  (if absolute then [PathComponent.root] else []) ++ (if leadingDot then [.current] else []) ++ named

def same (a b : String) : Bool := components a == components b

def startsWith (p base : String) : Bool := (components base).isPrefixOf (components p)

def fileName? (p : String) : Option String :=
  match (components p).getLast? with
  | some (.name n) => some n
  | _ => none

def splitExtension (n : String) : String × Option String :=
  match splitAt '.' n |>.reverse with
  | [] => (n, none)
  | [_] => (n, none)
  | ext :: before =>
    let stem := ".".intercalate before.reverse
    if stem.isEmpty then (n, none) else (stem, some ext)

def extension? (p : String) : Option String := (fileName? p).bind fun n => (splitExtension n).2

def fileStem? (p : String) : Option String := (fileName? p).map fun n => (splitExtension n).1

def isAbsolute (p : String) : Bool := p.startsWith "/"

/-- A path continued by another: an absolute second path replaces the first, otherwise the
two are joined by one slash. -/
def join (base p : String) : String :=
  if isAbsolute p || base.isEmpty then p
  else if base.endsWith "/" then base ++ p
  else base ++ "/" ++ p

def isStep (first : Bool) (part : String) : Bool := !part.isEmpty && (first || part != ".")

def parent? (p : String) : Option String :=
  let parts := parts p
  let absolute := isAbsolute p
  let indexed := parts.zipIdx
  let steps := indexed.filter fun (part, i) => isStep (i == 0 && !absolute) part
  match steps.getLast? with
  | none => none
  | some (_, last) =>
    let before := (parts.take last).reverse.dropWhile (fun s => s.isEmpty || s == ".") |>.reverse
    if before.isEmpty then
      some (if absolute then "/" else if last != 0 && parts.head? == some "." then "." else "")
    else
      let text := "/".intercalate before
      some (if text.isEmpty && absolute then "/" else text)

def stripPrefix? (p base : String) : Option String :=
  let baseComps := components base
  if !baseComps.isPrefixOf (components p) then none
  else
    let parts := parts p
    let absolute := isAbsolute p
    -- walk raw parts until as many components as the base has were passed
    let rec skip : List (String × Nat) → Nat → List String
      | [], _ => []
      | rest@((part, i) :: more), n =>
        if n == 0 then rest.map Prod.fst
        else if isStep (i == 0 && !absolute) part then skip more (n - 1)
        else skip more n
    let need := baseComps.length - (if absolute then 1 else 0)
    let rest := skip parts.zipIdx need
    let trimmed := (rest.dropWhile fun s => s.isEmpty || s == ".").reverse.dropWhile (fun s => s.isEmpty || s == ".") |>.reverse
    some ("/".intercalate trimmed)

def withExtension (p ext : String) : String :=
  match fileStem? p, parent? p with
  | some stem, some dir => join dir (stem ++ "." ++ ext)
  | _, _ => p

def le (a b : String) : Bool :=
  let key (c : PathComponent) : Nat × String := match c with
    | .root => (0, "")
    | .current => (1, "")
    | .parent => (2, "")
    | .name n => (3, n)
  let rec go : List PathComponent → List PathComponent → Bool
    | [], _ => true
    | _ :: _, [] => false
    | x :: xs, y :: ys =>
      let (kx, nx) := key x
      let (ky, ny) := key y
      if kx != ky then kx < ky
      else if nx != ny then nx < ny
      else go xs ys
  go (components a) (components b)

end Path

end ConfigTabs
