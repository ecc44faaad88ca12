import ConfigTabs.Path.Basic
/-!
A working area of files and directories below a top directory, written `<root>`; paths are
followed step by step and fail as the system does.
-/
namespace ConfigTabs.Files

/-- What a path in the area holds. -/
inductive Entry where
  | file (content : String)
  | dir
  deriving DecidableEq, Repr, Inhabited

/-- The area: entries by their names below the top. The top itself is a directory. Some
directories cannot be listed: their entries are reached by name only, and a walk or a removal
that has to list them is refused. -/
structure Tree where
  entries : List (List String × Entry) := []
  unreadable : List (List String) := []
  deriving Repr, Inhabited

/-- Why the system refused. -/
inductive IoError where
  | notFound
  | notADirectory
  | isADirectory
  | exists_
  | denied
  deriving DecidableEq, Repr, Inhabited

def IoError.message : IoError → String
  | .notFound => "No such file or directory (os error 2)"
  | .notADirectory => "Not a directory (os error 20)"
  | .isADirectory => "Is a directory (os error 21)"
  | .exists_ => "File exists (os error 17)"
  | .denied => "Permission denied (os error 13)"

/-- Where a path leads. -/
inductive Place where
  | inside (names : List String)
  /-- A directory outside the area. -/
  | outside
  /-- Something inside a directory outside the area: never there. -/
  | beyond
  deriving DecidableEq, Repr, Inhabited

def topText : String := "<root>"

def pathText (names : List String) : String := String.join (topText :: names.map ("/" ++ ·))

namespace Tree

def get? (t : Tree) (names : List String) : Option Entry :=
  if names.isEmpty then some .dir else (t.entries.find? (·.1 == names)).map (·.2)

def isDirAt (t : Tree) (names : List String) : Bool := t.get? names == some .dir

def at? (t : Tree) : Place → Option Entry
  | .inside names => t.get? names
  | .outside => some .dir
  | .beyond => none

def step (here : Place) (part : PathComponent) : Place :=
  match part, here with
  | .current, p => p
  | .root, _ => .outside
  | .parent, .inside [] => .outside
  | .parent, .inside names => .inside names.dropLast
  | .parent, p => p
  | .name n, .inside names => .inside (names ++ [n])
  | .name _, _ => .beyond

def follow (t : Tree) : Place → List PathComponent → Except IoError Place
  | here, [] => .ok here
  | here, c :: cs =>
    match t.at? here with
    | some .dir => follow t (step here c) cs
    | some (.file _) => .error .notADirectory
    | none => .error .notFound

def origin (cwd : List String) (comps : List PathComponent) : Place × List PathComponent :=
  match comps with
  | .root :: cs => (Place.outside, cs)
  | .name n :: cs => if n == topText then (Place.inside [], cs) else (Place.inside cwd, comps)
  | cs => (Place.inside cwd, cs)

def locate (t : Tree) (cwd : List String) (path : String) : Except IoError Place :=
  let (start, rest) := origin cwd (Path.components path)
  follow t start rest

def lookup (t : Tree) (cwd : List String) (path : String) : Except IoError Entry := do
  let place ← t.locate cwd path
  match t.at? place with
  | none => .error .notFound
  | some (.file c) => if path.endsWith "/" then .error .notADirectory else .ok (.file c)
  | some .dir => .ok .dir

def exists_ (t : Tree) (cwd : List String) (path : String) : Bool := (t.lookup cwd path).toBool

def isDir (t : Tree) (cwd : List String) (path : String) : Bool :=
  match t.lookup cwd path with
  | .ok .dir => true
  | _ => false

def read (t : Tree) (cwd : List String) (path : String) : Except IoError String := do
  match ← t.lookup cwd path with
  | .file c => .ok c
  | .dir => .error .isADirectory

def canonical? (t : Tree) (cwd : List String) (path : String) : Option String :=
  match t.locate cwd path, t.lookup cwd path with
  | .ok (.inside names), .ok _ => some (pathText names)
  | _, _ => none

def set (t : Tree) (names : List String) (e : Entry) : Tree :=
  if t.entries.any (·.1 == names) then
    { t with entries := t.entries.map fun (n, old) => if n == names then (n, e) else (n, old) }
  else { t with entries := t.entries ++ [(names, e)] }

def write (t : Tree) (cwd : List String) (path : String) (content : String) : Except IoError Tree := do
  match ← t.locate cwd path with
  | .inside [] => .error .isADirectory
  | .inside names =>
    match t.get? names with
    | some .dir => .error .isADirectory
    | some (.file _) => if path.endsWith "/" then .error .notADirectory else .ok (t.set names (.file content))
    | none => if path.endsWith "/" then .error .isADirectory else .ok (t.set names (.file content))
  | .outside => .error .isADirectory
  | .beyond => .error .denied

def makeDir (t : Tree) (cwd : List String) (path : String) : Except IoError Tree := do
  match ← t.locate cwd path with
  | .inside names =>
    match t.get? names with
    | some _ => .error .exists_
    | none => .ok (t.set names .dir)
  | .outside => .error .exists_
  | .beyond => .error .denied

def makeDirs (t : Tree) (cwd : List String) : Nat → String → Except IoError Tree
  | 0, _ => .ok t
  | fuel + 1, path =>
    if path.isEmpty then .ok t
    else
      match t.makeDir cwd path with
      | .ok t => .ok t
      | .error .notFound =>
        match Path.parent? path with
        | none => .error .notFound
        | some up => do
          let t ← makeDirs t cwd fuel up
          match t.makeDir cwd path with
          | .ok t => .ok t
          | .error e => if t.isDir cwd path then .ok t else .error e
      | .error e => if t.isDir cwd path then .ok t else .error e

def removeAll (t : Tree) (cwd : List String) (path : String) : Except IoError Tree := do
  match ← t.lookup cwd path with
  | .file _ => .error .notADirectory
  | .dir =>
    match ← t.locate cwd path with
    | .inside names =>
      if t.unreadable.any fun u => names.isPrefixOf u && t.isDirAt u then .error .denied
      else .ok { t with entries := t.entries.filter fun (n, _) => !names.isPrefixOf n }
    | _ => .error .denied

def isHidden (name : String) : Bool := name.startsWith "."

def walkFiles (t : Tree) (cwd : List String) (path : String) : List String :=
  match t.locate cwd path with
  | .ok (.inside base) =>
    t.entries.filterMap fun (names, e) =>
      match e with
      | .dir => none
      | .file _ =>
        if base.isPrefixOf names && names.length > base.length then
          let below := names.drop base.length
          if below.any isHidden then none
          else some (below.foldl (fun acc n => Path.join acc n) path)
        else none
  | _ => []

def walkEnters (t : Tree) (base names : List String) : Bool :=
  base.isPrefixOf names && t.isDirAt names && !(names.drop base.length).any isHidden

def walkRefusals (t : Tree) (cwd : List String) (path : String) : List String :=
  match t.locate cwd path with
  | .ok (.inside base) =>
    t.unreadable.filterMap fun u =>
      if t.walkEnters base u && !t.unreadable.any (fun v => t.walkEnters base v && v != u && v.isPrefixOf u)
      then some ((u.drop base.length).foldl (fun acc n => Path.join acc n) path)
      else none
  | _ => []

def files (t : Tree) : List (String × String) :=
  t.entries.filterMap fun (names, e) =>
    match e with
    | .file c => some ("/".intercalate names, c)
    | .dir => none

def ofList (items : List (String × String)) : Tree :=
  items.foldl (fun t (path, content) =>
    let names := (Path.parts path).filter (!·.isEmpty)
    let dirs := (List.range names.length).map fun k => names.take k
    let t := dirs.foldl (fun t d => if d.isEmpty || (t.get? d).isSome then t else t.set d .dir) t
    if names.isEmpty then t
    else if path.endsWith "/" then t.set names .dir
    else t.set names (.file content)) {}

end Tree

end ConfigTabs.Files
