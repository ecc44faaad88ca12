import ConfigTabs.Toml.Node
/-!
How the key/value pairs and headers of a TOML document build its tables.
-/
namespace ConfigTabs.Toml

/-- Why a key cannot be placed. -/
inductive Clash where
  /-- The key is already in the table; the table's path when known. -/
  | duplicateKey (key : String) (table : Option (List String))
  /-- A dotted key or header runs through a value that is not a table. -/
  | extendsValue (keys : List String) (actual : String)
  | outOfRange
  | tooDeep
  deriving DecidableEq, Repr

def Clash.message : Clash → String
  | .duplicateKey key none => "duplicate key `" ++ key ++ "`"
  | .duplicateKey key (some []) => "duplicate key `" ++ key ++ "` in document root"
  | .duplicateKey key (some table) =>
    "duplicate key `" ++ key ++ "` in table `" ++ ".".intercalate table ++ "`"
  | .extendsValue keys actual =>
    "dotted key `" ++ ".".intercalate keys ++ "` attempted to extend non-table type (" ++ actual ++ ")"
  | .outOfRange => "value is out of range"
  | .tooDeep => "recursion limit exceeded"

def names (keys : List Key) : List String := keys.map (·.name)

def headerClash (keys : List Key) (i : Nat) : Clash :=
  .duplicateKey ((keys.drop i).head?.map (·.raw) |>.getD "") (some (names (keys.take i)))

def descendInline {α : Type} (full : List Key) (f : Entries → Bool → Except Clash (Entries × α)) :
    Nat → List Key → Entries → Bool → Except Clash (Entries × α)
  | _, [], es, dotted => f es dotted
  | i, k :: ks, es, _ =>
    match es.find? k.name with
    | none => do
      let (sub, a) ← descendInline full f (i + 1) ks [] true
      pure (es ++ [(k, .inlineTable sub true none)], a)
    | some (.inlineTable sub dot sp) => do
      let (sub, a) ← descendInline full f (i + 1) ks sub dot
      pure (es.update k.name (.inlineTable sub dot sp), a)
    | some n => throw (.extendsValue (names (full.take (i + 1))) n.typeName)

def placeInline (es : Entries) (path : List Key) (key : Key) (v : Node) : Except Clash Entries := do
  let (es, _) ← descendInline path (fun sub dotted => do
      if dotted == path.isEmpty then throw (.duplicateKey key.name none)
      if (sub.find? key.name).isSome then throw (.duplicateKey key.name none)
      pure (sub ++ [(key, v)], ())) 0 path es false
  pure es

def tableFromPairs : List (List Key × Key × Node) → Entries → Except Clash Entries
  | [], es => .ok es
  | (path, key, v) :: rest, es => do
    let es ← placeInline es path key v
    tableFromPairs rest es

def descend {α : Type} (dotted : Bool) (full : List Key) (f : Entries → Bool → Except Clash (Entries × α)) :
    Nat → List Key → Entries → Bool → Except Clash (Entries × α)
  | _, [], es, d => f es d
  | i, k :: ks, es, _ =>
    match es.find? k.name with
    | none => do
      let (sub, a) ← descend dotted full f (i + 1) ks [] dotted
      pure (es ++ [(k, .table sub true dotted none)], a)
    | some (.table sub imp dot sp) => do
      let (sub, a) ← descend dotted full f (i + 1) ks sub dot
      pure (es.update k.name (.table sub imp dot sp), a)
    | some (.tableArray ts sp) =>
      match ts.getLast? with
      | some (.table sub imp dot tsp) => do
        let (sub, a) ← descend dotted full f (i + 1) ks sub dot
        pure (es.update k.name (.tableArray (ts.dropLast ++ [.table sub imp dot tsp]) sp), a)
      | _ => throw (.extendsValue (names (full.take (i + 1))) "array of tables")
    | some n => throw (.extendsValue (names (full.take (i + 1))) n.typeName)

def arraySpan (ts : List Node) : Option Span :=
  match ts.head?.bind Node.span?, ts.getLast?.bind Node.span? with
  | some a, some b => some ⟨a.start, b.stop⟩
  | _, _ => none

/-- The document being assembled. -/
structure Layout where
  /-- The document's tables, without the one being read. -/
  root : Entries := []
  /-- The entries of the table being read. -/
  current : Entries := []
  currentSpan : Option Span := none
  /-- The header of the table being read; empty before the first header. -/
  path : List Key := []
  /-- Whether that header is a `[[table array]]` header. -/
  isArray : Bool := false
  deriving Repr

namespace Layout

def finalize (st : Layout) : Except Clash Layout := do
  let tbl := Node.table st.current false false st.currentSpan
  match st.path.getLast?, st.path.dropLast with
  | none, _ => pure { root := st.current }
  | some key, parent =>
    let n := parent.length
    let (root, _) ← descend false st.path (fun es _ =>
      match es.find? key.name with
      | none =>
        if st.isArray then pure (es ++ [(key, .tableArray [tbl] (arraySpan [tbl]))], ())
        else pure (es ++ [(key, tbl)], ())
      | some (.tableArray ts _) =>
        if st.isArray then
          let ts := ts ++ [tbl]
          pure (es.update key.name (.tableArray ts (arraySpan ts)), ())
        else throw (headerClash st.path n)
      | some (.table _ true _ _) =>
        if st.isArray then throw (headerClash st.path n)
        else pure (es.update key.name tbl, ())
      | some _ => throw (headerClash st.path n)) 0 parent st.root false
    pure { root }

def openTable (st : Layout) (path : List Key) (span : Span) : Except Clash Layout := do
  let st ← st.finalize
  match path.getLast? with
  | none => pure st
  | some key =>
    let parent := path.dropLast
    let (root, current) ← descend false path (fun es _ =>
      match es.find? key.name with
      | none => pure (es, [])
      | some (.table sub true false _) => pure (es.erase key.name, sub)
      | some _ => throw (headerClash path parent.length)) 0 parent st.root false
    pure { root, current, currentSpan := some span, path, isArray := false }

def openArrayTable (st : Layout) (path : List Key) (span : Span) : Except Clash Layout := do
  let st ← st.finalize
  match path.getLast? with
  | none => pure st
  | some key =>
    let parent := path.dropLast
    let (root, _) ← descend false path (fun es _ =>
      match es.find? key.name with
      | none => pure (es ++ [(key, .tableArray [] none)], ())
      | some (.tableArray ..) => pure (es, ())
      | some _ => throw (headerClash path parent.length)) 0 parent st.root false
    pure { root, current := [], currentSpan := some span, path, isArray := true }

def addPair (st : Layout) (path : List Key) (key : Key) (v : Node) : Except Clash Layout := do
  let currentSpan := match st.currentSpan, v.span? with
    | some a, some b => some ⟨a.start, b.stop⟩
    | a, _ => a
  let (current, _) ← descend true path (fun es dotted => do
      if dotted == path.isEmpty then throw (.duplicateKey key.name none)
      if (es.find? key.name).isSome then throw (.duplicateKey key.name (some (names st.path)))
      pure (es ++ [(key, v)], ())) 0 path st.current false
  pure { st with current, currentSpan }

end Layout

end ConfigTabs.Toml
