import ConfigTabs.Yaml.Decode
/-!
Reading a snippet file written in YAML: the file's one document as a record.
-/
namespace ConfigTabs.Yaml

def overrideKey (k : String) : Except String Format :=
  match Format.ofName? k with
  | some f => .ok f
  | none => .error (Shape.unknownField k overrideKeys)

def snippetKey (k : String) : Except String SnippetField :=
  match SnippetField.ofKey? k with
  | some f => .ok f
  | none => .error (Shape.unknownField k SnippetField.keys)

def overrideField (d : Document) (f : Format) (o : OverridesDraft) (path : Path) (_ fuel : Nat) :
    Decode OverridesDraft :=
  if o.seen.contains f then fail (Shape.duplicateField f.name)
  else do
    let t ← readOption d (readStr d .ok "a string" fuel) fuel path
    pure { seen := f :: o.seen, overrides := match t with
      | some t => o.overrides.set f t
      | none => o.overrides }

def readOverrides (d : Document) : Nat → Path → Nat → Decode Overrides :=
  readRecord d "struct Overrides" overrideKey {} (overrideField d) fun o => .ok o.overrides

def snippetField (d : Document) (f : SnippetField) (s : SnippetDraft) (path : Path) (depth fuel : Nat) :
    Decode SnippetDraft :=
  if s.has f then fail (Shape.duplicateField f.name)
  else match f with
    | .title => do
      let t ← readStr d .ok "a string" fuel path
      pure { s with title := some t }
    | .data => do
      let v ← readOption d (fun p => readValue d fuel p depth) fuel path
      pure { s with data := some v }
    | .overrides => do
      let o ← readOverrides d fuel path depth
      pure { s with overrides := some o }
    | .excerpt => do
      let b ← readBool d fuel path
      pure { s with excerpt := some b }

def depthLimit : Nat := 128

/-- Reads a whole snippet file; the message is the reader's, with its position. -/
def readSnippet (text : String) : Except String SnippetInput :=
  let read (d : Document) : Decode SnippetInput :=
    readRecord d "struct SnippetFile" snippetKey {} (snippetField d) SnippetDraft.finish
      (readFuel d) .root depthLimit
  (decodeFirst text read).mapError DecodeError.text

end ConfigTabs.Yaml
