import ConfigTabs.Toml.Syntax
/-!
Reading a whole TOML document into its table; a failure shows its line and a caret.
-/
namespace ConfigTabs.Toml

/-- A complaint about a document: a message, the place it points at when it has one, and
otherwise the keys leading to the value it is about. -/
structure TomlError where
  message : String
  span : Option Span := none
  keys : List String := []
  deriving Repr

def pairLine (s : Src) : Step (List Key × Node) :=
  match key s with
  | .fail f => .fail { f with final := true }
  | .ok ks s1 =>
    if s1.peek? != some '=' then
      .fail { offset := s1.offset, notes := [.wanted (.char '.'), .wanted (.char '=')], final := true }
    else
      match value (ws s1.bump).budget 0 (ws s1.bump) with
      | .fail f => .fail { f with final := true }
      | .ok v s2 =>
        match lineTrailing s2 with
        | .fail f =>
          .fail { f with notes := f.notes ++ [.wanted (.char '\n'), .wanted (.char '#')], final := true }
        | .ok _ s3 => .ok (ks, v) s3

def headerLine (s : Src) : Step (Bool × List Key × Span) :=
  let isArray := s.startsWith ['[', '[']
  let close := if isArray then [']', ']'] else [']']
  match key (s.advance close.length) with
  | .fail f => .fail { f with final := true }
  | .ok ks s1 =>
    if !s1.startsWith close then
      .fail { offset := s1.offset, notes := [.wanted (.char '.'), .wanted (.char ']')], final := true }
    else
      let s2 := s1.advance close.length
      match lineTrailing s2 with
      | .fail f =>
        .fail { f with notes := f.notes ++ [.wanted (.char '\n'), .wanted (.char '#')], final := true }
      | .ok _ s3 => .ok (isArray, ks, ⟨s.offset, s2.offset⟩) s3

def lines : Nat → Src → Layout → Except Failure Layout
  | 0, _, st => .ok st
  | fuel + 1, s, st =>
    match s.peek? with
    | none => .ok st
    | some '#' =>
      match lineEnding (comment s) with
      | .ok _ t => lines fuel (ws t) st
      | .fail f => .error { f with final := true }
    | some '[' =>
      match headerLine s with
      | .fail f => .error { f with notes := f.notes ++ [.label "table header"] }
      | .ok (isArray, ks, sp) t =>
        let opened := if isArray then st.openArrayTable ks sp else st.openTable ks sp
        match opened with
        | .error clash =>
          .error { offset := s.offset, notes := [.label "table header"], cause := some clash.message,
                   final := true }
        | .ok st => lines fuel (ws t) st
    | some '\n' | some '\r' =>
      match newline s with
      | .ok _ t => lines fuel (ws t) st
      | .fail _ => .error s.failure
    | some _ =>
      match pairLine s with
      | .fail f => .error f
      | .ok (ks, v) t =>
        match st.addPair ks.dropLast (ks.getLast?.getD default) v with
        | .error clash => .error { offset := s.offset, cause := some clash.message, final := true }
        | .ok st => lines fuel (ws t) st

def byteLength (text : String) : Nat := text.utf8ByteSize

def parseDocument (text : String) : Except TomlError Entries :=
  let s : Src := ⟨text.toList, 0⟩
  let s := if s.peek? == some '\uFEFF' then s.bump else s
  let s := ws s
  match lines s.budget s {} with
  | .error f =>
    let stop := if f.offset == byteLength text then f.offset else f.offset + 1
    .error { message := f.message, span := some ⟨f.offset, stop⟩ }
  | .ok st =>
    match st.finalize with
    | .error clash => .error { message := clash.message }
    | .ok st => .ok st.root

/-! Showing an error. -/

def linePosition (bytes : List UInt8) (index : Nat) : Nat × Nat :=
  if bytes.isEmpty then (0, index)
  else
    let safe := min index (bytes.length - 1)
    let beyond := index - safe
    let before := bytes.take safe
    let lineStart := match (before.reverse.findIdx? (· == 10)) with
      | some i => safe - i
      | none => 0
    let line := (bytes.take lineStart).count 10
    let piece := (bytes.drop lineStart).take (safe + 1 - lineStart)
    let column := match String.fromUTF8? (ByteArray.mk piece.toArray) with
      | some str => str.length - 1
      | none => safe - lineStart
    (line, column + beyond)

def spaces (n : Nat) : String := String.ofList (List.replicate n ' ')

def TomlError.render (e : TomlError) (source : String) : String :=
  let context := match e.span with
    | none => ""
    | some sp =>
      let (line, column) := linePosition source.toUTF8.toList sp.start
      let lineNum := line + 1
      let gutter := (toString lineNum).length
      let content := ((source.splitOn "\n").drop line).head?.getD ""
      let highlight := min (sp.stop - sp.start) (byteLength content - column)
      "TOML parse error at line " ++ toString lineNum ++ ", column " ++ toString (column + 1) ++ "\n" ++
        spaces (gutter + 1) ++ "|\n" ++
        toString lineNum ++ " | " ++ content ++ "\n" ++
        spaces (gutter + 1) ++ "|" ++ spaces (column + 1) ++ "^" ++
        String.ofList (List.replicate (highlight - 1) '^') ++ "\n"
  let keys := if e.span.isNone && !e.keys.isEmpty then
      "in `" ++ ".".intercalate e.keys ++ "`\n"
    else ""
  context ++ e.message ++ "\n" ++ keys

end ConfigTabs.Toml
