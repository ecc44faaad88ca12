import ConfigTabs.Snippet.Render
/-!
Writing blocks as page markup: `mdx` tabs with template-literal bodies, fenced `markdown`
code blocks, and `json` records.
-/
namespace ConfigTabs

/-- The markup a build writes. -/
inductive Emitter where
  | mdx
  | markdown
  | json
  deriving DecidableEq, Repr, Inhabited

namespace Emitter

def name : Emitter → String
  | .mdx => "mdx"
  | .markdown => "markdown"
  | .json => "json"

def extension : Emitter → String
  | .mdx => "mdx"
  | .markdown => "md"
  | .json => "json"

def ofName? : String → Option Emitter
  | "mdx" => some .mdx
  | "markdown" => some .markdown
  | "json" => some .json
  | _ => none

/-- Every emitter, in the order they are offered. -/
def all : List Emitter := [.mdx, .markdown, .json]

end Emitter

def escapeAttribute (s : String) : String :=
  s.toList.foldl (fun acc c => acc ++ match c with
    | '&' => "&amp;"
    | '"' => "&quot;"
    | '<' => "&lt;"
    | '>' => "&gt;"
    | '{' => "&#123;"
    | '}' => "&#125;"
    | c => String.singleton c) ""

def replaceAll (pat rep : List Char) : List Char → List Char
  | [] => []
  | c :: cs =>
    if _h : pat ≠ [] ∧ pat.isPrefixOf (c :: cs) then rep ++ replaceAll pat rep ((c :: cs).drop pat.length)
    else c :: replaceAll pat rep cs
termination_by cs => cs.length
decreasing_by
  · have := List.length_pos_iff.mpr _h.1
    simp only [List.length_drop, List.length_cons]
    omega
  · simp

def escapeTemplate (s : String) : String :=
  String.ofList (replaceAll ['$', '{'] ['\\', '$', '{']
    (replaceAll ['`'] ['\\', '`'] (replaceAll ['\\'] ['\\', '\\'] s.toList)))

def mdxText (blocks : List Block) : String :=
  let items := blocks.zipIdx.map fun (b, i) =>
    let label := b.format.name
    "  <TabItem value=\"" ++ label ++ "\" label=\"" ++ label ++ "\"" ++
      (if i == 0 then " default" else "") ++ ">\n" ++
    "    <CodeBlock title=\"" ++ escapeAttribute b.title ++ "\" language=\"" ++ label ++ "\">\x7b`" ++
      escapeTemplate b.body ++ "`\x7d</CodeBlock>\n" ++
    "  </TabItem>\n"
  "<Tabs>\n" ++ String.join items ++ "</Tabs>\n"

def longestTickRun (cs : List Char) : Nat :=
  ((cs.splitOnP (· != '`')).map List.length).foldl max 0

def fenceFor (body : String) : String :=
  String.ofList (List.replicate (max (longestTickRun body.toList) 2 + 1) '`')

def markdownText (blocks : List Block) : String :=
  "\n".intercalate (blocks.map fun b =>
    let fence := fenceFor b.body
    fence ++ b.format.name ++ " title=\"" ++
      String.join (b.title.toList.map fun c => if c == '"' then "\\\"" else String.singleton c) ++
      "\"\n" ++ b.body ++ "\n" ++ fence ++ "\n")

def Block.toValue (b : Block) : Value :=
  .object [("label", .string b.format.name), ("title", .string b.title), ("body", .string b.body)]

def jsonText (blocks : List Block) : String := Json.write (.array (blocks.map Block.toValue)) ++ "\n"

def Emitter.emit : Emitter → List Block → String
  | .mdx => mdxText
  | .markdown => markdownText
  | .json => jsonText

end ConfigTabs
