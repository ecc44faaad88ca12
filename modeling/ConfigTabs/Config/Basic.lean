import ConfigTabs.Emit.Markup
import ConfigTabs.Path.Basic
import ConfigTabs.Text.Ansi
import ConfigTabs.Text.Blank
/-!
A project's settings (placeholder, marker, emitter, input and output directories, cleaning)
and their validation, which reports every broken rule at once.
-/
namespace ConfigTabs

structure RenderSettings where
  placeholder : String := defaultPlaceholder
  marker : String := defaultMarker
  emitter : Emitter := .mdx
  deriving DecidableEq, Repr, Inhabited

/-- Where a build reads and writes. -/
structure BuildSettings where
  input : String := "snippets"
  output : String := "generated"
  clean : Bool := false
  deriving DecidableEq, Repr, Inhabited

/-- The settings of a project. -/
structure ProjectConfig where
  render : RenderSettings := {}
  build : BuildSettings := {}
  deriving DecidableEq, Repr, Inhabited

inductive CommandKind where
  | render
  | build
  | check
  deriving DecidableEq, Repr, Inhabited

structure Diagnostic where
  field : String
  message : String
  hint : Option String := none
  deriving DecidableEq, Repr, Inhabited

def RenderSettings.options (r : RenderSettings) : RenderOptions :=
  { placeholder := r.placeholder, marker := r.marker }

def RenderSettings.diagnostics (r : RenderSettings) : List Diagnostic :=
  let placeholder :=
    if r.placeholder.isEmpty then
      [{ field := "render.placeholder", message := "placeholder must not be empty",
         hint := some "use the default `\x7b\x7b format \x7d\x7d`" }]
    else []
  let marker :=
    if (Text.trimBlank r.marker).isEmpty then
      [{ field := "render.marker", message := "marker must not be blank" }]
    else if r.marker.toList.contains '\n' then
      [{ field := "render.marker", message := "marker must be a single line" }]
    else []
  placeholder ++ marker

def BuildSettings.diagnostics (b : BuildSettings) : List Diagnostic :=
  if Path.same b.output b.input then
    [{ field := "build.output", message := "output directory must differ from input" }]
  else if Path.startsWith b.output b.input then
    [{ field := "build.output", message := "output directory must not be inside the input directory",
       hint := some "rendered json files would be picked up as snippets" }]
  else if Path.startsWith b.input b.output then
    [{ field := "build.output", message := "output directory must not contain the input directory" }]
  else []

def ProjectConfig.diagnostics (c : ProjectConfig) (cmd : CommandKind) : List Diagnostic :=
  c.render.diagnostics ++ (if cmd == .render then [] else c.build.diagnostics)

def Diagnostic.display (d : Diagnostic) : String :=
  Ansi.dim "[" ++ Ansi.cyan d.field ++ Ansi.dim "]" ++ "\n" ++
    Ansi.red "→" ++ " " ++ d.message ++
    (match d.hint with
     | some h => "\n  " ++ Ansi.yellow "hint:" ++ " " ++ h
     | none => "")

def diagnosticsDisplay (ds : List Diagnostic) : String :=
  Ansi.bold (Ansi.red "config validation failed:") ++ "\n\n" ++
    "\n\n".intercalate (ds.map Diagnostic.display) ++
    (if 1 < ds.length then
      "\n\n" ++ Ansi.dim "found" ++ " " ++ Ansi.bold (Ansi.red (toString ds.length)) ++ " " ++
        Ansi.dim "errors"
     else "")

end ConfigTabs
