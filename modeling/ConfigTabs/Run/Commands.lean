import ConfigTabs.Emit.Markup
import ConfigTabs.Run.Project
import ConfigTabs.Snippet.Read
import ConfigTabs.Snippet.Source
import ConfigTabs.Text.Count
/-!
The three commands: `render` one snippet file, `build` every snippet file into the output
directory, and `check` them without writing.
-/
namespace ConfigTabs.Run

open Cli

def extensionList : String := ", ".intercalate snippetExtensions

def readSnippetFile (t : Files.Tree) (cwd : List String) (path : String) :
    Except SnippetError SnippetInput :=
  match sourceFormat path with
  | none => .error (.source path ("unsupported extension, expected one of: " ++ extensionList))
  | some f =>
    match t.read cwd path with
    | .error e => .error (.io path e.message)
    | .ok text =>
      (readSnippet f text).mapError fun
        | .parse _ m => .source path m
        | e => e

def renderLogged (i : SnippetInput) (o : RenderOptions) : Step (Except SnippetError (List Block)) := do
  for f in i.overridesUsed do
    debug "snippet" ("using " ++ f.name ++ " override for `" ++ i.titleTemplate ++ "`")
  pure (i.renderWith o)

def writeOutput (t : Files.Tree) (cwd : List String) (path content : String) :
    Except String Files.Tree := do
  let t ← match Path.parent? path with
    | some dir =>
      (t.makeDirs cwd ((Path.parts dir).length + 1) dir).mapError fun e =>
        "failed to create `" ++ dir ++ "`: " ++ e.message
    | none => pure t
  (t.write cwd path content).mapError fun e => "failed to write `" ++ path ++ "`: " ++ e.message

def setFiles (t : Files.Tree) : Step Unit := modify fun s => { s with files := t }

def renderFile (p : Project) (file : String) (excerpt : Bool) (title out : Option String) :
    Step Unit := do
  let s ← get
  let input ← match readSnippetFile s.files s.cwd file with
    | .ok i => pure i
    | .error e => fail (.snippet [] e)
  let input := if excerpt then { input with excerpt := true } else input
  let input := match title with
    | some t => { input with titleTemplate := t }
    | none => input
  let blocks ← match ← renderLogged input p.config.render.options with
    | .ok bs => pure bs
    | .error e => fail (.snippet ["failed to render `" ++ file ++ "`"] e)
  let text := p.config.render.emitter.emit blocks
  match out with
  | some path =>
    let s ← get
    match writeOutput s.files s.cwd path text with
    | .ok t =>
      setFiles t
      log "render" ("wrote " ++ path)
    | .error m => fail (.other m)
  | none => print text

/-- The snippet files below a directory, in path order. -/
def snippetFiles (t : Files.Tree) (cwd : List String) (input : String) : List String :=
  ((t.walkFiles cwd input).filter fun f => (sourceFormat f).isSome).mergeSort Path.le

def unreadableMessage (dir : String) : String :=
  "failed to read `" ++ dir ++ "`: IO error for operation on " ++ dir ++ ": " ++ Files.IoError.denied.message

def collectInputFiles (p : Project) : Step (List String) := do
  let s ← get
  let input := p.config.build.input
  if !s.files.isDir s.cwd input then
    fail (.other ("snippet directory `" ++ input ++ "` not found"))
  match s.files.walkRefusals s.cwd input with
  | dir :: _ => fail (.other (unreadableMessage dir))
  | [] => pure (snippetFiles s.files s.cwd input)

/-- A snippet file and the file its markup is written to. -/
structure Target where
  source : String
  output : String
  deriving Repr, Inhabited

def Project.outputOf (p : Project) (source : String) : String :=
  let below := (Path.stripPrefix? source p.config.build.input).getD source
  Path.withExtension (Path.join p.config.build.output below) p.config.render.emitter.extension

/-- The targets of a build, in the order of their files; two files with one output stop it. -/
def planTargets (p : Project) : List String → List Target → Except String (List Target)
  | [], planned => .ok planned.reverse
  | source :: rest, planned =>
    let output := p.outputOf source
    match planned.find? fun t => Path.same t.output output with
    | some earlier =>
      .error ("`" ++ p.relative earlier.source ++ "` and `" ++ p.relative source ++
        "` both render to `" ++ p.relative output ++ "`")
    | none => planTargets p rest ({ source, output } :: planned)

def cleanOutput (p : Project) : Step Unit := do
  let s ← get
  let output := p.config.build.output
  if p.config.build.clean && s.files.exists_ s.cwd output then
    match s.files.removeAll s.cwd output with
    | .ok t =>
      setFiles t
      debug "build" ("cleaned " ++ output)
    | .error e => fail (.other ("failed to clean `" ++ output ++ "`: " ++ e.message))

abbrev Fault := String × String

def runEach {α : Type} (module : String) (total : Nat) (job : α → Step (Option Fault)) :
    Nat → List α → Step (List Fault)
  | _, [] => pure []
  | done, x :: xs => do
    let r ← job x
    showProgress module (done + 1) total
    let rest ← runEach module total job (done + 1) xs
    pure (r.toList ++ rest)

def runAll {α : Type} (module : String) (items : List α) (job : α → Step (Option Fault)) :
    Step (List Fault) := do
  if items.isEmpty then return []
  showProgress module 0 items.length
  let faults ← runEach module items.length job 0 items
  finishProgress module items.length items.length
  pure faults

def reportFailures (p : Project) (faults : List Fault) : Step Unit := do
  if faults.isEmpty then return
  for (path, message) in faults do
    log "error" (p.relative path ++ ": " ++ message)
  fail (.other (pluralCount faults.length "snippet" ++ " failed to render"))

def renderSource (o : RenderOptions) (source : String) : Step (Except SnippetError (List Block)) := do
  let s ← get
  match readSnippetFile s.files s.cwd source with
  | .error e => pure (.error e)
  | .ok input => renderLogged input o

def buildTarget (o : RenderOptions) (e : Emitter) (t : Target) : Step (Option Fault) := do
  match ← renderSource o t.source with
  | .error err => pure (some (t.source, err.fullMessage))
  | .ok blocks =>
    let s ← get
    match writeOutput s.files s.cwd t.output (e.emit blocks) with
    | .ok files =>
      setFiles files
      pure none
    | .error m => pure (some (t.source, m))

def buildSnippets (p : Project) : Step Nat := do
  let files ← collectInputFiles p
  let targets ← match planTargets p files [] with
    | .ok ts => pure ts
    | .error m => fail (.other m)
  cleanOutput p
  let faults ← runAll "build" targets (buildTarget p.config.render.options p.config.render.emitter)
  reportFailures p faults
  log "build" ("rendered " ++ pluralCount targets.length "snippet" ++ " into " ++
    p.relative p.config.build.output)
  pure targets.length

def checkSource (o : RenderOptions) (source : String) : Step (Option Fault) := do
  match ← renderSource o source with
  | .error err => pure (some (source, err.fullMessage))
  | .ok _ => pure none

def checkSnippets (p : Project) : Step Nat := do
  let files ← collectInputFiles p
  let faults ← runAll "check" files (checkSource p.config.render.options)
  reportFailures p faults
  log "check" (pluralCount files.length "snippet" ++ " ok")
  pure files.length

end ConfigTabs.Run
