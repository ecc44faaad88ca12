import ConfigTabs.Cli.Invocation
import ConfigTabs.Config.Discovery
import ConfigTabs.Config.Read
import ConfigTabs.Run.Session
/-!
The settings a run works with: the settings file found, the command line over it, and the
directories taken from the project's top.
-/
namespace ConfigTabs.Run

open Cli

/-- The settings of a run, with the top of the project and the directories made absolute. -/
structure Project where
  config : ProjectConfig
  root : String
  deriving Repr, Inhabited

def findConfig (t : Files.Tree) (cwd : List String) (name : String) : Option String :=
  findConfigFrom (t.exists_ cwd) (Files.pathText cwd) name

def normalize (t : Files.Tree) (cwd : List String) (p : String) : String :=
  (t.canonical? cwd p).getD (if Path.isAbsolute p || p.startsWith Files.topText then p
    else Path.join (Files.pathText cwd) p)

def applyRequest (c : ProjectConfig) : Request → ProjectConfig
  | .render _ emitter _ _ _ => { c with render.emitter := emitter.getD c.render.emitter }
  | .build input output emitter clean =>
    { c with
      build.input := input.getD c.build.input
      build.output := output.getD c.build.output
      build.clean := clean
      render.emitter := emitter.getD c.render.emitter }
  | .check input => { c with build.input := input.getD c.build.input }

def readConfigFile (path : String) : Step ProjectConfig := do
  let s ← get
  match s.files.read s.cwd path with
  | .error e => fail (.configUnreadable path e)
  | .ok text =>
    match readProjectConfig text with
    | .error detail => fail (.configMalformed detail)
    | .ok (c, skipped) =>
      if !skipped.isEmpty then
        log "warning" ("unknown fields in " ++ (Path.fileName? path).getD path ++ ", ignoring:")
        for f in skipped do
          printError ("- " ++ f ++ "\n")
      pure c

def loadProject (inv : Invocation) : Step Project := do
  let s ← get
  let found := findConfig s.files s.cwd inv.config
  let c ← match found with
    | some path => readConfigFile path
    | none => do
      debug "config" ("no " ++ inv.config ++ " found, using defaults")
      pure {}
  let root := (found.bind Path.parent?).getD (Files.pathText s.cwd)
  let c := applyRequest c inv.request
  let root := normalize s.files s.cwd root
  let c := { c with
    build.input := normalize s.files s.cwd (Path.join root c.build.input)
    build.output := normalize s.files s.cwd (Path.join root c.build.output) }
  let broken := c.diagnostics inv.request.kind
  if !broken.isEmpty then fail (.diagnostics (diagnosticsDisplay broken))
  pure { config := c, root }

def Project.relative (p : Project) (path : String) : String := (Path.stripPrefix? path p.root).getD path

end ConfigTabs.Run
