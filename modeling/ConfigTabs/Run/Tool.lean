import ConfigTabs.Run.Commands
/-!
One use of the tool from its command line: read the line, load the settings, run the command.
-/
namespace ConfigTabs.Run

open Cli

/-- How a run ended. -/
inductive Outcome where
  /-- The command line was not read: help, the version, or a mistake, with its kind. -/
  | stopped (kind message : String)
  /-- The command finished; `build` and `check` count their snippets. -/
  | done (count : Option Nat)
  | failed (f : Failure)
  deriving Repr, Inhabited

structure Answer where
  outcome : Outcome
  out : String
  err : String
  /-- Every file of the area, by its path from the top, in path order. -/
  files : List (String × String)
  deriving Repr, Inhabited

def perform (inv : Invocation) : Step (Option Nat) := do
  let p ← loadProject inv
  match inv.request with
  | .render file _ excerpt title out =>
    renderFile p file excerpt title out
    pure none
  | .build .. => some <$> buildSnippets p
  | .check _ => some <$> checkSnippets p

def listFiles (t : Files.Tree) : List (String × String) :=
  t.files.mergeSort fun a b => decide (a.1 ≤ b.1)

def runTool (words : List String) (files : List (String × String)) (cwd : String) : Answer :=
  let names := (Path.parts cwd).filter fun n => !n.isEmpty && n != "."
  let tree := Files.Tree.ofList (files ++ (if names.isEmpty then [] else [(cwd ++ "/", "")]))
  match readCommandLine words with
  | .error stop =>
    { outcome := .stopped stop.kind stop.message, out := "", err := "", files := listFiles tree }
  | .ok inv =>
    let start : Session := { files := tree, cwd := names, verbose := inv.verbose }
    match (perform inv).run start with
    | .ok count s => { outcome := .done count, out := s.out, err := s.err, files := listFiles s.files }
    | .error f s => { outcome := .failed f, out := s.out, err := s.err, files := listFiles s.files }

end ConfigTabs.Run
