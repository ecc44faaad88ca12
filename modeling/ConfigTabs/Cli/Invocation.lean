import ConfigTabs.Config.Basic
import ConfigTabs.Cli.Parse
/-!
What a command line asks for, once read: the command with its options, and the options that
hold for every command.
-/
namespace ConfigTabs.Cli

inductive Request where
  | render (file : String) (emitter : Option Emitter) (excerpt : Bool) (title : Option String)
      (out : Option String)
  | build (input output : Option String) (emitter : Option Emitter) (clean : Bool)
  | check (input : Option String)
  deriving Repr, Inhabited

/-- A whole command line. -/
structure Invocation where
  verbose : Bool
  /-- The name of the settings file, or its path. -/
  config : String
  request : Request
  deriving Repr, Inhabited

def Request.kind : Request → CommandKind
  | .render .. => .render
  | .build .. => .build
  | .check .. => .check

def Matches.request (m : Matches) : Request :=
  let value (id : String) := m.value? tool id
  let emitter := (value "emitter").bind Emitter.ofName?
  match m.command.name with
  | "render" =>
    .render ((value "file").getD "") emitter (m.flag tool "excerpt") (value "title") (value "out")
  | "build" => .build (value "input") (value "output") emitter (m.flag tool "clean")
  | _ => .check (value "input")

def readCommandLine (words : List String) : Except Stop Invocation := do
  let m ← parse tool words
  .ok { verbose := m.flag tool "verbose", config := (m.value? tool "config").getD "tabsnip.toml",
        request := m.request }

end ConfigTabs.Cli
