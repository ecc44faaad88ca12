import ConfigTabs.Emit.Markup
/-!
The command line of the tool as data: its options, its commands with their other names, and
the operands they take, with the order options are listed in help.
-/
namespace ConfigTabs.Cli

inductive Action where
  /-- Takes one value. -/
  | store
  /-- Turns a setting on. -/
  | switch
  | help
  | version
  deriving DecidableEq, Repr, Inhabited

/-- A named option. -/
structure Opt where
  id : String
  short : Option Char := none
  long : String
  action : Action := .switch
  valueName : String := ""
  help : String
  choices : List String := []
  default : Option String := none
  /-- Whether an empty value is refused. -/
  nonEmpty : Bool := false
  rank : Nat := 999
  global : Bool := false
  deriving Repr, Inhabited

/-- An operand: a value given by its position. -/
structure Operand where
  id : String
  valueName : String
  help : String
  deriving Repr, Inhabited

structure Command where
  name : String
  about : String
  shortName : Option String := none
  opts : List Opt
  operands : List Operand := []
  deriving Repr, Inhabited

/-- The tool: its name, version, purpose, global options and commands. -/
structure Tool where
  name : String
  version : String
  about : String
  globals : List Opt
  commands : List Command
  deriving Repr, Inhabited

def helpOpt : Opt :=
  { id := "help", short := some 'h', long := "help", action := .help, help := "Print help" }

def versionOpt : Opt :=
  { id := "version", short := some 'V', long := "version", action := .version, help := "Print version" }

def emitterOpt (rank : Nat) : Opt :=
  { id := "emitter", short := some 'e', long := "emitter", action := .store, valueName := "EMITTER",
    help := "Output markup", choices := Emitter.all.map Emitter.name, rank }

def inputOpt : Opt :=
  { id := "input", short := some 'i', long := "input", action := .store, valueName := "INPUT",
    help := "Snippet source directory (relative to project root)", nonEmpty := true, rank := 0 }

def tool : Tool where
  name := "tabsnip"
  version := "0.1.0"
  about := "render one configuration example as yaml, toml and json tabs for documentation sites"
  globals := [
    { id := "color", long := "color", action := .store, valueName := "COLOR",
      help := "Control colored output (auto, always, never)", choices := ["auto", "always", "never"],
      default := some "auto", rank := 0, global := true },
    { id := "config", short := some 'C', long := "config", action := .store, valueName := "CONFIG",
      help := "Config file path (default: tabsnip.toml)", default := some "tabsnip.toml",
      nonEmpty := true, rank := 1, global := true },
    { id := "verbose", short := some 'v', long := "verbose", help := "Enable verbose output for debugging",
      rank := 2, global := true }]
  commands := [
    { name := "render", about := "Render a single snippet file", shortName := some "r",
      opts := [
        emitterOpt 0,
        { id := "excerpt", short := some 'x', long := "excerpt",
          help := "Mark the snippet as an excerpt regardless of the file", rank := 1 },
        { id := "title", short := some 't', long := "title", action := .store, valueName := "TITLE",
          help := "Override the title template", rank := 2 },
        { id := "out", short := some 'o', long := "out", action := .store, valueName := "OUT",
          help := "Write to a file instead of stdout", nonEmpty := true, rank := 3 }],
      operands := [{ id := "file", valueName := "FILE", help := "Snippet file (.toml, .yaml, .yml or .json)" }] },
    { name := "build", about := "Render every snippet under the input directory", shortName := some "b",
      opts := [
        inputOpt,
        { id := "output", short := some 'o', long := "output", action := .store, valueName := "OUTPUT",
          help := "Output directory path (relative to project root)", nonEmpty := true, rank := 1 },
        emitterOpt 2,
        { id := "clean", short := some 'c', long := "clean",
          help := "Clean output directory completely before building", rank := 3 }] },
    { name := "check", about := "Check that every snippet renders, without writing output", shortName := some "c",
      opts := [inputOpt] }]

def helpCommand : Command where
  name := "help"
  about := "Print this message or the help of the given subcommand(s)"
  opts := []
  operands := [{ id := "subcommand", valueName := "COMMAND", help := "Print help for the subcommand(s)" }]

namespace Tool

def allCommands (t : Tool) : List Command := t.commands ++ [helpCommand]

def commandNames (t : Tool) : List String :=
  t.allCommands.flatMap fun c => c.name :: c.shortName.toList

def findCommand? (t : Tool) (name : String) : Option Command :=
  t.allCommands.find? fun c => c.name == name || c.shortName == some name

def topOpts (t : Tool) : List Opt := t.globals ++ [helpOpt, versionOpt]

end Tool

def Command.allOpts (c : Command) (t : Tool) : List Opt :=
  c.opts ++ t.globals ++ (if c.name == helpCommand.name then [] else [helpOpt])

def Opt.spec (o : Opt) : String :=
  (match o.short with
   | some c => "-" ++ c.toString ++ ", "
   | none => "    ") ++
  "--" ++ o.long ++ (if o.action == .store then " <" ++ o.valueName ++ ">" else "")

def Opt.display (o : Opt) : String :=
  "--" ++ o.long ++ (if o.action == .store then " <" ++ o.valueName ++ ">" else "")

def Operand.display (a : Operand) : String := "<" ++ a.valueName ++ ">"

def Opt.sortKey (o : Opt) : Nat × String :=
  (o.rank, match o.short with
    | some c => c.toLower.toString ++ (if c.isLower then "0" else "1")
    | none => o.long)

end ConfigTabs.Cli
