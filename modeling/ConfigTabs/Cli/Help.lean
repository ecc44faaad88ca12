import ConfigTabs.Cli.Spec
/-!
Help and usage texts: the purpose, the usage line, and the sections `Commands`, `Arguments`
and `Options` in two padded columns.
-/
namespace ConfigTabs.Cli

def padRight (s : String) (width : Nat) : String :=
  s ++ String.ofList (List.replicate (width - s.length) ' ')

def columns (rows : List (String × String)) : String :=
  let width := rows.foldl (fun w r => max w r.1.length) 0
  "\n".intercalate (rows.map fun (l, r) => "  " ++ padRight l width ++ "  " ++ r)

/-- An option's description with its default and choices. -/
def Opt.describe (o : Opt) : String :=
  let extras :=
    (match o.default with
     | some d => ["[default: " ++ d ++ "]"]
     | none => []) ++
    (if o.choices.isEmpty then [] else ["[possible values: " ++ ", ".intercalate o.choices ++ "]"])
  " ".intercalate (o.help :: extras)

/-- Whether one option comes before another in help. -/
def Opt.before (a b : Opt) : Bool :=
  let (ra, ka) := a.sortKey
  let (rb, kb) := b.sortKey
  ra < rb || (ra == rb && decide (ka ≤ kb))

def optionRows (opts : List Opt) : List (String × String) :=
  (opts.mergeSort Opt.before).map fun o => (o.spec, o.describe)

def operandUsage (c : Command) : List String :=
  if c.name == helpCommand.name then c.operands.map fun a => "[" ++ a.valueName ++ "]..."
  else c.operands.map Operand.display

def hasOptions (opts : List Opt) : Bool :=
  opts.any fun o => o.action != .help && o.action != .version

def commandUsage (t : Tool) (c : Command) : String :=
  " ".intercalate ([t.name ++ " " ++ c.name] ++ (if hasOptions (c.allOpts t) then ["[OPTIONS]"] else []) ++
    operandUsage c)

def toolUsage (t : Tool) : String := t.name ++ " [OPTIONS] <COMMAND>"

def commandRow (c : Command) : String × String :=
  (c.name, c.about ++ match c.shortName with
    | some a => " [alias: " ++ a ++ "]"
    | none => "")

def operandRows (c : Command) : List (String × String) :=
  c.operands.map fun a =>
    (if c.name == helpCommand.name then "[" ++ a.valueName ++ "]..." else a.display, a.help)

def helpText (about usage : String) (sections : List (String × List (String × String))) : String :=
  let shown := sections.filter fun s => !s.2.isEmpty
  about ++ "\n\n" ++ "Usage: " ++ usage ++ "\n\n" ++
    "\n\n".intercalate (shown.map fun (title, rows) => title ++ ":\n" ++ columns rows) ++ "\n"

def Tool.help (t : Tool) : String :=
  helpText t.about (toolUsage t)
    [("Commands", t.allCommands.map commandRow), ("Options", optionRows t.topOpts)]

def Command.help (c : Command) (t : Tool) : String :=
  helpText c.about (commandUsage t c) [("Arguments", operandRows c), ("Options", optionRows (c.allOpts t))]

def Tool.versionText (t : Tool) : String := t.name ++ " " ++ t.version ++ "\n"

end ConfigTabs.Cli
