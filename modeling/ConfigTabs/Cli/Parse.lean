import ConfigTabs.Cli.Help
import ConfigTabs.Cli.Similar
/-!
Reading a command line word by word, with grouped short options, attached values and `--`;
a mistake names its kind, tips on what may have been meant, and the usage.
-/
namespace ConfigTabs.Cli

/-- A mistake on the command line. -/
inductive Mistake where
  /-- An unknown word; perhaps a similar option, perhaps one of a later command, and whether
  `--` would let it pass as a value. -/
  | unknownArgument (arg : String) (similar : Option String) (ofCommand : Option (String × String))
      (asValue : Bool)
  | invalidValue (arg value : String) (choices : List String)
  | unrecognizedCommand (name : String) (similar : List String)
  | missingRequired (args : List String)
  | missingCommand (bin : String) (names : List String)
  | repeated (arg : String)
  | unexpectedValue (arg value : String)
  /-- A command name placed after `--`. -/
  | needlessEscape (name : String)
  deriving Repr, Inhabited

namespace Mistake

def kind : Mistake → String
  | .unknownArgument .. => "UnknownArgument"
  | .invalidValue .. => "InvalidValue"
  | .unrecognizedCommand .. => "InvalidSubcommand"
  | .missingRequired .. => "MissingRequiredArgument"
  | .missingCommand .. => "MissingSubcommand"
  | .repeated .. => "ArgumentConflict"
  | .unexpectedValue .. => "TooManyValues"
  | .needlessEscape .. => "UnknownArgument"

private def quoted (s : String) : String := "'" ++ s ++ "'"

def showChoice (s : String) : String := if s.any Char.isWhitespace then String.quote s else s

def choiceList (label : String) (xs : List String) : String :=
  if xs.isEmpty then "" else "\n  [" ++ label ++ ": " ++ ", ".intercalate (xs.map showChoice) ++ "]"

def similarTip (what : String) (xs : List String) : String :=
  match xs with
  | [] => ""
  | [x] => "\n\n  tip: a similar " ++ what ++ " exists: " ++ quoted x
  | _ => "\n\n  tip: some similar " ++ what ++ "s exist: " ++ ", ".intercalate (xs.map quoted)

def tips (before : Bool) (xs : List String) : String :=
  if xs.isEmpty then "" else (if before then "" else "\n") ++ String.join (xs.map ("\n  tip: " ++ ·))

def body : Mistake → String
  | .unknownArgument arg similar ofCommand asValue =>
    "unexpected argument " ++ quoted arg ++ " found" ++ similarTip "argument" similar.toList ++
      tips similar.isSome
        ((if asValue then ["to pass " ++ quoted arg ++ " as a value, use " ++ quoted ("-- " ++ arg)] else []) ++
          (match ofCommand with
           | some (c, flag) => [quoted (c ++ " " ++ flag) ++ " exists"]
           | none => []))
  | .invalidValue arg value choices =>
    (if value.isEmpty then "a value is required for " ++ quoted arg ++ " but none was supplied"
     else "invalid value " ++ quoted value ++ " for " ++ quoted arg) ++
      choiceList "possible values" choices ++ similarTip "value" (likeliest? value choices).toList
  | .unrecognizedCommand name similar =>
    "unrecognized subcommand " ++ quoted name ++ similarTip "subcommand" similar
  | .missingRequired args =>
    "the following required arguments were not provided:" ++ String.join (args.map ("\n  " ++ ·))
  | .missingCommand bin names =>
    quoted bin ++ " requires a subcommand but one was not provided" ++ choiceList "subcommands" names
  | .repeated arg => "the argument " ++ quoted arg ++ " cannot be used multiple times"
  | .unexpectedValue arg value =>
    "unexpected value " ++ quoted value ++ " for " ++ quoted arg ++ " found; no more were expected"
  | .needlessEscape name =>
    "unexpected argument '--' found" ++
      tips false ["subcommand " ++ quoted name ++ " exists; to use it, remove the '--' before it"]

end Mistake

/-- Why reading the command line does not lead to a run. -/
inductive Stop where
  | help (text : String)
  /-- Help shown because nothing was given. -/
  | helpOnEmpty (text : String)
  | version (text : String)
  | mistake (m : Mistake) (usage : Option String)
  deriving Repr, Inhabited

namespace Stop

def kind : Stop → String
  | .help _ => "DisplayHelp"
  | .helpOnEmpty _ => "DisplayHelpOnMissingArgumentOrSubcommand"
  | .version _ => "DisplayVersion"
  | .mistake m _ => m.kind

def message : Stop → String
  | .help t | .helpOnEmpty t | .version t => t
  | .mistake m usage =>
    "error: " ++ m.body ++ (match usage with
      | some u => "\n\nUsage: " ++ u
      | none => "") ++ "\n\nFor more information, try '--help'.\n"

end Stop

inductive Scope where
  | top
  | command (c : Command)
  deriving Inhabited

structure Given where
  id : String
  values : List String
  deriving Repr, Inhabited

/-- Something that takes values: an option or an operand. -/
inductive Target where
  | opt (o : Opt)
  | operand (a : Operand)
  deriving Inhabited

def Target.id : Target → String
  | .opt o => o.id
  | .operand a => a.id

/-- The state of reading one part of the line. -/
structure Scan where
  given : List Given := []
  /-- An option or operand whose values are not checked yet. -/
  pending : Option (Target × List String) := none
  /-- An option still waiting for its value. -/
  expecting : Option Opt := none
  /-- How many operands were read. -/
  filled : Nat := 0
  /-- Whether `--` was read. -/
  escaped : Bool := false
  deriving Inhabited

def Scan.has (s : Scan) (id : String) : Bool := s.given.any (·.id == id)

def Scan.ids (s : Scan) : List String := s.given.map (·.id)

section
variable (t : Tool)

namespace Scope

def opts : Scope → List Opt
  | .top => t.topOpts
  | .command c => c.allOpts t

def operands : Scope → List Operand
  | .top => []
  | .command c => c.operands

def help : Scope → String
  | .top => t.help
  | .command c => c.help t

def usage : Scope → String
  | .top => toolUsage t
  | .command c => commandUsage t c

def binName : Scope → String
  | .top => t.name
  | .command c => t.name ++ " " ++ c.name

def usageWith (sc : Scope) (used : List String) : String :=
  if used.isEmpty then sc.usage t
  else
    let required := (sc.operands).map (·.id)
    let named := (required ++ used).foldl (fun acc x => if acc.contains x then acc else acc ++ [x]) []
    let opts := (sc.opts t).filter fun o => named.contains o.id
    let optTexts := named.filterMap fun x => (opts.find? (·.id == x)).map Opt.display
    let operandTexts := (sc.operands).filterMap fun a => if named.contains a.id then some a.display else none
    " ".intercalate ([sc.binName t] ++ optTexts ++ operandTexts ++
      (match sc with
       | .top => ["<COMMAND>"]
       | .command _ => []))

end Scope

def apply (sc : Scope) (s : Scan) (target : Target) (values : List String) : Except Stop Scan :=
  match target with
  | .opt o =>
    match o.action with
    | .help => .error (.help (sc.help t))
    | .version => .error (.version t.versionText)
    | .store =>
      match values with
      | [] => .error (.mistake (.invalidValue o.display "" o.choices) none)
      | v :: _ =>
        if s.has o.id then .error (.mistake (.repeated o.display) (some (sc.usage t)))
        else if !o.choices.isEmpty && !o.choices.contains v then
          .error (.mistake (.invalidValue o.display v o.choices) none)
        else if o.nonEmpty && v.isEmpty then .error (.mistake (.invalidValue o.display "" []) none)
        else .ok { s with given := s.given ++ [⟨o.id, [v]⟩] }
    | .switch =>
      if s.has o.id then .error (.mistake (.repeated o.display) (some (sc.usage t)))
      else .ok { s with given := s.given ++ [⟨o.id, ["true"]⟩] }
  | .operand a =>
    match values with
    | v :: _ =>
      if v.isEmpty then .error (.mistake (.invalidValue a.display "" []) none)
      else .ok { s with given := s.given ++ [⟨a.id, [v]⟩] }
    | [] => .ok s

def settle (sc : Scope) (s : Scan) : Except Stop Scan :=
  match s.pending with
  | none => .ok s
  | some (target, values) => apply t sc { s with pending := none, expecting := none } target values

def settleQuietly (sc : Scope) (s : Scan) : Scan :=
  match settle t sc s with
  | .ok s => s
  | .error _ => { s with pending := none, expecting := none }

def react (sc : Scope) (s : Scan) (target : Target) (values : List String) : Except Stop Scan := do
  let s ← settle t sc s
  apply t sc s target values

def looksLikeOption (w : String) : Bool := w.startsWith "-" && w != "-"

def strayWord (sc : Scope) (s : Scan) (w : String) : Stop :=
  let asValue := !s.escaped && !(sc.operands).isEmpty && looksLikeOption w
  match sc with
  | .top =>
    if s.escaped && (t.findCommand? w).isSome then .mistake (.needlessEscape w) (some (sc.usage t))
    else
      let close := similar w t.commandNames
      if !close.isEmpty then .mistake (.unrecognizedCommand w close) (some (sc.usage t))
      else .mistake (.unrecognizedCommand w []) (some (sc.usage t))
  | .command _ => .mistake (.unknownArgument w none none asValue) (some (sc.usage t))

def longsOf (opts : List Opt) : List String := opts.map (·.long)

def laterCommandOption (sc : Scope) (name : String) (rest : List String) : Option (String × String) :=
  match sc with
  | .command _ => none
  | .top =>
    let found := t.allCommands.filterMap fun c =>
      match likeliest? name (longsOf (c.allOpts t)), rest.idxOf? c.name with
      | some cand, some pos => some (pos, (c.name, "--" ++ cand))
      | _, _ => none
    (found.foldl (fun best x => match best with
      | none => some x
      | some b => if x.1 < b.1 then some x else some b) none).map Prod.snd

def unknownLong (sc : Scope) (s : Scan) (name : String) (rest : List String) : Stop :=
  let s := settleQuietly t sc s
  let opts := sc.opts t
  match likeliest? name (longsOf opts) with
  | some cand =>
    let used := s.ids ++ ((opts.find? (·.long == cand)).toList.map (·.id)).filter (!s.ids.contains ·)
    .mistake (.unknownArgument ("--" ++ name) (some ("--" ++ cand)) none false) (some (sc.usageWith t used))
  | none =>
    let later := laterCommandOption t sc name rest
    let asValue := later.isNone && !s.escaped && !(sc.operands).isEmpty
    .mistake (.unknownArgument ("--" ++ name) none later asValue) (some (sc.usageWith t s.ids))

def shortGroup (sc : Scope) : List Char → Scan → Except Stop Scan
  | [], s => .ok s
  | c :: more, s =>
    match (sc.opts t).find? (·.short == some c) with
    | none =>
      let s := settleQuietly t sc s
      let asValue := !s.escaped && !(sc.operands).isEmpty
      .error (.mistake (.unknownArgument ("-" ++ c.toString) none none asValue) (some (sc.usage t)))
    | some o =>
      if o.action == .store then
        let attached := String.ofList more
        if attached.isEmpty then do
          let s ← settle t sc s
          .ok { s with pending := some (.opt o, []), expecting := some o }
        else
          let v := if attached.startsWith "=" then attached.drop 1 |>.toString else attached
          react t sc s (.opt o) [v]
      else do
        let s ← react t sc s (.opt o) []
        shortGroup sc more s

def longOption (sc : Scope) (s : Scan) (body : String) (rest : List String) : Except Stop Scan :=
  let (name, value) := match body.splitOn "=" with
    | [] => (body, none)
    | [n] => (n, none)
    | n :: vs => (n, some ("=".intercalate vs))
  match (sc.opts t).find? (·.long == name) with
  | none => .error (unknownLong t sc s name rest)
  | some o =>
    if o.action == .store then
      match value with
      | some v => react t sc s (.opt o) [v]
      | none => do
        let s ← settle t sc s
        .ok { s with pending := some (.opt o, []), expecting := some o }
    else
      match value with
      | some v =>
        let s := settleQuietly t sc s
        let required := (sc.operands).map (·.id)
        let used := (s.ids.filter (!required.contains ·)) ++ [o.id]
        .error (.mistake (.unexpectedValue o.display v) (some (sc.usageWith t used)))
      | none => react t sc s (.opt o) []

def operand (sc : Scope) (s : Scan) (w : String) : Except Stop Scan :=
  match (sc.operands)[s.filled]? with
  | none => .error (strayWord t sc (settleQuietly t sc s) w)
  | some a => do
    let s ← settle t sc s
    .ok { s with pending := some (.operand a, [w]), filled := s.filled + 1 }

def helpFor (names : List String) : Stop :=
  let rec go : Scope → List String → Stop
    | sc, [] => .help (sc.help t)
    | sc, n :: ns =>
      match sc with
      | .top =>
        match t.findCommand? n with
        | some c => go (.command c) ns
        | none => .mistake (.unrecognizedCommand n []) (some (sc.usage t))
      | .command _ => .mistake (.unrecognizedCommand n []) (some (sc.usage t))
  go .top names

def scanWords (sc : Scope) : List String → Scan → Except Stop (Scan × Option (Command × List String))
  | [], s => .ok (s, none)
  | w :: rest, s =>
    if s.escaped then do
      let s ← operand t sc s w
      scanWords sc rest s
    else
      let named := match sc with
        | .top => t.findCommand? w
        | .command _ => none
      match named with
      | some c =>
        if c.name == helpCommand.name then .error (helpFor t rest)
        else .ok (s, some (c, rest))
      | none =>
        if w == "--" then scanWords sc rest { s with escaped := true }
        else if w.startsWith "--" then do
          let s ← longOption t sc s (w.drop 2).toString rest
          scanWords sc rest s
        else if looksLikeOption w then do
          let s ← shortGroup t sc (w.drop 1).toString.toList s
          scanWords sc rest s
        else
          match s.expecting with
          | some o => do
            let s := { s with pending := some (.opt o, [w]), expecting := none }
            scanWords sc rest s
          | none => do
            let s ← operand t sc s w
            scanWords sc rest s

def finish (sc : Scope) (s : Scan) (hasCommand : Bool) : Except Stop Scan := do
  let s ← settle t sc s
  match sc with
  | .top =>
    if hasCommand then .ok s
    else if s.given.isEmpty then .error (.helpOnEmpty t.help)
    else .error (.mistake (.missingCommand t.name t.commandNames) (some (sc.usage t)))
  | .command _ =>
    let missing := (sc.operands).filter fun a => !s.has a.id
    if missing.isEmpty then .ok s
    else
      .error (.mistake (.missingRequired (missing.map Operand.display))
        (some (sc.usageWith t (s.ids ++ missing.map (·.id)))))

end

/-- What a command line gave: the options before the command, the command, and what its part
gave. -/
structure Matches where
  top : List Given
  command : Command
  part : List Given
  deriving Inhabited

def parse (t : Tool) (words : List String) : Except Stop Matches := do
  let (s, named) ← scanWords t .top words {}
  match named with
  | none =>
    let _ ← finish t .top s false
    .error (.helpOnEmpty t.help)
  | some (c, rest) =>
    let (cs, _) ← scanWords t (.command c) rest {}
    let cs ← finish t (.command c) cs true
    let s ← finish t .top s true
    .ok { top := s.given, command := c, part := cs.given }

namespace Matches

def value? (m : Matches) (t : Tool) (id : String) : Option String :=
  let find (gs : List Given) := (gs.find? (·.id == id)).bind (·.values.head?)
  match find m.part with
  | some v => some v
  | none => match find m.top with
    | some v => some v
    | none => ((t.globals ++ m.command.opts).find? (·.id == id)).bind (·.default)

def flag (m : Matches) (t : Tool) (id : String) : Bool := (m.value? t id).isSome

end Matches

end ConfigTabs.Cli
