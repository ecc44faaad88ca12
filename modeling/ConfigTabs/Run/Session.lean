import ConfigTabs.Files.Tree
import ConfigTabs.Snippet.Error
import ConfigTabs.Text.Ansi
/-!
A run of the tool: its files, its directory, and what it has written so far, with coloured log
lines and a progress line.
-/
namespace ConfigTabs.Run

/-- Why a run stopped. -/
inductive Failure where
  /-- The settings file could not be read. -/
  | configUnreadable (path : String) (cause : Files.IoError)
  /-- The settings file is not valid; the detail is the parser's report. -/
  | configMalformed (detail : String)
  /-- The settings break rules; the text lists them. -/
  | diagnostics (text : String)
  /-- A snippet could not be read or rendered; the notes say what was being done, outermost
  first. -/
  | snippet (notes : List String) (e : SnippetError)
  | other (message : String)
  deriving Repr, Inhabited

namespace Failure

def kind : Failure → String
  | .configUnreadable .. => "ConfigIo"
  | .configMalformed _ => "Toml"
  | .diagnostics _ => "Diagnostics"
  | .snippet _ e => e.kind
  | .other _ => "Error"

def message : Failure → String
  | .configUnreadable p c => "IO error when reading `" ++ p ++ "`: " ++ c.message
  | .configMalformed d => "Config file parsing error: " ++ d
  | .diagnostics t => t
  | .snippet notes e => String.join (notes.map (· ++ ": ")) ++ e.fullMessage
  | .other m => m

end Failure

/-- The state of a run. -/
structure Session where
  files : Files.Tree
  /-- The directory the tool runs in, by names below the top of the area. -/
  cwd : List String
  verbose : Bool := false
  out : String := ""
  err : String := ""
  /-- Whether a progress line is on screen. -/
  progress : Bool := false
  deriving Repr, Inhabited

abbrev Step := EStateM Failure Session

def clearLine : String := String.singleton (Char.ofNat 27) ++ "[1G" ++ String.singleton (Char.ofNat 27) ++ "[2K"

def tagColor (module : String) : Nat :=
  match module.toLower with
  | "render" => 94
  | "build" | "check" => 92
  | "error" => 91
  | _ => 93

def tag (module : String) : String := Ansi.bold (Ansi.fg (tagColor module) ("[" ++ module ++ "]"))

def print (text : String) : Step Unit := modify fun s => { s with out := s.out ++ text }

def printError (text : String) : Step Unit := modify fun s => { s with err := s.err ++ text }

def log (module message : String) : Step Unit := do
  let s ← get
  print ((if s.progress then clearLine else "") ++ tag module ++ " " ++ message ++ "\n")

def debug (module message : String) : Step Unit := do
  if (← get).verbose then log module message

def progressLine (module : String) (done total : Nat) : String :=
  clearLine ++ tag module ++ " snippets(" ++ toString done ++ "/" ++ toString total ++ ")"

def showProgress (module : String) (done total : Nat) : Step Unit := do
  modify fun s => { s with progress := true }
  print (progressLine module done total)

def finishProgress (module : String) (done total : Nat) : Step Unit := do
  modify fun s => { s with progress := false }
  print (progressLine module done total ++ "\n")

def fail {α : Type} (f : Failure) : Step α := throw f

end ConfigTabs.Run
