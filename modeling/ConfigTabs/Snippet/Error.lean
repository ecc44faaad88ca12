import ConfigTabs.Snippet.Format
/-!
Why a snippet cannot be loaded or rendered, and the sentence that says so.
-/
namespace ConfigTabs

/-- The failures of loading and rendering a snippet. -/
inductive SnippetError where
  /-- No value and no replacement text for these formats. -/
  | configuration (missing : List Format)
  /-- The value has no text in this format. -/
  | serialization (format : Format) (message : String)
  /-- The snippet file could not be read; `cause` is the system's reason. -/
  | io (path : String) (cause : String)
  /-- The snippet file is not a snippet: unknown extension or bad content. -/
  | source (path : String) (message : String)
  /-- Snippet text in a format could not be read. -/
  | parse (format : Format) (message : String)
  deriving DecidableEq, Repr

namespace SnippetError

def message : SnippetError → String
  | .configuration missing => "no value and no override for " ++ ", ".intercalate (missing.map Format.name)
  | .serialization f m => "cannot render value as " ++ f.name ++ ": " ++ m
  | .io path _ => "IO error when reading `" ++ path ++ "`"
  | .source path m => "invalid snippet file `" ++ path ++ "`: " ++ m
  | .parse f m => "invalid " ++ f.name ++ " snippet: " ++ m

def fullMessage : SnippetError → String
  | .io path cause => (SnippetError.io path cause).message ++ ": " ++ cause
  | e => e.message

def kind : SnippetError → String
  | .configuration _ => "Configuration"
  | .serialization _ _ => "Serialization"
  | .io _ _ => "Io"
  | .source _ _ => "Source"
  | .parse _ _ => "Parse"

end SnippetError

end ConfigTabs
