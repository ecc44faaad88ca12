import ConfigTabs.Json.Reader
import ConfigTabs.Json.Writer
import ConfigTabs.Run.Tool
/-!
The command line: the working area comes on standard input as a JSON object from paths to
contents, and a command that changed it prints the whole area on the last line of output.
-/
namespace ConfigTabs.Cli

/-- The working area read from its JSON text. -/
def readArea (text : String) : Except String (List (String × String)) :=
  if text.trimAscii.isEmpty then .ok []
  else
    match Json.parse text with
    | .ok (.object fields) => fields.mapM fun
      | (path, .string content) => .ok (path, content)
      | (path, _) => .error ("the content of `" ++ path ++ "` is not a string")
    | .ok _ => .error "the working area must be a JSON object"
    | .error _ => .error "the working area is not valid JSON"

def areaText (files : List (String × String)) : String :=
  Json.compact (.object (files.map fun (path, content) => (path, .string content)))

def isDisplay (kind : String) : Bool := kind == "DisplayHelp" || kind == "DisplayVersion"

end ConfigTabs.Cli

open ConfigTabs in
partial def readAll (stream : IO.FS.Stream) (acc : String) : IO String := do
  let line ← stream.getLine
  if line.isEmpty then return acc else readAll stream (acc ++ line)

open ConfigTabs in
def main (args : List String) : IO UInt32 := do
  let input ← readAll (← IO.getStdin) ""
  match Cli.readArea input with
  | .error e =>
    IO.eprintln e
    return 2
  | .ok files =>
    let a := Run.runTool args files ""
    let stdout ← IO.getStdout
    let stderr ← IO.getStderr
    stdout.putStr a.out
    stderr.putStr a.err
    let status : UInt32 ← match a.outcome with
      | .stopped kind message =>
        if Cli.isDisplay kind then stdout.putStr message; pure 0
        else stderr.putStr message; pure 2
      | .done _ => pure 0
      | .failed f =>
        stderr.putStrLn ("Error: " ++ f.message)
        pure 1
    if a.files != Run.listFiles (Files.Tree.ofList files) then
      stdout.putStrLn (Cli.areaText a.files)
    stdout.flush
    return status
