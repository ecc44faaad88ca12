import ConfigTabs.Snippet.Error
import ConfigTabs.Snippet.JsonFile
import ConfigTabs.Snippet.TomlFile
import ConfigTabs.Snippet.YamlFile
/-!
Reading a snippet from the text of a snippet file, in the format the file is written in.
-/
namespace ConfigTabs

/-- The snippet a file's content describes, or why it describes none. -/
def readSnippet (format : Format) (content : String) : Except SnippetError SnippetInput :=
  let r : Except String SnippetInput := match format with
    | .json => Json.readSnippet content
    | .toml => Toml.readSnippet content
    | .yaml => Yaml.readSnippet content
  r.mapError (SnippetError.parse format)

end ConfigTabs
