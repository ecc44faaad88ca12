import ConfigTabs.Snippet.Format
import ConfigTabs.Text.Blank
/-!
Normalizing a tab's body: trimming, and the marker line of an excerpt.
-/
namespace ConfigTabs

def defaultMarker : String := "..."

namespace Format

/-- The trimmed body, framed by the marker when one is given. -/
def normalize (f : Format) (raw : String) (marker : Option String) : String :=
  let body := Text.trimBlank raw
  match marker with
  | none => body
  | some m =>
    match f with
    | .yaml | .toml => m ++ "\n\n" ++ body
    | .json => "\x7b\n" ++ m ++ "\n" ++ String.ofList (body.toList.drop 1)

end Format

end ConfigTabs
