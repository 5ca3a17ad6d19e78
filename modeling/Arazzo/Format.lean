import Arazzo.Json.Reader
import Arazzo.Yaml.Value
import Arazzo.Text.Blank
import Arazzo.Text.Reason

/-! Reading a document's text as JSON or YAML. -/

namespace Arazzo

inductive Format where
  | json
  | yaml
  | auto
deriving DecidableEq

inductive FormatError where
  | json
  | yaml
deriving DecidableEq

namespace FormatError

def message : FormatError → String
  | .json => "failed to parse as JSON: " ++ unstatedReason
  | .yaml => "failed to parse as YAML: " ++ unstatedReason

end FormatError

namespace Format

def looksLikeJson (text : String) : Bool :=
  match Text.trimStartChars text.toList with
  | '\x7b' :: _ => true
  | '[' :: _ => true
  | _ => false

/-- The first reading that succeeds; the error names the format that the text looks like. -/
def load (format : Format) (text : String) : Except FormatError Json :=
  match format with
  | .json => (Json.parse? text).elim (.error .json) .ok
  | .yaml => (Yaml.parse? text).elim (.error .yaml) .ok
  | .auto =>
    if looksLikeJson text then (Json.parse? text <|> Yaml.parse? text).elim (.error .json) .ok
    else (Yaml.parse? text <|> Json.parse? text).elim (.error .yaml) .ok

end Format
end Arazzo
