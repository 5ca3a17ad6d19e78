import Arazzo.FilePath
import Arazzo.Url.Reader

/-! Where a document lies: at a URL, or in a file. -/

namespace Arazzo

inductive Location where
  | remote (url : Url)
  | file (path : String)
deriving DecidableEq, Repr

namespace Location

def text : Location → String
  | .remote url => url.text
  | .file path => path

def absolute? (naming : Naming) (reference : String) : Option Location :=
  (Url.parse? naming reference).bind fun url =>
    if url.scheme == "file" then url.filePath?.map .file
    else if Url.isWeb url.scheme then some (.remote url)
    else none

def resolve (naming : Naming) (reference : String) (base : Option Location) : Location :=
  match absolute? naming reference, base with
  | some location, _ => location
  | none, some (.remote url) =>
    match url.join naming reference with
    | .ok url => .remote url
    | .error _ => .file reference
  | none, some (.file path) => .file (FilePath.join ((FilePath.parent? path).getD "") reference)
  | none, none => .file reference

end Location
end Arazzo
