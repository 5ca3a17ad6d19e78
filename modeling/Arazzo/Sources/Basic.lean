import Arazzo.Document.Basic
import Arazzo.Files
import Arazzo.Format
import Arazzo.Http
import Arazzo.Location
import Arazzo.OpenApi.Basic

/-! A document together with the documents that its source descriptions name. -/

namespace Arazzo

inductive FetchFault where
  | http (error : HttpError)
  | status (code : Nat)
deriving DecidableEq

inductive LoadError where
  | fetch (location : String) (fault : FetchFault)
  | read (path : String) (fault : FileFault)
  | parse (location : String) (error : FormatError)

inductive SourceError where
  | load (name : String) (error : LoadError)
  | badNested (name : String) (errors : Nat) (first : String)
  | cycle (locations : List String)
  | unending (name : String)

namespace FetchFault

def message : FetchFault → String
  | .http error => error.message
  | .status code => "HTTP " ++ toString code

end FetchFault

namespace LoadError

def message : LoadError → String
  | .fetch location fault => "fetch " ++ location ++ ": " ++ fault.message
  | .read path fault => "read " ++ path ++ ": " ++ fault.message
  | .parse location error => "parse " ++ location ++ ": " ++ error.message

end LoadError

namespace SourceError

def message : SourceError → String
  | .load name error => "source description `" ++ name ++ "`: " ++ error.message
  | .badNested name errors first =>
    "source description `" ++ name ++ "` is not a valid Arazzo document (" ++ toString errors ++
      " errors, first: " ++ first ++ ")"
  | .cycle locations => "source descriptions form a cycle: " ++ String.intercalate " -> " locations
  | .unending name => "source description `" ++ name ++ "` is nested too deeply"

end SourceError

/-- Interface documents in the order of their descriptions, and workflow documents by name. -/
inductive Registry where
  | mk (document : Document) (location : Option Location) (openapi : List InterfaceDocument)
    (nested : List (String × Registry))

namespace Registry

def document : Registry → Document
  | .mk document _ _ _ => document

def location : Registry → Option Location
  | .mk _ location _ _ => location

def openapi : Registry → List InterfaceDocument
  | .mk _ _ openapi _ => openapi

def nested : Registry → Table Registry
  | .mk _ _ _ nested => nested

def interface? (name : String) (r : Registry) : Option InterfaceDocument :=
  r.openapi.find? (·.name == name)

mutual

def workflows : Registry → List Workflow
  | .mk document _ _ nested => document.workflows ++ nestedWorkflows nested

def nestedWorkflows : List (String × Registry) → List Workflow
  | [] => []
  | (_, r) :: rest => workflows r ++ nestedWorkflows rest

end

end Registry
end Arazzo
