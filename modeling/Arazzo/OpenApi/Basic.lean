import Arazzo.Document.Basic

/-! Interface documents and the operations that they declare. -/

namespace Arazzo

structure InterfaceDocument where
  name : String
  /-- A URL or a path; server URLs may be relative to it. -/
  location : String
  raw : Json

structure DeclaredParameter where
  name : String
  location : ParameterLocation
  required : Bool
deriving DecidableEq

structure Operation where
  sourceName : String
  baseUrl : Option String
  method : String
  path : String
  operationId : Option String
  parameters : List DeclaredParameter
deriving DecidableEq

inductive LookupError where
  | noSources
  | unknownSource (name : String)
  | operationNotFound (id : String)
  | badOperationPath (path reason : String)
  | pathNotFound (sourceName path method : String)
deriving DecidableEq

namespace LookupError

def message : LookupError → String
  | .noSources => "no interface documents are loaded"
  | .unknownSource name => "unknown source description `" ++ name ++ "`"
  | .operationNotFound id => "operationId `" ++ id ++ "` not found in any interface document"
  | .badOperationPath path reason => "invalid operationPath `" ++ path ++ "`: " ++ reason
  | .pathNotFound sourceName path method =>
    "no `" ++ method ++ "` operation at `" ++ path ++ "` in `" ++ sourceName ++ "`"

end LookupError

namespace Operation

def parameterLocation? (name : String) (operation : Operation) : Option ParameterLocation :=
  (operation.parameters.find? (·.name == name)).map (·.location)

end Operation

namespace OpenApi

/-- In the order in which an operation is searched. -/
def methods : List String :=
  ["get", "put", "post", "delete", "options", "head", "patch", "trace"]

end OpenApi
end Arazzo
