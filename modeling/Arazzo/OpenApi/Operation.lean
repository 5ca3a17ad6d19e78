import Arazzo.OpenApi.Basic
import Arazzo.OpenApi.Ref
import Arazzo.Text.Case

/-! The operation at a path and a method of an interface document. -/

namespace Arazzo.OpenApi

def declaredLocation? (keyword : String) : Option ParameterLocation :=
  match ParameterLocation.ofKeyword? keyword with
  | some .body => none
  | location => location

def declared? (value : Json) : Option DeclaredParameter := do
  let name ← (value.get? "name").bind Json.asStr?
  let location ← ((value.get? "in").bind Json.asStr?).bind declaredLocation?
  let required := ((value.get? "required").bind Json.asBool?).getD false
  return ⟨name, location, location == .path || required⟩

/-- References that lead nowhere are left out. -/
def declaredParameters (document : Json) (holder : Json) : List DeclaredParameter :=
  (((holder.get? "parameters").bind Json.asArr?).getD []).filterMap fun item =>
    (follow document item).toOption.bind declared?

/-- The operation's own parameters replace those of the path with the same name and location. -/
def mergeParameters (shared own : List DeclaredParameter) : List DeclaredParameter :=
  shared.filter (fun p => !own.any fun o => o.name == p.name && o.location == p.location) ++ own

def firstServer? (holder : Json) : Option String := do
  let servers ← (holder.get? "servers").bind Json.asArr?
  let first ← servers.head?
  (first.get? "url").bind Json.asStr?

/-- The operation's server goes before that of the path, and both before the document's. -/
def baseUrl? (document pathItem operation : Json) : Option String :=
  match firstServer? operation, firstServer? pathItem with
  | some url, _ => some url
  | none, some url => some url
  | none, none => firstServer? document

def pathItem? (document : Json) (path : String) : Option Json :=
  (document.get? "paths").bind (·.get? path)

def describe? (document : InterfaceDocument) (path method : String) : Option Operation := do
  let pathItem ← pathItem? document.raw path
  let method := Text.toLower method
  if !methods.contains method then none
  let operation ← pathItem.get? method
  return {
    sourceName := document.name
    baseUrl := baseUrl? document.raw pathItem operation
    method := method.map Text.asciiUpper
    path
    operationId := (operation.get? "operationId").bind Json.asStr?
    parameters := mergeParameters (declaredParameters document.raw pathItem)
      (declaredParameters document.raw operation) }

end Arazzo.OpenApi
