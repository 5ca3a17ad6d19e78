import Arazzo.Expression
import Arazzo.OpenApi.Operation

/-! Finding operations by their ids and by their paths. -/

namespace Arazzo.OpenApi

def declares (id : String) (pathItem : Json) (method : String) : Bool :=
  (((pathItem.get? method).bind (·.get? "operationId")).bind Json.asStr?) == some id

/-- The first operation of that id, by path and then by method. -/
def findId? (id : String) (document : InterfaceDocument) : Option Operation := do
  let paths ← (document.raw.get? "paths").bind Json.asObj?
  let (path, method) ← paths.findSome? fun (path, item) =>
    (methods.find? (declares id item)).map fun method => (path, method)
  describe? document path method

def qualified? (text : String) : Option (String × String) :=
  match Expression.parse text with
  | .ok (.named .sourceDescriptions path) => some (path.root, String.intercalate "." path.rest)
  | _ => none

def inSource (documents : List InterfaceDocument) (name : String) :
    Except LookupError InterfaceDocument :=
  match documents.find? (·.name == name) with
  | some document => .ok document
  | none => .error (.unknownSource name)

def orNotFound (id : String) : Option Operation → Except LookupError Operation
  | some operation => .ok operation
  | none => .error (.operationNotFound id)

/-- An id by itself, or one behind the name of a source; the first match wins. -/
def findById (documents : List InterfaceDocument) (reference : String) :
    Except LookupError Operation :=
  if documents.isEmpty then .error .noSources
  else
    let text := Text.trim reference
    match qualified? text with
    | some (name, id) => do
      let document ← inSource documents name
      orNotFound id (findId? id document)
    | none => orNotFound text (documents.findSome? (findId? text))

structure OperationPath where
  /-- None means every source. -/
  sourceName : Option String
  path : String
  method : String
deriving DecidableEq

namespace OperationPath

/-- The name in `\x7b$sourceDescriptions.name.url\x7d`, which may stand anywhere in the text. -/
def sourceName? (cs : List Char) : Option String := do
  let rest ← Text.afterFirst? "\x7b$sourceDescriptions.".toList cs
  let (name, rest) ← Text.splitOnce? '.' rest
  if name.isEmpty || !Text.startsWith "url\x7d".toList rest then none
  else some (String.ofList name)

def parse (text : String) : Except LookupError OperationPath := do
  let bad (reason : String) : LookupError := .badOperationPath text reason
  match Text.splitOnce? '#' text.toList with
  | none => throw (bad "missing `#/paths/...` fragment")
  | some (before, fragment) =>
    let source := sourceName? before
    if !(Text.trimChars before).isEmpty && source.isNone then
      throw (bad "expected \x7b$sourceDescriptions.<name>.url\x7d before the fragment")
    match fragment with
    | '/' :: rest =>
      match Text.splitAll '/' rest with
      | [paths, path, method] =>
        if paths = "paths".toList ∧ !path.isEmpty ∧ !method.isEmpty then
          return ⟨source, String.ofList (Pointer.unescapeChars path),
            Text.toLower (String.ofList method)⟩
        else throw (bad "pointer must address /paths/<path>/<method>")
      | _ => throw (bad "pointer must address /paths/<path>/<method>")
    | _ => throw (bad "fragment must be a JSON pointer")

end OperationPath

def findByPath (documents : List InterfaceDocument) (reference : String) :
    Except LookupError Operation := do
  let target ← OperationPath.parse reference
  let orMissing (sourceName : String) : Option Operation → Except LookupError Operation
    | some operation => .ok operation
    | none => .error (.pathNotFound sourceName target.path target.method)
  match target.sourceName with
  | some name =>
    let document ← inSource documents name
    orMissing name (describe? document target.path target.method)
  | none =>
    if documents.isEmpty then throw .noSources
    else orMissing "*" (documents.findSome? fun d => describe? d target.path target.method)

end Arazzo.OpenApi
