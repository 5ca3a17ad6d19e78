import Arazzo.Component
import Arazzo.Run.Basic

/-! The inputs of a workflow: defaults are filled in, and required ones must be there. -/

namespace Arazzo.Run

def inputSchema (document : Document) (schema : Json) : Except RunFault Json :=
  match (schema.get? "$ref").bind Json.asStr? with
  | none => .ok schema
  | some reference =>
    match ComponentRef.parse reference with
    | .error error => .error (.reference error)
    | .ok target =>
      if target.pool ≠ .inputs then .error (.reference (.wrongPool reference .inputs))
      else
        match document.components.bind fun c => Table.get? target.name c.inputs with
        | some schema => .ok schema
        | none => .error (.reference (.notFound reference))

def withDefaults (properties inputs : Table Json) : Table Json :=
  properties.foldl
    (fun inputs (name, property) =>
      match Table.contains name inputs, property.get? "default" with
      | false, some value => Table.insert name value inputs
      | _, _ => inputs)
    inputs

def missing? (required : List Json) (inputs : Table Json) : Option String :=
  (required.filterMap Json.asStr?).find? fun name => !Table.contains name inputs

def applySchema (schema : Json) (inputs : Table Json) : Except RunFault Json :=
  let properties := ((schema.get? "properties").bind Json.asObj?).getD []
  let filled := withDefaults properties inputs
  match missing? (((schema.get? "required").bind Json.asArr?).getD []) filled with
  | some name => .error (.missingInput name)
  | none => .ok (.obj filled)

/-- Inputs that are no object are left alone; null counts as an empty object. -/
def prepareInputs (document : Document) (workflow : Workflow) (inputs : Json) :
    Except RunFault Json :=
  match workflow.inputs with
  | none => .ok inputs
  | some schema =>
    match inputSchema document schema with
    | .error fault => .error fault
    | .ok schema =>
      match inputs with
      | .obj members => applySchema schema members
      | .null => applySchema schema []
      | other => .ok other

end Arazzo.Run
