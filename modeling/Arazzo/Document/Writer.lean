import Arazzo.Document.Basic

/-! Documents as JSON: absent and empty optional parts are left out, extensions stand inline. -/

namespace Arazzo

def writeObject (members : List (String × Option Json)) (extensions : Extensions) : Json :=
  let present := members.filterMap fun (name, value) => value.map fun value => (name, value)
  .obj (Table.union (Table.ofList present) extensions)

def writeList {α : Type} (write : α → Json) (items : List α) : Option Json :=
  if items.isEmpty then none else some (.arr (items.map write))

def writeTable {α : Type} (write : α → Json) (table : Table α) : Option Json :=
  if table.isEmpty then none else some (.ofTable write table)

def writeText (text : Option String) : Option Json := text.map .str

namespace Reusable

def toJson (r : Reusable) : Json :=
  writeObject [("reference", some (.str r.reference)), ("value", r.value)] []

end Reusable

namespace Entry

def toJson {α : Type} (write : α → Json) : Entry α → Json
  | .concrete value => write value
  | .reusable r => r.toJson

end Entry

namespace Info

def toJson (info : Info) : Json :=
  writeObject
    [("title", some (.str info.title)), ("summary", writeText info.summary),
      ("description", writeText info.description), ("version", some (.str info.version))]
    info.extensions

end Info

namespace SourceDescription

def toJson (source : SourceDescription) : Json :=
  writeObject
    [("name", some (.str source.name)), ("url", some (.str source.url)),
      ("type", some (.str source.kind.keyword))]
    source.extensions

end SourceDescription

namespace Parameter

def toJson (p : Parameter) : Json :=
  writeObject
    [("name", some (.str p.name)), ("in", p.location.map fun l => .str l.keyword),
      ("value", some p.value)]
    p.extensions

end Parameter

namespace CriterionType

def toJson : CriterionType → Json
  | .known kind => .str kind.keyword
  | .dialect d =>
    writeObject [("type", some (.str d.language.keyword)), ("version", some (.str d.version))]
      d.extensions

end CriterionType

namespace Criterion

def toJson (c : Criterion) : Json :=
  writeObject
    [("context", writeText c.context), ("condition", some (.str c.condition)),
      ("type", c.type.map CriterionType.toJson)]
    c.extensions

end Criterion

namespace SuccessAction

def toJson (a : SuccessAction) : Json :=
  writeObject
    [("name", some (.str a.name)), ("type", some (.str a.kind.keyword)),
      ("workflowId", writeText a.workflowId), ("stepId", writeText a.stepId),
      ("criteria", writeList Criterion.toJson a.criteria)]
    a.extensions

end SuccessAction

namespace FailureAction

def toJson (a : FailureAction) : Json :=
  writeObject
    [("name", some (.str a.name)), ("type", some (.str a.kind.keyword)),
      ("workflowId", writeText a.workflowId), ("stepId", writeText a.stepId),
      ("retryAfter", a.retryAfter.map .ofFloat), ("retryLimit", a.retryLimit.map .ofNat),
      ("criteria", writeList Criterion.toJson a.criteria)]
    a.extensions

end FailureAction

namespace Replacement

def toJson (r : Replacement) : Json :=
  writeObject [("target", some (.str r.target)), ("value", some r.value)] r.extensions

end Replacement

namespace RequestBody

def toJson (b : RequestBody) : Json :=
  writeObject
    [("contentType", writeText b.contentType), ("payload", b.payload),
      ("replacements", writeList Replacement.toJson b.replacements)]
    b.extensions

end RequestBody

namespace Step

def toJson (s : Step) : Json :=
  writeObject
    [("description", writeText s.description), ("stepId", some (.str s.stepId)),
      ("operationId", writeText s.operationId), ("operationPath", writeText s.operationPath),
      ("workflowId", writeText s.workflowId),
      ("parameters", writeList (Entry.toJson Parameter.toJson) s.parameters),
      ("requestBody", s.requestBody.map RequestBody.toJson),
      ("successCriteria", writeList Criterion.toJson s.successCriteria),
      ("onSuccess", writeList (Entry.toJson SuccessAction.toJson) s.onSuccess),
      ("onFailure", writeList (Entry.toJson FailureAction.toJson) s.onFailure),
      ("outputs", writeTable .str s.outputs)]
    s.extensions

end Step

namespace Workflow

def toJson (w : Workflow) : Json :=
  writeObject
    [("workflowId", some (.str w.workflowId)), ("summary", writeText w.summary),
      ("description", writeText w.description), ("inputs", w.inputs),
      ("dependsOn", writeList .str w.dependsOn), ("steps", some (.arr (w.steps.map Step.toJson))),
      ("successActions", writeList (Entry.toJson SuccessAction.toJson) w.successActions),
      ("failureActions", writeList (Entry.toJson FailureAction.toJson) w.failureActions),
      ("outputs", writeTable .str w.outputs),
      ("parameters", writeList (Entry.toJson Parameter.toJson) w.parameters)]
    w.extensions

end Workflow

namespace Components

def toJson (c : Components) : Json :=
  writeObject
    [("inputs", writeTable id c.inputs),
      ("parameters", writeTable (Entry.toJson Parameter.toJson) c.parameters),
      ("successActions", writeTable (Entry.toJson SuccessAction.toJson) c.successActions),
      ("failureActions", writeTable (Entry.toJson FailureAction.toJson) c.failureActions)]
    c.extensions

end Components

namespace Document

def toJson (d : Document) : Json :=
  writeObject
    [("arazzo", some (.str d.version)), ("info", some d.info.toJson),
      ("sourceDescriptions", some (.arr (d.sourceDescriptions.map SourceDescription.toJson))),
      ("workflows", some (.arr (d.workflows.map Workflow.toJson))),
      ("components", d.components.map Components.toJson)]
    d.extensions

end Document
end Arazzo
