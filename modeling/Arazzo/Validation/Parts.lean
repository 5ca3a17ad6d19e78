import Arazzo.Validation.Basic
import Arazzo.Component

/-! Rules for criteria, parameters and actions. -/

namespace Arazzo.Validation

def jsonpathVersions : List String := ["draft-goessner-dispatch-jsonpath-00"]

def xpathVersions : List String := ["xpath-30", "xpath-20", "xpath-10"]

def dialect (location : Place) (d : QueryDialect) : Findings :=
  match d.language with
  | .jsonpath =>
    require (jsonpathVersions.contains d.version)
      (invalidAt location "version"
        "unsupported jsonpath version (expected draft-goessner-dispatch-jsonpath-00)")
  | .xpath =>
    require (xpathVersions.contains d.version)
      (invalidAt location "version"
        "unsupported xpath version (expected xpath-30, xpath-20 or xpath-10)")

/-- All kinds of criteria but the simple one need a context. -/
def criterion (location : Place) (c : Criterion) : Findings :=
  let hasContext := (c.context.map fun text => !Text.isBlankText text).getD false
  notBlank location "condition" c.condition ++
    require (c.kind == .simple || hasContext)
      (invalidAt location "context" "must be provided when type is regex, jsonpath or xpath") ++
    (c.context.map (expression location (.member "context"))).getD [] ++
    match c.type with
    | some (.dialect d) => dialect (location ++ [.member "type"]) d
    | _ => []

def criteria (location : Place) (items : List Criterion) : Findings :=
  eachItem (fun i c _ => criterion (location ++ [.item i]) c) items

/-- A reference must lead into the right pool; where it leads from there is only warned about. -/
def reference (location : Place) (r : Reusable) (expected : Pool)
    (problem : Option ReferenceError) : Findings :=
  match ComponentRef.parse r.reference with
  | .error error => invalidAt location "reference" error.message
  | .ok target =>
    if target.pool ≠ expected then
      invalidAt location "reference" ("must reference $components." ++ expected.keyword ++ ".*")
    else
      match problem with
      | some error => warningAt location "reference" error.message
      | none => []

def errorOf {ε α : Type} : Except ε α → Option ε
  | .error e => some e
  | .ok _ => none

/-- Entries repeat each other when both are references to the same text, or both concrete and alike. -/
def isRepeated {α : Type} (same : α → α → Bool) (earlier : List (Entry α)) (entry : Entry α) : Bool :=
  earlier.any fun other =>
    match entry, other with
    | .concrete a, .concrete b => same a b
    | .reusable a, .reusable b => a.reference == b.reference
    | _, _ => false

def repeatedIf (holds : Bool) (location : Place) (i : Nat) : Findings :=
  if holds then repeated location (.item i) else []

/-- `ofWorkflowStep` says that the parameters are passed to another workflow. -/
def parameters (components : Option Components) (ofWorkflowStep : Bool) (location : Place)
    (entries : List (Entry Parameter)) : Findings :=
  eachItem
    (fun i entry earlier =>
      let place := location ++ [.item i]
      let again := repeatedIf
        (isRepeated (fun a b => a.name == b.name && a.location == b.location) earlier entry)
        location i
      match entry with
      | .concrete p =>
        notBlank place "name" p.name ++ value place "value" p.value ++
          (if ofWorkflowStep && p.location.isSome then
            warningAt place "in"
              "ignored: parameters of a workflow step map to the workflow's inputs"
          else []) ++
          again
      | .reusable r =>
        again ++
          reference place r .parameters
            (errorOf (Component.resolveParameter components (.reusable r))) ++
          (r.value.map (value place "value")).getD [])
    entries

/-- Steps are known only inside a workflow. -/
abbrev StepIds := Option (List String)

def actionTargets (location : Place) (workflowId stepId : Option String) (stepIds : StepIds) :
    Findings :=
  (workflowId.map (expressionIfMarked location "workflowId")).getD [] ++
    match stepId, stepIds with
    | some stepId, some stepIds =>
      require (stepIds.contains stepId)
        (invalidAt location "stepId" "must reference a stepId in the current workflow")
    | _, _ => []

def gotoTargets (location : Place) (workflowId stepId : Option String) (stepIds : StepIds) :
    Findings :=
  require (workflowId.isSome != stepId.isSome)
      (invalid location none "type=goto must specify exactly one of workflowId or stepId") ++
    actionTargets location workflowId stepId stepIds

def successAction (location : Place) (a : SuccessAction) (stepIds : StepIds) : Findings :=
  match a.kind with
  | .finish =>
    require (a.workflowId.isNone && a.stepId.isNone)
      (invalid location none "type=end must not specify workflowId or stepId")
  | .goto => gotoTargets location a.workflowId a.stepId stepIds

def failureAction (location : Place) (a : FailureAction) (stepIds : StepIds) : Findings :=
  let retries := a.retryAfter.isSome || a.retryLimit.isSome
  match a.kind with
  | .finish =>
    require (a.workflowId.isNone && a.stepId.isNone && !retries)
      (invalid location none
        "type=end must not specify workflowId, stepId, retryAfter or retryLimit")
  | .goto =>
    require (!retries)
        (invalid location none "type=goto must not specify retryAfter or retryLimit") ++
      gotoTargets location a.workflowId a.stepId stepIds
  | .retry =>
    require (!a.retryAfter.any fun seconds => seconds < 0.0)
        (invalidAt location "retryAfter" "must be non-negative") ++
      require (!(a.workflowId.isSome && a.stepId.isSome))
        (invalid location none "type=retry must not specify both workflowId and stepId") ++
      actionTargets location a.workflowId a.stepId stepIds

def actions {α : Type} (name : α → String) (ownCriteria : α → List Criterion) (pool : Pool)
    (problem : Reusable → Option ReferenceError) (own : Place → α → Findings) (location : Place)
    (entries : List (Entry α)) : Findings :=
  eachItem
    (fun i entry earlier =>
      let place := location ++ [.item i]
      let again := repeatedIf (isRepeated (fun a b => name a == name b) earlier entry) location i
      match entry with
      | .concrete a =>
        notBlank place "name" (name a) ++ again ++ own place a ++
          criteria (place ++ [.entry "criteria"]) (ownCriteria a)
      | .reusable r => again ++ reference place r pool (problem r))
    entries

def successActions (components : Option Components) (stepIds : StepIds) (location : Place)
    (entries : List (Entry SuccessAction)) : Findings :=
  actions SuccessAction.name SuccessAction.criteria .successActions
    (fun r => errorOf (Component.resolveSuccessAction components (.reusable r)))
    (fun place a => successAction place a stepIds) location entries

def failureActions (components : Option Components) (stepIds : StepIds) (location : Place)
    (entries : List (Entry FailureAction)) : Findings :=
  actions FailureAction.name FailureAction.criteria .failureActions
    (fun r => errorOf (Component.resolveFailureAction components (.reusable r)))
    (fun place a => failureAction place a stepIds) location entries

end Arazzo.Validation
