import Arazzo.Component
import Arazzo.RetryDelay
import Arazzo.Run.Basic

/-! What follows a step. -/

namespace Arazzo

inductive StepAction where
  | next
  | finish
  | gotoStep (stepId : String)
  | gotoWorkflow (reference : String)
  | retry (delay : Duration) (limit : Nat)
deriving DecidableEq

namespace StepAction

/-- A step goes before a workflow. -/
def goto (stepId workflowId : Option String) : StepAction :=
  match stepId, workflowId with
  | some id, _ => .gotoStep id
  | none, some reference => .gotoWorkflow reference
  | none, none => .finish

def ofSuccess : Option SuccessAction → StepAction
  | none => .next
  | some action =>
    match action.kind with
    | .finish => .finish
    | .goto => goto action.stepId action.workflowId

/-- What is chosen at a moment of the clock; a retry is tried once more unless it says otherwise. -/
def ofFailure (env : Environment) (clock : Nat) (context : Context) (action : FailureAction) :
    StepAction :=
  match action.kind with
  | .finish => .finish
  | .goto => goto action.stepId action.workflowId
  | .retry =>
    .retry
      (RetryDelay.delay action.retryAfter (context.exchange.map (·.responseHeaders))
        env.config.maxRetryDelay (env.now clock))
      (action.retryLimit.getD 1)

end StepAction

namespace Run

def firstHolding {α : Type} (resolve : Entry α → Except ReferenceError α)
    (criteria : α → List Criterion) (context : Context) : List (Entry α) → Resolving RunFault (Option α)
  | [] => return none
  | entry :: rest => do
    match resolve entry with
    | .error error => throw (.reference error)
    | .ok action =>
      if ← (Criterion.allHold context (criteria action)).adapt RunFault.criterion then
        return some action
      else firstHolding resolve criteria context rest

/-- A step's own actions stand in place of the workflow's. -/
def ownOr {α : Type} (own shared : List α) : List α := if own.isEmpty then shared else own

def successAction (components : Option Components) (workflow : Workflow) (step : Step)
    (context : Context) : Resolving RunFault (Option SuccessAction) :=
  firstHolding (Component.resolveSuccessAction components) SuccessAction.criteria context
    (ownOr step.onSuccess workflow.successActions)

def failureAction (components : Option Components) (workflow : Workflow) (step : Step)
    (context : Context) : Resolving RunFault (Option FailureAction) :=
  firstHolding (Component.resolveFailureAction components) FailureAction.criteria context
    (ownOr step.onFailure workflow.failureActions)

end Run
end Arazzo
