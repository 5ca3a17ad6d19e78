import Arazzo.OpenApi.Lookup
import Arazzo.Run.Action

/-! Running one step. -/

namespace Arazzo

structure StepOutcome where
  success : Bool
  action : StepAction
  status : Option Nat

def StepOutcome.record (workflowId stepId : String) (attempt : Nat) (outcome : StepOutcome) :
    StepRecord :=
  ⟨workflowId, stepId, attempt, outcome.status, outcome.success⟩

structure Session where
  trace : Trace := {}
  resolver : Resolver
  context : Context

abbrev Stepping := ExceptT (Stop RunFault) (StateM Session)

namespace Stepping

def ofExcept {ε α : Type} (wrap : ε → RunFault) (result : Except ε α) : Stepping α :=
  match result with
  | .ok a => pure a
  | .error error => throw (.failed (wrap error))

def ofResolving {ε α : Type} (wrap : ε → RunFault) (work : Context → Resolving ε α) : Stepping α :=
  ExceptT.mk fun s =>
    match (work s.context).run s.resolver with
    | (.ok a, r) => (.ok a, { s with resolver := r })
    | (.error error, r) => (.error (.failed (wrap error)), { s with resolver := r })

def emit (event : Event) : Stepping Unit := modify fun s => { s with trace := s.trace.record event }

def wait (env : Environment) (d : Duration) : Stepping Unit :=
  ExceptT.mk fun s =>
    let (result, trace) := s.trace.wait env.limit d
    (result, { s with trace })

/-- The request is on record before the reply is waited for. -/
def send (env : Environment) (request : HttpRequest) : Stepping HttpResponse := do
  let s ← get
  let reply := env.client.answer s.trace.requests request
  set { s with trace := s.trace.request request }
  wait env reply.latency
  ofExcept RunFault.http reply.result

end Stepping

namespace Run

def shadows (own shared : Parameter) : Bool :=
  own.name == shared.name &&
    (own.location.isNone || shared.location.isNone || own.location == shared.location)

def effectiveParameters (components : Option Components) (workflow : Workflow) (step : Step) :
    Except ReferenceError (List Parameter) := do
  let own ← step.parameters.mapM (Component.resolveParameter components)
  let shared ← workflow.parameters.mapM (Component.resolveParameter components)
  return shared.filter (fun p => !own.any fun o => shadows o p) ++ own

def findOperation (documents : List InterfaceDocument) (step : Step) : Except RunFault Operation :=
  match step.target? with
  | some (.operationId id) => (OpenApi.findById documents id).mapError .operation
  | some (.operationPath path) => (OpenApi.findByPath documents path).mapError .operation
  | _ => .error .noTarget

def publishOutputs (stepId : String) : List (String × String) → Stepping (Table Json)
  | [] => return []
  | (name, expression) :: rest => do
    let value ← Stepping.ofResolving RunFault.resolve fun context =>
      Resolver.resolveValue (some context) (.str expression)
    modify fun s =>
      { s with resolver := s.resolver.publish (outputKey .steps stepId name) value }
    return (name, value) :: (← publishOutputs stepId rest)

def publishStep (step : Step) : Stepping Unit := do
  let outputs ← publishOutputs step.stepId step.outputs
  modify fun s =>
    { s with context :=
      { s.context with stepOutputs := Table.insert step.stepId outputs s.context.stepOutputs } }

def conclude (env : Environment) (registry : Registry) (workflow : Workflow) (step : Step)
    (status : Option Nat) : Stepping StepOutcome := do
  let components := registry.document.components
  let success ← Stepping.ofResolving RunFault.criterion fun context =>
    Criterion.allHold context step.successCriteria
  if success then
    let action ← Stepping.ofResolving id (successAction components workflow step)
    publishStep step
    Stepping.emit (.stepSucceeded workflow.workflowId step.stepId)
    return ⟨true, .ofSuccess action, status⟩
  else
    Stepping.emit (.stepFailed workflow.workflowId step.stepId status)
    match ← Stepping.ofResolving id (failureAction components workflow step) with
    | none => throw (.failed (.noMatchingAction status))
    | some action =>
      let z ← get
      return ⟨false, .ofFailure env z.trace.clock z.context action, status⟩

def prepare (env : Environment) (registry : Registry) (workflow : Workflow) (step : Step) :
    Stepping BuiltRequest := do
  let operation ← Stepping.ofExcept id (findOperation registry.openapi step)
  let location := ((registry.interface? operation.sourceName).map (·.location)).getD ""
  let parameters ← Stepping.ofExcept RunFault.reference
    (effectiveParameters registry.document.components workflow step)
  Stepping.ofResolving RunFault.request
    (Request.build env.config operation location parameters step.requestBody)

def execute (env : Environment) (registry : Registry) (workflow : Workflow) (step : Step) :
    Stepping StepOutcome := do
  let built ← prepare env registry workflow step
  let response ← Stepping.send env built.request
  let exchange :=
    { built.exchange with
      status := response.status
      responseHeaders := response.headers
      responseBody := decodeBody response.body }
  modify fun s => { s with context := { s.context with exchange := some exchange } }
  conclude env registry workflow step (some response.status)

end Run
end Arazzo
