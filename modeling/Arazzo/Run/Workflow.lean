import Arazzo.Run.Inputs
import Arazzo.Run.State
import Arazzo.Run.Step

/-! Running workflows, with those that they depend on, hand over to and go to. -/

namespace Arazzo

abbrev Running := ExceptT (Stop RunError) (StateM RunState)

inductive Finish where
  | completed
  | ended
deriving DecidableEq, Repr

structure Scene where
  key : DocumentKey
  registry : Registry

structure Invocation where
  resolver : Resolver
  context : Context

def Resolver.publishWorkflow (workflowId : String) (outputs : Table Json) (r : Resolver) : Resolver :=
  outputs.foldl (fun r (name, value) => r.publish (outputKey .workflows workflowId name) value) r

def Invocation.receive (workflowId : String) (outputs : Table Json) (inv : Invocation) :
    Invocation :=
  { resolver := inv.resolver.publishWorkflow workflowId outputs
    context := { inv.context with outputs := Table.union inv.context.outputs outputs } }

namespace Run

def emit (event : Event) : Running Unit := modify (·.emit event)

def fail {α : Type} (workflowId : String) (stepId : Option String) (fault : RunFault) : Running α :=
  throw (.failed ⟨workflowId, stepId, fault⟩)

def orFail {α : Type} (workflowId : String) (stepId : Option String) (result : Except RunFault α) :
    Running α :=
  match result with
  | .ok a => pure a
  | .error fault => fail workflowId stepId fault

def onStep {α : Type} (workflowId stepId : String) (inv : Invocation) (work : Stepping α) :
    Running (α × Invocation) :=
  ExceptT.mk fun s =>
    let session : Session := ⟨s.trace, inv.resolver, inv.context⟩
    match work.run session with
    | (.ok a, session) =>
      (.ok (a, ⟨session.resolver, session.context⟩), s.traced session.trace)
    | (.error stop, session) =>
      (.error (stop.map fun fault => ⟨workflowId, some stepId, fault⟩), s.traced session.trace)

def sleep (env : Environment) (d : Duration) : Running Unit :=
  ExceptT.mk fun s =>
    let (result, trace) := s.trace.wait env.limit d
    (result, s.traced trace)

def aim? (scene : Scene) (reference : String) : Option (Scene × String) :=
  match Expression.parse reference with
  | .ok (.named .sourceDescriptions path) =>
    (Table.get? path.root scene.registry.nested).map fun registry =>
      (⟨scene.key ++ [path.root], registry⟩, String.intercalate "." path.rest)
  | _ => some (scene, reference)

/-- A workflow of this document by its id, or of a nested one by the name of its source. -/
def locate (scene : Scene) (reference : String) : Except RunFault (Scene × Workflow) :=
  match (aim? scene reference).bind fun (target, id) =>
    (target.registry.document.workflow? id).map (target, ·) with
  | some found => .ok found
  | none => .error (.workflowNotFound reference)

def spend (env : Environment) (workflowId stepId : String) : Running Unit := do
  modify RunState.count
  if (← get).executions > env.config.maxSteps then
    fail workflowId (some stepId) (.budgetExceeded env.config.maxSteps)

def delegatedInputs (scene : Scene) (workflow : Workflow) (step : Step) : Stepping Json := do
  let parameters ← Stepping.ofExcept RunFault.reference
    (effectiveParameters scene.registry.document.components workflow step)
  let values ← parameters.mapM fun p => do
    let value ← Stepping.ofResolving RunFault.resolve fun context =>
      Resolver.resolveValue (some context) p.value
    pure (p.name, value)
  return Json.ofMembers values

/-- One output of a workflow; after an early end, what is not there is left out. -/
def workflowOutput (workflowId : String) (context : Context) (finish : Finish) (expression : String) :
    StateT Resolver (Except RunError) (Option Json) := fun r =>
  let text := Text.trim expression
  let work : Resolving ResolveError (Option Json) :=
    if isExpressionText text then Resolver.resolve text (some context)
    else some <$> Resolver.resolveValue (some context) (.str expression)
  match work.run r, finish with
  | (.ok (some value), r), _ => .ok (some value, r)
  | (.ok none, r), .completed => .ok (some .null, r)
  | (.ok none, r), .ended => .ok (none, r)
  | (.error _, r), .ended => .ok (none, r)
  | (.error error, _), .completed => .error ⟨workflowId, none, .resolve error⟩

def workflowOutputs (workflowId : String) (context : Context) (finish : Finish) :
    List (String × String) → Table Json → Resolver → Except RunError (Table Json)
  | [], outputs, _ => .ok outputs
  | (name, expression) :: rest, outputs, r =>
    match workflowOutput workflowId context finish expression r with
    | .error error => .error error
    | .ok (some value, r) =>
      workflowOutputs workflowId context finish rest (Table.insert name value outputs) r
    | .ok (none, r) => workflowOutputs workflowId context finish rest outputs r

def ofExcept {α : Type} : Except RunError α → Running α
  | .ok a => pure a
  | .error error => throw (.failed error)

mutual

/--
Runs one workflow and gives its outputs. The first argument bounds how deep the work may nest:
each of these functions hands a smaller bound to what it calls.
-/
def runWorkflow (env : Environment) : Nat → Scene → String → Json → Running (Table Json)
  | 0, _, _, _ => throw .unfinished
  | bound + 1, scene, workflowId, inputs => do
    let document := scene.registry.document
    match document.workflow? workflowId with
    | none => fail workflowId none (.workflowNotFound workflowId)
    | some workflow =>
      let inputs ← orFail workflowId none (prepareInputs document workflow inputs)
      let resolver ← runDependencies env bound scene workflowId workflow.dependsOn { document }
      let context : Context := { workflowId, inputs }
      let (finish, inv) ← runSteps env bound scene workflow ⟨resolver, context⟩ [] 0
      ofExcept (workflowOutputs workflowId inv.context finish workflow.outputs inv.context.outputs
        inv.resolver)

def runDependencies (env : Environment) :
    Nat → Scene → String → List String → Resolver → Running Resolver
  | 0, _, _, _, _ => throw .unfinished
  | _ + 1, _, _, [], resolver => return resolver
  | bound + 1, scene, dependent, reference :: rest, resolver => do
    let (target, workflow) ← orFail dependent none (locate scene reference)
    let outputs ← runDependency env bound target workflow.workflowId dependent
    modify (·.note
      (.published ⟨scene.key, dependent⟩ ⟨target.key, workflow.workflowId⟩ outputs))
    runDependencies env bound scene dependent rest
      (resolver.publishWorkflow workflow.workflowId outputs)

def runDependency (env : Environment) : Nat → Scene → String → String → Running (Table Json)
  | 0, _, _, _ => throw .unfinished
  | bound + 1, target, workflowId, dependent => do
    let key : WorkflowKey := ⟨target.key, workflowId⟩
    let s ← get
    match s.finished.lookup key with
    | some outputs => return outputs
    | none =>
      if key ∈ s.stack then
        fail dependent none (.dependencyCycle (s.stack.map (·.workflowId) ++ [workflowId]))
      else
        modify (·.enter key)
        let outputs ← runWorkflow env bound target workflowId (.obj [])
        modify (·.complete key outputs)
        return outputs

/-- Runs the steps from a position on; `retries` counts those made of each step. -/
def runSteps (env : Environment) :
    Nat → Scene → Workflow → Invocation → Table Nat → Nat → Running (Finish × Invocation)
  | 0, _, _, _, _, _ => throw .unfinished
  | bound + 1, scene, workflow, inv, retries, index =>
    match workflow.steps[index]? with
    | none => return (.completed, inv)
    | some step => do
      let workflowId := workflow.workflowId
      let stepId := step.stepId
      spend env workflowId stepId
      let made := (Table.get? stepId retries).getD 0
      modify (·.start ⟨scene.key, workflowId⟩ stepId)
      let (outcome, inv) ← runStep env bound scene workflow step inv
      modify (·.file (outcome.record workflowId stepId (made + 1)))
      match outcome.action with
      | .next =>
        runSteps env bound scene workflow inv (Table.erase stepId retries) (index + 1)
      | .finish => do
        emit (.workflowEnded workflowId stepId)
        return (.ended, inv)
      | .gotoStep target => do
        emit (.goto workflowId stepId target)
        match workflow.stepIndex? target with
        | none => fail workflowId (some stepId) (.unknownGotoTarget target)
        | some index => runSteps env bound scene workflow inv retries index
      | .gotoWorkflow reference => do
        emit (.goto workflowId stepId reference)
        match locate scene reference with
        | .error _ => fail workflowId (some stepId) (.unknownGotoTarget reference)
        | .ok (target, called) =>
          let outputs ← runWorkflow env bound target called.workflowId inv.context.inputs
          return (.ended, inv.receive called.workflowId outputs)
      | .retry delay limit =>
        if made ≥ limit then fail workflowId (some stepId) (.retriesExhausted (made + 1))
        else do
          emit (.retryScheduled workflowId stepId (made + 2) delay)
          sleep env delay
          runSteps env bound scene workflow inv (Table.insert stepId (made + 1) retries) index

def runStep (env : Environment) :
    Nat → Scene → Workflow → Step → Invocation → Running (StepOutcome × Invocation)
  | 0, _, _, _, _ => throw .unfinished
  | bound + 1, scene, workflow, step, inv =>
    match step.target? with
    | none => fail workflow.workflowId (some step.stepId) .noTarget
    | some (.workflow reference) => do
      let (target, called) ← orFail workflow.workflowId (some step.stepId) (locate scene reference)
      let (inputs, inv) ← onStep workflow.workflowId step.stepId inv
        (delegatedInputs scene workflow step)
      let outputs ← runWorkflow env bound target called.workflowId inputs
      onStep workflow.workflowId step.stepId (inv.receive called.workflowId outputs)
        (conclude env scene.registry workflow step none)
    | some _ =>
      onStep workflow.workflowId step.stepId inv (execute env scene.registry workflow step)

end

def longestDependsOn (registry : Registry) : Nat :=
  registry.workflows.foldl (fun n w => max n w.dependsOn.length) 0

/--
A bound that no run reaches. Every workflow on the way to some work was entered as the first one,
by a step execution, or as a dependency that is under way; each adds its list of dependencies.
-/
def enough (config : Config) (registry : Registry) : Nat :=
  (config.maxSteps + registry.workflows.length + 2) * (2 * longestDependsOn registry + 6) +
    2 * config.maxSteps + 4

def located (workflowId : String) (config : Config) : Stop RunError → RunError
  | .failed error => error
  | .expired => ⟨workflowId, none, .deadlineExceeded (config.deadline.getD ⟨0⟩)⟩
  | .unfinished => ⟨workflowId, none, .unfinished⟩

/-- A run from its announcement on, with nested work up to a bound; the deadline counts from here. -/
def perform (env : Environment) (bound : Nat) (registry : Registry) (workflowId : String)
    (inputs : Json) (trace : Trace) : Except (Stop RunError) (Table Json) × RunState :=
  (runWorkflow (env.limitedFrom trace.clock) bound ⟨[], registry⟩ workflowId inputs).run
    (.opening workflowId trace)

def withSources (env : Environment) (registry : Registry) (workflowId : String) (inputs : Json) :
    StateM Trace (Except RunError Report) := fun trace =>
  match perform env (enough env.config registry) registry workflowId inputs trace with
  | (.ok outputs, s) =>
    (.ok ⟨workflowId, outputs, s.records⟩, s.trace.record (.runFinished workflowId true))
  | (.error stop, s) =>
    (.error (located workflowId env.config stop), s.trace.record (.runFinished workflowId false))

end Run
end Arazzo
