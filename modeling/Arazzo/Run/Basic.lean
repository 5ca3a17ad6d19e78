import Arazzo.Criterion
import Arazzo.OpenApi.Basic
import Arazzo.Request
import Arazzo.Sources.Basic
import Arazzo.Trace

/-! Runs: what they report, and why they fail. -/

namespace Arazzo

inductive RunFault where
  | sources (error : SourceError)
  | workflowNotFound (name : String)
  | missingInput (name : String)
  | noTarget
  | operation (error : LookupError)
  | reference (error : ReferenceError)
  | resolve (error : ResolveError)
  | criterion (error : CriterionError)
  | request (error : RequestError)
  | http (error : HttpError)
  | noMatchingAction (status : Option Nat)
  | retriesExhausted (attempts : Nat)
  | unknownGotoTarget (target : String)
  | budgetExceeded (limit : Nat)
  | deadlineExceeded (deadline : Duration)
  | dependencyCycle (workflowIds : List String)
  | unfinished

namespace RunFault

def statusText : Option Nat → String
  | some status => "Some(" ++ toString status ++ ")"
  | none => "None"

def message : RunFault → String
  | .sources error => error.message
  | .workflowNotFound name => "workflow `" ++ name ++ "` not found"
  | .missingInput name => "missing required input `" ++ name ++ "`"
  | .noTarget => "step has no operationId, operationPath or workflowId"
  | .operation error => error.message
  | .reference error => error.message
  | .resolve error => error.message
  | .criterion error => error.message
  | .request error => error.message
  | .http error => error.message
  | .noMatchingAction status =>
    "step failed (status " ++ statusText status ++ ") and no failure action matched"
  | .retriesExhausted attempts => "retries exhausted after " ++ toString attempts ++ " attempts"
  | .unknownGotoTarget target => "unknown goto target `" ++ target ++ "`"
  | .budgetExceeded limit => "step execution budget of " ++ toString limit ++ " exceeded"
  | .deadlineExceeded deadline => "workflow deadline of " ++ deadline.text ++ " exceeded"
  | .dependencyCycle ids => "workflow dependency cycle: " ++ String.intercalate " -> " ids
  | .unfinished => "the run did not finish"

end RunFault

structure RunError where
  workflowId : String
  stepId : Option String
  fault : RunFault

namespace RunError

def message (e : RunError) : String :=
  let step := match e.stepId with
    | some id => " step `" ++ id ++ "`"
    | none => ""
  "workflow `" ++ e.workflowId ++ "`" ++ step ++ ": " ++ e.fault.message

end RunError

/-- One execution of a step; retries and returns to it are counted anew. -/
structure StepRecord where
  workflowId : String
  stepId : String
  attempt : Nat
  status : Option Nat
  success : Bool
deriving DecidableEq

structure Report where
  workflowId : String
  outputs : Table Json
  steps : List StepRecord

inductive Stop (ε : Type) where
  | failed (error : ε)
  | expired
  | unfinished

def Stop.map {ε ε' : Type} (f : ε → ε') : Stop ε → Stop ε'
  | .failed error => .failed (f error)
  | .expired => .expired
  | .unfinished => .unfinished

structure Environment where
  client : HttpClient
  config : Config := {}
  /-- The time since the start of 1970 at which the clock of the trace shows zero. -/
  epoch : Duration := ⟨0⟩
  /-- The last moment of the run, on the clock of its trace. -/
  limit : Option Nat := none

namespace Environment

def now (env : Environment) (clock : Nat) : Duration :=
  ⟨env.epoch.nanos + (Duration.ofMillis clock).nanos⟩

def limitedFrom (clock : Nat) (env : Environment) : Environment :=
  { env with limit := env.config.deadline.map fun d => clock + d.millisUp }

end Environment

namespace Trace

def wait {ε : Type} (limit : Option Nat) (d : Duration) (t : Trace) : Except (Stop ε) Unit × Trace :=
  let later := t.clock + d.millisUp
  match limit with
  | some last =>
    if later ≤ last then (.ok (), { t with clock := later })
    else (.error .expired, { t with clock := max t.clock last })
  | none => (.ok (), { t with clock := later })

end Trace
end Arazzo
