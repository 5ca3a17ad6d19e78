import Arazzo.Http

/-! What a run does that can be seen from outside. -/

namespace Arazzo

inductive Event where
  | runStarted (workflowId : String)
  | runFinished (workflowId : String) (succeeded : Bool)
  | stepStarted (workflowId stepId : String)
  | stepSucceeded (workflowId stepId : String)
  | stepFailed (workflowId stepId : String) (status : Option Nat)
  | retryScheduled (workflowId stepId : String) (attempt : Nat) (delay : Duration)
  | goto (workflowId fromStep target : String)
  | workflowEnded (workflowId stepId : String)
deriving DecidableEq

/-- Requests, events and paths of files that were read, each in order; the clock counts milliseconds. -/
structure Trace where
  clock : Nat := 0
  requests : List HttpRequest := []
  events : List Event := []
  reads : List String := []
  /-- The clock at each request; written on the way and never read by the run itself. -/
  sentAt : List Nat := []

namespace Trace

def record (event : Event) (t : Trace) : Trace := { t with events := t.events ++ [event] }

def request (request : HttpRequest) (t : Trace) : Trace :=
  { t with requests := t.requests ++ [request], sentAt := t.sentAt ++ [t.clock] }

def read (path : String) (t : Trace) : Trace := { t with reads := t.reads ++ [path] }

end Trace
end Arazzo
