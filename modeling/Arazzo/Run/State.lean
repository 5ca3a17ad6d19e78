import Arazzo.Run.Basic

/-! What all workflows of one run share, and how a run moves it on. -/

namespace Arazzo

abbrev DocumentKey := List String

structure WorkflowKey where
  document : DocumentKey
  workflowId : String
deriving DecidableEq, Repr

inductive Deed where
  /-- A step execution was counted; the count includes it, and may be one beyond the budget. -/
  | counted (executions : Nat)
  | started (key : WorkflowKey) (stepId : String)
  | completed (key : WorkflowKey) (outputs : Table Json)
  /-- The outputs of a dependency were published in a workflow that depends on it. -/
  | published (dependent key : WorkflowKey) (outputs : Table Json)

/-- A deed, and what could be seen from outside just before it. -/
structure Moment where
  deed : Deed
  trace : Trace

structure RunState where
  trace : Trace := {}
  executions : Nat := 0
  records : List StepRecord := []
  finished : List (WorkflowKey × Table Json) := []
  stack : List WorkflowKey := []
  /-- Written on the way and never read by the run itself. -/
  log : List Moment := []

namespace RunState

def emit (event : Event) (s : RunState) : RunState := { s with trace := s.trace.record event }

def traced (trace : Trace) (s : RunState) : RunState := { s with trace }

def note (deed : Deed) (s : RunState) : RunState := { s with log := s.log ++ [⟨deed, s.trace⟩] }

def count (s : RunState) : RunState :=
  { s with executions := s.executions + 1 }.note (.counted (s.executions + 1))

def start (key : WorkflowKey) (stepId : String) (s : RunState) : RunState :=
  (s.note (.started key stepId)).emit (.stepStarted key.workflowId stepId)

def file (record : StepRecord) (s : RunState) : RunState :=
  { s with records := s.records ++ [record] }

def enter (key : WorkflowKey) (s : RunState) : RunState := { s with stack := s.stack ++ [key] }

def complete (key : WorkflowKey) (outputs : Table Json) (s : RunState) : RunState :=
  { s with stack := s.stack.dropLast, finished := s.finished ++ [(key, outputs)] }.note
    (.completed key outputs)

def opening (workflowId : String) (trace : Trace) : RunState :=
  { trace := trace.record (.runStarted workflowId) }

end RunState
end Arazzo
