import Arazzo.Proofs.Run.Passage

/-! What those who watch a run are told: that it starts, how each of its steps goes, as the report
has it, and that it is over. -/

namespace Arazzo
namespace Event

def verdict? : Event → Option (String × String × Bool)
  | .stepSucceeded workflowId stepId => some (workflowId, stepId, true)
  | .stepFailed workflowId stepId _ => some (workflowId, stepId, false)
  | _ => none

def isFrame : Event → Bool
  | .runStarted .. => true
  | .runFinished .. => true
  | _ => false

theorem verdict?_of_isAside {event : Event} (h : event.isAside) : event.verdict? = none := by
  cases event <;> first | rfl | cases h

theorem isFrame_of_isAside {event : Event} (h : event.isAside) : event.isFrame = false := by
  cases event <;> first | rfl | cases h

end Event

def StepRecord.verdict (record : StepRecord) : String × String × Bool :=
  (record.workflowId, record.stepId, record.success)

namespace Run

/-- The events from one state to another lie within a run, and the records go with them. -/
structure Recounts (s s' : RunState) (told : List Event) : Prop where
  events : s'.trace.events = s.trace.events ++ told
  inside : ∀ event ∈ told, event.isFrame = false
  records : s'.records.map StepRecord.verdict =
    s.records.map StepRecord.verdict ++ told.filterMap Event.verdict?

variable {env : Environment} {registry : Registry} {s s' s'' : RunState} {told told' : List Event}

theorem verdict?_verdict (w : Workflow) (step : Step) (success : Bool) (status : Option Nat) :
    (verdict w step success status).verdict? = some (w.workflowId, step.stepId, success) := by
  cases success <;> rfl

theorem isFrame_verdict (w : Workflow) (step : Step) (success : Bool) (status : Option Nat) :
    (verdict w step success status).isFrame = false := by
  cases success <;> rfl

namespace Recounts

theorem silent (hevents : s'.trace.events = s.trace.events) (hrecords : s'.records = s.records) :
    Recounts s s' [] where
  events := by rw [hevents, List.append_nil]
  inside := by simp
  records := by rw [hrecords, List.filterMap_nil, List.append_nil]

theorem trans (h : Recounts s s' told) (h' : Recounts s' s'' told') :
    Recounts s s'' (told ++ told') where
  events := by rw [h'.events, h.events, List.append_assoc]
  inside := by
    intro event hevent
    rcases List.mem_append.mp hevent with hevent | hevent
    · exact h.inside event hevent
    · exact h'.inside event hevent
  records := by rw [h'.records, h.records, List.filterMap_append, List.append_assoc]

theorem of_judged {scene : Scene} {w : Workflow} {step : Step} {outcome : StepOutcome}
    {session : Session} (attempt : Nat)
    (h : Judges env scene w step s (.ok outcome) session) :
    Recounts s ((s.traced session.trace).file (outcome.record w.workflowId step.stepId attempt))
      [verdict w step outcome.success outcome.status] where
  events := h.events_of_ok
  inside := by
    intro event hevent
    rw [List.mem_singleton.mp hevent]
    exact isFrame_verdict ..
  records := by
    change (s.records ++ [_]).map _ = _
    rw [List.map_append, List.filterMap_cons, verdict?_verdict]
    rfl

theorem of_event {event : Event} (hframe : event.isFrame = false) (hverdict : event.verdict? = none)
    (hevents : s'.trace.events = s.trace.events ++ [event]) (hrecords : s'.records = s.records) :
    Recounts s s' [event] where
  events := hevents
  inside := by simpa using hframe
  records := by rw [hrecords, List.filterMap_cons, hverdict, List.filterMap_nil, List.append_nil]

end Recounts

theorem Move.recounts (h : Move env registry s s') : ∃ told, Recounts s s' told := by
  cases h with
  | start => exact ⟨_, .of_event rfl rfl rfl rfl⟩
  | judge attempt judged => exact ⟨_, .of_judged attempt judged⟩
  | tell aside =>
    exact ⟨_, .of_event (Event.isFrame_of_isAside aside) (Event.verdict?_of_isAside aside) rfl rfl⟩
  | sleep run => exact ⟨_, .silent (wait_keeps run).1 rfl⟩
  | enter => exact ⟨_, .silent rfl rfl⟩
  | complete => exact ⟨_, .silent rfl rfl⟩
  | publish => exact ⟨_, .silent rfl rfl⟩

theorem Path.recounts (h : Path env registry s s') : ∃ told, Recounts s s' told := by
  induction h with
  | refl => exact ⟨[], .silent rfl rfl⟩
  | tail _ move ih =>
    obtain ⟨told, hbefore⟩ := ih
    obtain ⟨told', hmove⟩ := move.recounts
    exact ⟨told ++ told', hbefore.trans hmove⟩

/-- A run that stops may leave a step told of that has no record. -/
theorem Last.tells {stop : Stop RunError} (h : Last env stop s s') :
    ∃ told, s'.trace.events = s.trace.events ++ told ∧ ∀ event ∈ told, event.isFrame = false := by
  have silent (hevents : s'.trace.events = s.trace.events) :
      ∃ told, s'.trace.events = s.trace.events ++ told ∧ ∀ event ∈ told, event.isFrame = false :=
    ⟨[], by rw [hevents, List.append_nil], by simp⟩
  cases h with
  | none => exact silent rfl
  | exceed => exact silent rfl
  | judge judged =>
    obtain ⟨status, hevents | hevents⟩ := judged.events_of_error
    · exact silent hevents
    · refine ⟨_, hevents, ?_⟩
      intro event hevent
      rw [List.mem_singleton.mp hevent]
      exact isFrame_verdict ..
  | sleep run => exact silent (wait_keeps run).1

/--
A run is told of by its start, by events of its steps and by its end, whose status is that of the
answer. A report has the steps that were told of as over, in this order, and no other was started.
-/
theorem withSources_recounted (env : Environment) (registry : Registry) (workflowId : String)
    (inputs : Json) (trace : Trace) :
    let (answer, final) := withSources env registry workflowId inputs trace
    ∃ told, final.events =
        trace.events ++ .runStarted workflowId :: told ++ [.runFinished workflowId answer.isOk] ∧
      (∀ event ∈ told, event.isFrame = false) ∧
      ∀ report, answer = .ok report →
        report.steps.map StepRecord.verdict = told.filterMap Event.verdict? ∧
        (told.filterMap Event.start?).length = report.steps.length := by
  have framed {s : RunState} {told : List Event} (success : Bool)
      (hevents : s.trace.events = (RunState.opening workflowId trace).trace.events ++ told) :
      (s.trace.record (.runFinished workflowId success)).events =
        trace.events ++ .runStarted workflowId :: told ++ [.runFinished workflowId success] := by
    simp [Trace.record, RunState.opening, hevents]
  unfold withSources
  rcases h : perform env (enough env.config registry) registry workflowId inputs trace with
    ⟨stop | outputs, s⟩
  · obtain ⟨mid, hpath, hlast⟩ := stops_of_perform h
    obtain ⟨told, recounts⟩ := hpath.recounts
    obtain ⟨told', hevents, hinside⟩ := hlast.tells
    refine ⟨told ++ told', framed false ?_, ?_, by simp⟩
    · rw [hevents, recounts.events, List.append_assoc]
    · intro event hevent
      rcases List.mem_append.mp hevent with hevent | hevent
      · exact recounts.inside event hevent
      · exact hinside event hevent
  · have passes := passes_of_perform h
    obtain ⟨told, recounts⟩ := passes.path.recounts
    refine ⟨told, framed true recounts.events, recounts.inside, ?_⟩
    rintro report ⟨⟩
    refine ⟨recounts.records, ?_⟩
    -- A run that passes has a record for every step that it started.
    have hbalance := passes.balance
    rw [starts_of_events told recounts.events] at hbalance
    change _ + 0 = _ + s.records.length at hbalance
    change _ = s.records.length
    omega

end Run
end Arazzo
