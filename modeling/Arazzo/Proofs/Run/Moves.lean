import Arazzo.Proofs.Registry
import Arazzo.Proofs.Run.Step
import Mathlib.Logic.Relation

/-! A run as a path of moves, with one last move if it stops early. What every move keeps is then
kept by every run, however its workflows call each other. -/

namespace Arazzo
namespace Event

def start? : Event → Option (String × String)
  | .stepStarted workflowId stepId => some (workflowId, stepId)
  | _ => none

/-- Tells of the way through a workflow: no step starts or ends by it, and no run. -/
def isAside : Event → Bool
  | .retryScheduled .. => true
  | .goto .. => true
  | .workflowEnded .. => true
  | _ => false

theorem start?_of_isAside {event : Event} (h : event.isAside) : event.start? = none := by
  cases event <;> first | rfl | cases h

end Event

namespace Run

def starts (s : RunState) : Nat := (s.trace.events.filterMap Event.start?).length

def completed (s : RunState) : List WorkflowKey := s.finished.map (·.1)

def Ready (registry : Registry) (key : WorkflowKey) (s : RunState) : Prop :=
  ∀ dependency, DependsOn registry key dependency → dependency ∈ completed s

def Fresh (key : WorkflowKey) (stepId : String) (s : RunState) : Prop :=
  ∃ log trace, s.log = log ++ [⟨.started key stepId, trace⟩] ∧ s.trace.requests = trace.requests

/-- The workflow of a key ran as a dependency and gave its outputs in this state. -/
def Completes (env : Environment) (registry : Registry) (key : WorkflowKey) (outputs : Table Json)
    (s : RunState) : Prop :=
  ∃ bound scene w before, Home registry scene w ∧ scene.keyOf w = key ∧
    (runWorkflow env bound scene w.workflowId (.obj [])).run before = (.ok outputs, s)

inductive Judges (env : Environment) (scene : Scene) (w : Workflow) (step : Step) (s : RunState) :
    Except (Stop RunFault) StepOutcome → Session → Prop where
  | operation {inv : Invocation} {result : Except (Stop RunFault) StepOutcome} {session : Session}
      (fresh : Fresh (scene.keyOf w) step.stepId s)
      (run : (execute env scene.registry w step).run ⟨s.trace, inv.resolver, inv.context⟩ =
        (result, session)) : Judges env scene w step s result session
  | delegation {inv : Invocation} {result : Except (Stop RunFault) StepOutcome} {session : Session}
      (run : (conclude env scene.registry w step none).run ⟨s.trace, inv.resolver, inv.context⟩ =
        (result, session)) : Judges env scene w step s result session

/-- What takes a run from one state to another and lets it go on. -/
inductive Move (env : Environment) (registry : Registry) : RunState → RunState → Prop where
  | start {s : RunState} {scene : Scene} {w : Workflow} {step : Step}
      (home : Home registry scene w) (listed : step ∈ w.steps)
      (ready : Ready registry (scene.keyOf w) s) (within : s.executions < env.config.maxSteps) :
      Move env registry s (s.count.start (scene.keyOf w) step.stepId)
  | judge {s : RunState} {scene : Scene} {w : Workflow} {step : Step} {outcome : StepOutcome}
      {session : Session} (attempt : Nat)
      (judged : Judges env scene w step s (.ok outcome) session) :
      Move env registry s ((s.traced session.trace).file
        (outcome.record w.workflowId step.stepId attempt))
  | tell {s : RunState} {event : Event} (aside : event.isAside) : Move env registry s (s.emit event)
  | sleep {s : RunState} {d : Duration} {trace : Trace}
      (run : (s.trace.wait env.limit d : Except (Stop RunError) Unit × Trace) = (.ok (), trace)) :
      Move env registry s (s.traced trace)
  | enter {s : RunState} {key : WorkflowKey} (new : key ∉ completed s) (idle : key ∉ s.stack) :
      Move env registry s (s.enter key)
  | complete {s : RunState} {key : WorkflowKey} {below : List WorkflowKey} {outputs : Table Json}
      (ran : Completes env registry key outputs s) (top : s.stack = below ++ [key])
      (ready : Ready registry key s) :
      Move env registry s (s.complete key outputs)
  | publish {s : RunState} {key : WorkflowKey} {outputs : Table Json} (dependent : WorkflowKey)
      (done : (key, outputs) ∈ s.finished) :
      Move env registry s (s.note (.published dependent key outputs))

/-- What may still happen in a run that stops for a reason. -/
inductive Last (env : Environment) : Stop RunError → RunState → RunState → Prop where
  | none {s : RunState} (stop : Stop RunError) : Last env stop s s
  | exceed {s : RunState} (workflowId stepId : String) (spent : env.config.maxSteps ≤ s.executions) :
      Last env (.failed ⟨workflowId, some stepId, .budgetExceeded env.config.maxSteps⟩) s s.count
  | judge {s : RunState} {scene : Scene} {w : Workflow} {step : Step} {stop : Stop RunFault}
      {session : Session} (judged : Judges env scene w step s (.error stop) session) :
      Last env (stop.map fun fault => ⟨w.workflowId, some step.stepId, fault⟩) s
        (s.traced session.trace)
  | sleep {s : RunState} {d : Duration} {trace : Trace} {stop : Stop RunError}
      (run : (s.trace.wait env.limit d : Except (Stop RunError) Unit × Trace) =
        (.error stop, trace)) : Last env stop s (s.traced trace)

abbrev Path (env : Environment) (registry : Registry) : RunState → RunState → Prop :=
  Relation.ReflTransGen (Move env registry)

/-- A path that leaves no dependency under way and no step that has started without a record. -/
structure Passes (env : Environment) (registry : Registry) (s s' : RunState) : Prop where
  path : Path env registry s s'
  stack : s'.stack = s.stack
  balance : starts s' + s.records.length = starts s + s'.records.length

def Stops (env : Environment) (registry : Registry) (s : RunState) (stop : Stop RunError)
    (s' : RunState) : Prop :=
  ∃ mid, Path env registry s mid ∧ Last env stop mid s'

/-- Work that passes, with what holds of its answer, or stops. -/
def Goes {α : Type} (env : Environment) (registry : Registry) (work : Running α) (s : RunState)
    (ok : α → RunState → Prop) : Prop :=
  Leads work s (fun a s' => Passes env registry s s' ∧ ok a s') (Stops env registry s)

variable {α β : Type} {env : Environment} {registry : Registry} {s s' s'' : RunState}

namespace Judges

variable {scene : Scene} {w : Workflow} {step : Step} {session : Session}

theorem events_of_ok {outcome : StepOutcome} (h : Judges env scene w step s (.ok outcome) session) :
    session.trace.events =
      s.trace.events ++ [verdict w step outcome.success outcome.status] := by
  cases h with
  | operation _ run => exact ((execute_leads env scene.registry w step _).of_ok run).1
  | delegation run =>
    obtain ⟨hstatus, htrace⟩ := (conclude_leads env scene.registry w step none _).of_ok run
    rw [htrace, hstatus]
    rfl

theorem events_of_error {stop : Stop RunFault}
    (h : Judges env scene w step s (.error stop) session) :
    ∃ status, Untold w step status s.trace.events session.trace.events := by
  cases h with
  | operation _ run => exact ((execute_leads env scene.registry w step _).of_error run).2.1
  | delegation run =>
    exact ⟨none, ((conclude_leads env scene.registry w step none _).of_error run).2.2⟩

theorem requests {result : Except (Stop RunFault) StepOutcome}
    (h : Judges env scene w step s result session) :
    session.trace.requests = s.trace.requests ∨ Fresh (scene.keyOf w) step.stepId s ∧
      ∃ request, session.trace.requests = s.trace.requests ++ [request] := by
  cases h with
  | operation fresh run =>
    cases result with
    | ok outcome => exact .inr ⟨fresh, ((execute_leads env scene.registry w step _).of_ok run).2⟩
    | error stop =>
      have hsent := ((execute_leads env scene.registry w step _).of_error run).2.2
      exact hsent.imp_right fun h => ⟨fresh, h⟩
  | delegation run =>
    cases result with
    | ok outcome =>
      obtain ⟨-, htrace⟩ := (conclude_leads env scene.registry w step none _).of_ok run
      exact .inl (by rw [htrace, Trace.record])
    | error stop => exact .inl ((conclude_leads env scene.registry w step none _).of_error run).2.1

end Judges

theorem Move.finished (h : Move env registry s s') : s.finished <+: s'.finished := by
  cases h with
  | complete => exact List.prefix_append ..
  | _ => exact List.prefix_rfl

theorem Path.finished (h : Path env registry s s') : s.finished <+: s'.finished := by
  induction h with
  | refl => exact List.prefix_rfl
  | tail _ move ih => exact ih.trans move.finished

theorem Move.executions (h : Move env registry s s') : s.executions ≤ s'.executions := by
  cases h with
  | start => exact Nat.le_succ _
  | _ => exact Nat.le_refl _

theorem Path.executions (h : Path env registry s s') : s.executions ≤ s'.executions := by
  induction h with
  | refl => exact Nat.le_refl _
  | tail _ move ih => exact Nat.le_trans ih move.executions

theorem Path.ready {key : WorkflowKey} (h : Path env registry s s')
    (hready : Ready registry key s) : Ready registry key s' :=
  fun dependency hdependency => (h.finished.map (·.1)).subset (hready dependency hdependency)

theorem start?_verdict (w : Workflow) (step : Step) (success : Bool) (status : Option Nat) :
    (verdict w step success status).start? = none := by
  cases success <;> rfl

theorem starts_of_events (more : List Event) (h : s'.trace.events = s.trace.events ++ more) :
    starts s' = starts s + (more.filterMap Event.start?).length := by
  rw [starts, h, List.filterMap_append, List.length_append, starts]

theorem starts_start (key : WorkflowKey) (stepId : String) :
    starts (s.count.start key stepId) = starts s + 1 :=
  starts_of_events (s := s) [.stepStarted key.workflowId stepId] rfl

namespace Passes

theorem refl : Passes env registry s s := ⟨.refl, rfl, rfl⟩

theorem trans (h : Passes env registry s s') (h' : Passes env registry s' s'') :
    Passes env registry s s'' :=
  ⟨h.path.trans h'.path, h'.stack.trans h.stack, by
    have := h.balance
    have := h'.balance
    omega⟩

theorem ready {key : WorkflowKey} (h : Passes env registry s s') (hready : Ready registry key s) :
    Ready registry key s' :=
  Path.ready h.path hready

theorem of_tell {event : Event} (aside : event.isAside) :
    Passes env registry s (s.emit event) := by
  refine ⟨.single (.tell aside), rfl, ?_⟩
  rw [starts_of_events (s := s) [event] rfl, List.filterMap_cons,
    Event.start?_of_isAside aside]
  rfl

/-- A step that has started and then has its record leaves the balance even. -/
theorem of_filed {key : WorkflowKey} {stepId : String} {record : StepRecord}
    (start : Path env registry s (s.count.start key stepId))
    (hpath : Path env registry (s.count.start key stepId) (s'.file record))
    (hstack : s'.stack = s.stack)
    (hbalance : starts s' + s.records.length =
      starts (s.count.start key stepId) + s'.records.length) :
    Passes env registry s (s'.file record) := by
  refine ⟨start.trans hpath, hstack, ?_⟩
  rw [starts_start] at hbalance
  change starts s' + _ = starts s + (s'.records ++ [record]).length
  rw [List.length_append, List.length_singleton]
  omega

end Passes

theorem Stops.after {stop : Stop RunError} (h : Path env registry s s')
    (hstop : Stops env registry s' stop s'') : Stops env registry s stop s'' :=
  let ⟨mid, hpath, hlast⟩ := hstop
  ⟨mid, h.trans hpath, hlast⟩

theorem Stops.now (stop : Stop RunError) : Stops env registry s stop s := ⟨s, .refl, .none stop⟩

theorem stops_after {work : Running α} {ok : α → RunState → Prop} (h : Path env registry s s')
    (hwork : Leads work s' ok (Stops env registry s')) :
    Leads work s' ok (Stops env registry s) :=
  hwork.mono (fun _ _ ha => ha) fun _ _ hstop => hstop.after h

theorem orFail_bind_leads {workflowId : String} {stepId : Option String} {result : Except RunFault α}
    {next : α → Running β} {ok : β → RunState → Prop} {stop : Stop RunError → RunState → Prop}
    (h : ∀ fault, result = .error fault → stop (.failed ⟨workflowId, stepId, fault⟩) s)
    (hnext : ∀ a, result = .ok a → Leads (next a) s ok stop) :
    Leads (orFail workflowId stepId result >>= next) s ok stop := by
  cases result with
  | ok a => exact hnext a rfl
  | error fault => exact Leads.of_throw (h fault rfl)

theorem sleep_leads (d : Duration) :
    Leads (sleep env d) s
      (fun _ s' => ∃ trace, (s.trace.wait env.limit d : Except (Stop RunError) Unit × Trace) =
        (.ok (), trace) ∧ s' = s.traced trace)
      fun stop s' => stop.Final RunError.fault ∧
        ∃ trace, s.trace.wait env.limit d = (.error stop, trace) ∧ s' = s.traced trace := by
  obtain ⟨clock, h | h⟩ := wait_clock RunError env.limit d s.trace
  · refine .of_run_ok () (s.traced { s.trace with clock }) ?_ ⟨_, h, rfl⟩
    simp only [sleep, ExceptT.run_mk, h]
  · refine .of_run_error .expired (s.traced { s.trace with clock }) ?_ ⟨trivial, _, h, rfl⟩
    simp only [sleep, ExceptT.run_mk, h]

namespace Goes

theorem of_pure {a : α} {ok : α → RunState → Prop} (h : ok a s) :
    Goes env registry (pure a) s ok :=
  Leads.of_pure ⟨.refl, h⟩

theorem of_throw {stop : Stop RunError} {ok : α → RunState → Prop} :
    Goes env registry (throw stop) s ok :=
  Leads.of_throw (.now stop)

theorem of_fail {workflowId : String} {stepId : Option String} {fault : RunFault}
    {ok : α → RunState → Prop} : Goes env registry (fail workflowId stepId fault) s ok :=
  of_throw

theorem orFail {workflowId : String} {stepId : Option String} {result : Except RunFault α} :
    Goes env registry (Run.orFail workflowId stepId result) s fun a _ => result = .ok a := by
  cases result with
  | ok a => exact of_pure rfl
  | error fault => exact of_fail

theorem mono {work : Running α} {ok ok' : α → RunState → Prop} (h : Goes env registry work s ok)
    (hok : ∀ a s', Passes env registry s s' → ok a s' → ok' a s') :
    Goes env registry work s ok' :=
  Leads.mono h (fun a s' ha => ⟨ha.1, hok a s' ha.1 ha.2⟩) fun _ _ hstop => hstop

theorem after {work : Running α} {ok : α → RunState → Prop} (h : Passes env registry s s')
    (hwork : Goes env registry work s' ok) :
    Leads work s' (fun a s'' => Passes env registry s s'' ∧ ok a s'') (Stops env registry s) :=
  Leads.mono hwork (fun _ _ ha => ⟨h.trans ha.1, ha.2⟩) fun _ _ hstop => hstop.after h.path

theorem bind {work : Running α} {next : α → Running β} {mid : α → RunState → Prop}
    {ok : β → RunState → Prop} (h : Goes env registry work s mid)
    (hnext : ∀ a s', Passes env registry s s' → mid a s' → Goes env registry (next a) s' ok) :
    Goes env registry (work >>= next) s ok :=
  Leads.bind h fun a s' ha => (hnext a s' ha.1 ha.2).after ha.1

theorem emit_bind {event : Event} {next : Unit → Running β} {ok : β → RunState → Prop}
    (aside : event.isAside) (h : Goes env registry (next ()) (s.emit event) ok) :
    Goes env registry (emit event >>= next) s ok :=
  Leads.bind_modify (h.after (.of_tell aside))

theorem sleep {d : Duration} : Goes env registry (Run.sleep env d) s fun _ _ => True := by
  refine (sleep_leads d).mono (fun _ s' h => ?_) fun stop s' h => ?_
  · obtain ⟨trace, hwait, rfl⟩ := h
    have even : starts (s.traced trace) = starts s := by
      change (trace.events.filterMap Event.start?).length = _
      rw [(wait_keeps hwait).1, starts]
    exact ⟨⟨.single (.sleep hwait), rfl, congrArg (· + s.records.length) even⟩, trivial⟩
  · obtain ⟨-, trace, hwait, rfl⟩ := h
    exact ⟨s, .refl, .sleep hwait⟩

end Goes

theorem onStep_leads {workflowId stepId : String} {inv : Invocation} {work : Stepping α}
    {ok : α × Invocation → RunState → Prop} {stop : Stop RunError → RunState → Prop}
    (hok : ∀ a session, work.run ⟨s.trace, inv.resolver, inv.context⟩ = (.ok a, session) →
      ok (a, ⟨session.resolver, session.context⟩) (s.traced session.trace))
    (hstop : ∀ reason session, work.run ⟨s.trace, inv.resolver, inv.context⟩ =
      (.error reason, session) →
      stop (reason.map fun fault => ⟨workflowId, some stepId, fault⟩) (s.traced session.trace)) :
    Leads (onStep workflowId stepId inv work) s ok stop := by
  rcases hrun : work.run ⟨s.trace, inv.resolver, inv.context⟩ with ⟨reason | a, session⟩
  · refine .of_run_error _ _ ?_ (hstop reason session hrun)
    simp only [onStep, ExceptT.run_mk, hrun]
  · refine .of_run_ok _ _ ?_ (hok a session hrun)
    simp only [onStep, ExceptT.run_mk, hrun]

def delegate (env : Environment) (bound : Nat) (scene : Scene) (w : Workflow) (step : Step)
    (inv : Invocation) (target : Scene) (called : Workflow) : Running (StepOutcome × Invocation) := do
  let (inputs, inv) ← onStep w.workflowId step.stepId inv (delegatedInputs scene w step)
  let outputs ← runWorkflow env bound target called.workflowId inputs
  onStep w.workflowId step.stepId (inv.receive called.workflowId outputs)
    (conclude env scene.registry w step none)

theorem runStep_leads {bound : Nat} {scene : Scene} {w : Workflow} {step : Step} {inv : Invocation}
    {ok : StepOutcome × Invocation → RunState → Prop} {stop : Stop RunError → RunState → Prop}
    (hnone : step.target? = none → stop (.failed ⟨w.workflowId, some step.stepId, .noTarget⟩) s)
    (hunknown : ∀ reference fault, step.target? = some (.workflow reference) →
      locate scene reference = .error fault →
      stop (.failed ⟨w.workflowId, some step.stepId, fault⟩) s)
    (hdelegates : ∀ reference target called, step.target? = some (.workflow reference) →
      locate scene reference = .ok (target, called) →
      Leads (delegate env bound scene w step inv target called) s ok stop)
    (hoperates : (∀ reference, step.target? ≠ some (.workflow reference)) → step.target? ≠ none →
      Leads (onStep w.workflowId step.stepId inv (execute env scene.registry w step)) s ok stop) :
    Leads (runStep env (bound + 1) scene w step inv) s ok stop := by
  unfold runStep
  split
  · rename_i htarget
    exact Leads.of_throw (hnone htarget)
  · rename_i reference htarget
    refine orFail_bind_leads (fun fault => hunknown reference fault htarget) ?_
    rintro ⟨target, called⟩ hfound
    exact hdelegates reference target called htarget hfound
  · rename_i target hother htarget
    refine hoperates (fun reference hsame => ?_) (by simp [htarget])
    exact hother reference (Option.some.inj (htarget.symm.trans hsame))

theorem goes_onStep {workflowId stepId : String} {inv : Invocation} {work : Stepping α}
    (h : work.Quiet) : Goes env registry (onStep workflowId stepId inv work) s fun _ _ => True := by
  have unmoved (session : Session) (htrace : session.trace = s.trace) :
      s.traced session.trace = s := by rw [htrace]; rfl
  refine onStep_leads (fun a session hrun => ?_) fun reason session hrun => ?_
  · rw [unmoved session ((h _).of_ok hrun)]
    exact ⟨.refl, trivial⟩
  · rw [unmoved session ((h _).of_error hrun).2]
    exact .now _

theorem spend_counts (workflowId stepId : String) :
    Leads (spend env workflowId stepId) s
      (fun _ s' => s' = s.count ∧ s.executions < env.config.maxSteps)
      fun stop s' => s' = s.count ∧ env.config.maxSteps ≤ s.executions ∧
        stop = .failed ⟨workflowId, some stepId, .budgetExceeded env.config.maxSteps⟩ := by
  unfold spend
  refine .bind_modify (.bind_get ?_)
  by_cases h : s.executions + 1 > env.config.maxSteps
  · rw [if_pos (show s.count.executions > env.config.maxSteps from h)]
    exact .of_throw ⟨rfl, Nat.le_of_lt_succ h, rfl⟩
  · rw [if_neg (show ¬ s.count.executions > env.config.maxSteps from h)]
    exact .of_pure ⟨rfl, Nat.lt_of_succ_le (Nat.le_of_not_gt h)⟩

theorem spend_leads (workflowId stepId : String) :
    Leads (spend env workflowId stepId) s
      (fun _ s' => s' = s.count ∧ s.executions < env.config.maxSteps)
      fun stop s' => stop.Final RunError.fault ∧ Last env stop s s' := by
  refine (spend_counts workflowId stepId).mono (fun _ _ h => h) fun stop s' h => ?_
  obtain ⟨rfl, spent, rfl⟩ := h
  exact ⟨by simp [Stop.Final], .exceed workflowId stepId spent⟩

end Run
end Arazzo
