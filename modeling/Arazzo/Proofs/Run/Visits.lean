import Arazzo.Proofs.Run.Failure
import Arazzo.Proofs.Run.Moves

/-! The way of one invocation through its workflow: the step executions that it makes, each with the
stage that it is made at, and how the invocation comes to its end. -/

namespace Arazzo.Run

/-- A workflow that is to be run, with work that nests no deeper than the bound, from a state. -/
structure Call where
  bound : Nat
  scene : Scene
  workflowId : String
  inputs : Json
  state : RunState

namespace Call

def key (c : Call) : WorkflowKey := ⟨c.scene.key, c.workflowId⟩

def run (env : Environment) (c : Call) : Except (Stop RunError) (Table Json) × RunState :=
  (runWorkflow env c.bound c.scene c.workflowId c.inputs).run c.state

def Meant (scene : Scene) (reference : String) (c : Call) : Prop :=
  ∃ w, locate scene reference = .ok (c.scene, w) ∧ w.workflowId = c.workflowId

end Call

structure Visit where
  step : Step
  outcome : StepOutcome

/-- What the steps of a workflow go on from. -/
structure Stage where
  bound : Nat
  inv : Invocation
  retries : Table Nat
  index : Nat
  state : RunState

namespace Stage

def opening (bound : Nat) (inv : Invocation) (s : RunState) : Stage := ⟨bound, inv, [], 0, s⟩

/-- How often the step was retried, as far as it is still known. -/
def made (a : Stage) (stepId : String) : Nat := (Table.get? stepId a.retries).getD 0

def started (scene : Scene) (w : Workflow) (a : Stage) (step : Step) : RunState :=
  a.state.count.start (scene.keyOf w) step.stepId

def session (scene : Scene) (w : Workflow) (a : Stage) (step : Step) : Session :=
  ⟨(a.started scene w step).trace, a.inv.resolver, a.inv.context⟩

def work (env : Environment) (scene : Scene) (w : Workflow) (a : Stage) (step : Step) :
    Except (Stop RunError) (StepOutcome × Invocation) × RunState :=
  (runStep env (a.bound - 1) scene w step a.inv).run (a.started scene w step)

def run (env : Environment) (scene : Scene) (w : Workflow) (a : Stage) :
    Except (Stop RunError) (Finish × Invocation) × RunState :=
  (runSteps env a.bound scene w a.inv a.retries a.index).run a.state

end Stage

structure Starts (env : Environment) (w : Workflow) (a : Stage) (step : Step) : Prop where
  deeper : a.bound ≠ 0
  listed : w.steps[a.index]? = some step
  within : a.state.executions < env.config.maxSteps

/-- The step at a stage has asked for the inputs of the workflow that it is to run; `inv` is there
when it has. -/
structure Delegates (scene : Scene) (w : Workflow) (a : Stage) (step : Step) (c : Call)
    (inv : Invocation) : Prop where
  deeper : 1 < a.bound
  names : ∃ reference, step.target? = some (.workflow reference) ∧ c.Meant scene reference
  bound : c.bound = a.bound - 2
  asked : (onStep w.workflowId step.stepId a.inv (delegatedInputs scene w step)).run
    (a.started scene w step) = (.ok (c.inputs, inv), c.state)

/-- The work of the step at a stage, all but its conclusion: that has this session to work on, in the
state `s`, and the status of the response if there was a request. -/
inductive Performs (env : Environment) (scene : Scene) (w : Workflow) (a : Stage) (step : Step) :
    Option Nat → Session → RunState → Prop where
  | operation {response : HttpResponse} {z : Session}
    (calls : ∀ reference, step.target? ≠ some (.workflow reference)) (aims : step.target? ≠ none)
    (answered : (receive env scene.registry w step).run (a.session scene w step) =
      (.ok response, z)) :
    Performs env scene w a step (some response.status) z (a.started scene w step)
  | workflow {c : Call} {inv : Invocation} {outputs : Table Json} {s : RunState}
    (delegates : Delegates scene w a step c inv) (ran : c.run env = (.ok outputs, s)) :
    Performs env scene w a step none
      ⟨s.trace, (inv.receive c.workflowId outputs).resolver,
        (inv.receive c.workflowId outputs).context⟩ s

/-- The step at a stage is executed; `inv` and `s` are there once it has its record. -/
structure Executes (env : Environment) (scene : Scene) (w : Workflow) (a : Stage) (v : Visit)
    (inv : Invocation) (s : RunState) : Prop extends Starts env w a v.step where
  ran : ∃ before, a.work env scene w v.step = (.ok (v.outcome, inv), before) ∧
    s = before.file (v.outcome.record w.workflowId v.step.stepId (a.made v.step.stepId + 1))

/-- An execution after which the invocation goes on, and the stage at which it does. -/
inductive Turn (env : Environment) (scene : Scene) (w : Workflow) (a : Stage) (v : Visit) :
    Stage → Prop where
  | next {inv : Invocation} {s : RunState} (executes : Executes env scene w a v inv s)
    (haction : v.outcome.action = .next) :
    Turn env scene w a v
      ⟨a.bound - 1, inv, Table.erase v.step.stepId a.retries, a.index + 1, s⟩
  | gotoStep {inv : Invocation} {s : RunState} {target : String} {index : Nat}
    (executes : Executes env scene w a v inv s)
    (haction : v.outcome.action = .gotoStep target) (found : w.stepIndex? target = some index) :
    Turn env scene w a v
      ⟨a.bound - 1, inv, a.retries, index, s.emit (.goto w.workflowId v.step.stepId target)⟩
  | retry {inv : Invocation} {s s' : RunState} {delay : Duration} {limit : Nat}
    (executes : Executes env scene w a v inv s)
    (haction : v.outcome.action = .retry delay limit) (allowed : a.made v.step.stepId < limit)
    (slept : (sleep env delay).run (s.emit
      (.retryScheduled w.workflowId v.step.stepId (a.made v.step.stepId + 2) delay)) = (.ok (), s')) :
    Turn env scene w a v
      ⟨a.bound - 1, inv, Table.insert v.step.stepId (a.made v.step.stepId + 1) a.retries, a.index, s'⟩

/-- The executions of an invocation from one stage to another, the first one first. -/
inductive Visited (env : Environment) (scene : Scene) (w : Workflow) (start : Stage) :
    List Visit → Stage → Prop where
  | start : Visited env scene w start [] start
  | turn {history : List Visit} {a b : Stage} {v : Visit}
    (before : Visited env scene w start history a) (turn : Turn env scene w a v b) :
    Visited env scene w start (history ++ [v]) b

structure GivesUp (env : Environment) (scene : Scene) (w : Workflow) (a : Stage) (v : Visit)
    (s : RunState) : Prop where
  executes : ∃ inv, Executes env scene w a v inv s
  refused : ∃ delay limit, v.outcome.action = .retry delay limit ∧ limit ≤ a.made v.step.stepId

/-- After the execution at a stage another workflow takes over. -/
structure TakesOver (env : Environment) (scene : Scene) (w : Workflow) (a : Stage) (v : Visit)
    (inv : Invocation) (s : RunState) (c : Call) : Prop where
  executes : Executes env scene w a v inv s
  goes : ∃ reference, v.outcome.action = .gotoWorkflow reference ∧ c.Meant scene reference ∧
    c.state = s.emit (.goto w.workflowId v.step.stepId reference)
  bound : c.bound = a.bound - 1
  inputs : c.inputs = inv.context.inputs

/-- How an invocation comes to its end at a stage. -/
inductive Closes (env : Environment) (scene : Scene) (w : Workflow) (a : Stage) :
    Except (Stop RunError) (Finish × Invocation) → RunState → Prop where
  | completed (deeper : a.bound ≠ 0) (past : w.steps[a.index]? = none) :
    Closes env scene w a (.ok (.completed, a.inv)) a.state
  | overspent {step : Step} (deeper : a.bound ≠ 0) (listed : w.steps[a.index]? = some step)
    (spent : env.config.maxSteps ≤ a.state.executions) :
    Closes env scene w a (.error (.failed
      ⟨w.workflowId, some step.stepId, .budgetExceeded env.config.maxSteps⟩)) a.state.count
  | stopped {step : Step} {stop : Stop RunError} {s : RunState} (starts : Starts env w a step)
    (ran : a.work env scene w step = (.error stop, s)) : Closes env scene w a (.error stop) s
  | ended {v : Visit} {inv : Invocation} {s : RunState}
    (executes : Executes env scene w a v inv s) (haction : v.outcome.action = .finish) :
    Closes env scene w a (.ok (.ended, inv)) (s.emit (.workflowEnded w.workflowId v.step.stepId))
  | lost {v : Visit} {inv : Invocation} {s : RunState} {target : String}
    (executes : Executes env scene w a v inv s)
    (haction : v.outcome.action = .gotoStep target) (missed : w.stepIndex? target = none) :
    Closes env scene w a (.error (.failed
      ⟨w.workflowId, some v.step.stepId, .unknownGotoTarget target⟩))
      (s.emit (.goto w.workflowId v.step.stepId target))
  | strayed {v : Visit} {inv : Invocation} {s : RunState} {reference : String} {fault : RunFault}
    (executes : Executes env scene w a v inv s)
    (haction : v.outcome.action = .gotoWorkflow reference)
    (missed : locate scene reference = .error fault) :
    Closes env scene w a (.error (.failed
      ⟨w.workflowId, some v.step.stepId, .unknownGotoTarget reference⟩))
      (s.emit (.goto w.workflowId v.step.stepId reference))
  | handedOver {v : Visit} {inv : Invocation} {s s' : RunState} {c : Call} {outputs : Table Json}
    (takesOver : TakesOver env scene w a v inv s c) (ran : c.run env = (.ok outputs, s')) :
    Closes env scene w a (.ok (.ended, inv.receive c.workflowId outputs)) s'
  | brokenOff {v : Visit} {inv : Invocation} {s s' : RunState} {c : Call} {stop : Stop RunError}
    (takesOver : TakesOver env scene w a v inv s c) (ran : c.run env = (.error stop, s')) :
    Closes env scene w a (.error stop) s'
  | exhausted {v : Visit} {s : RunState} (gives : GivesUp env scene w a v s) :
    Closes env scene w a (.error (.failed
      ⟨w.workflowId, some v.step.stepId, .retriesExhausted (a.made v.step.stepId + 1)⟩)) s
  | expired {v : Visit} {inv : Invocation} {s s' : RunState} {delay : Duration} {limit : Nat}
    {stop : Stop RunError} (executes : Executes env scene w a v inv s)
    (haction : v.outcome.action = .retry delay limit) (allowed : a.made v.step.stepId < limit)
    (slept : (sleep env delay).run (s.emit
      (.retryScheduled w.workflowId v.step.stepId (a.made v.step.stepId + 2) delay)) =
        (.error stop, s')) : Closes env scene w a (.error stop) s'
  | unfinished (shallow : a.bound = 0) : Closes env scene w a (.error .unfinished) a.state

def Closed (env : Environment) (scene : Scene) (w : Workflow) (start : Stage)
    (result : Except (Stop RunError) (Finish × Invocation)) (s' : RunState) : Prop :=
  ∃ history a, Visited env scene w start history a ∧ Closes env scene w a result s'

variable {env : Environment} {scene : Scene} {w : Workflow} {inv : Invocation} {s s' : RunState}
  {history later : List Visit} {start a b : Stage} {v : Visit} {step : Step}
  {status : Option Nat} {z : Session}

theorem Turn.executes (turn : Turn env scene w a v b) : ∃ s, Executes env scene w a v b.inv s := by
  cases turn with
  | next executes => exact ⟨_, executes⟩
  | gotoStep executes => exact ⟨_, executes⟩
  | retry executes => exact ⟨_, executes⟩

/-- Why a step that is started at a stage does not come out. -/
inductive Halts (env : Environment) (scene : Scene) (w : Workflow) (a : Stage) (step : Step) :
    Stop RunError → RunState → Prop where
  | unfinished (shallow : a.bound - 1 = 0) :
    Halts env scene w a step .unfinished (a.started scene w step)
  | aimless (none : step.target? = none) :
    Halts env scene w a step (.failed ⟨w.workflowId, some step.stepId, .noTarget⟩)
      (a.started scene w step)
  | unknown {reference : String} {fault : RunFault}
    (names : step.target? = some (.workflow reference))
    (missed : locate scene reference = .error fault) :
    Halts env scene w a step (.failed ⟨w.workflowId, some step.stepId, fault⟩)
      (a.started scene w step)
  | unasked {reason : Stop RunFault} {z : Session}
    (ran : (delegatedInputs scene w step).run (a.session scene w step) = (.error reason, z)) :
    Halts env scene w a step (reason.map (RunError.mk w.workflowId (some step.stepId)))
      ((a.started scene w step).traced z.trace)
  | called {c : Call} {inv : Invocation} {stop : Stop RunError} {s : RunState}
    (delegates : Delegates scene w a step c inv) (ran : c.run env = (.error stop, s)) :
    Halts env scene w a step stop s
  | unanswered {reason : Stop RunFault} {z : Session}
    (calls : ∀ reference, step.target? ≠ some (.workflow reference)) (aims : step.target? ≠ none)
    (ran : (receive env scene.registry w step).run (a.session scene w step) = (.error reason, z)) :
    Halts env scene w a step (reason.map (RunError.mk w.workflowId (some step.stepId)))
      ((a.started scene w step).traced z.trace)
  | unconcluded {status : Option Nat} {z z' : Session} {s : RunState} {reason : Stop RunFault}
    (performs : Performs env scene w a step status z s)
    (ran : (conclude env scene.registry w step status).run z = (.error reason, z')) :
    Halts env scene w a step (reason.map (RunError.mk w.workflowId (some step.stepId)))
      (s.traced z'.trace)

theorem Stage.works (env : Environment) (scene : Scene) (w : Workflow) (a : Stage) (step : Step) :
    Leads (runStep env (a.bound - 1) scene w step a.inv) (a.started scene w step)
      (fun result s => ∃ status z s₀, Performs env scene w a step status z s₀ ∧
        (conclude env scene.registry w step status).run z =
          (.ok result.1, ⟨s.trace, result.2.resolver, result.2.context⟩) ∧
        s = s₀.traced s.trace)
      (Halts env scene w a step) := by
  rcases hbound : a.bound - 1 with _ | inner
  · unfold runStep
    exact .of_throw (.unfinished hbound)
  refine runStep_leads .aimless (fun reference fault names missed => .unknown names missed)
    (fun reference target called names found => ?_) fun calls aims => ?_
  · unfold delegate
    have asked : Leads (onStep w.workflowId step.stepId a.inv (delegatedInputs scene w step))
        (a.started scene w step) (fun _ _ => True) (Halts env scene w a step) :=
      onStep_leads (fun _ _ _ => trivial) fun reason z ran => .unasked ran
    refine asked.bind_run ?_
    rintro ⟨inputs, inv⟩ s asked -
    let c : Call := ⟨inner, target, called.workflowId, inputs, s⟩
    have deeper : 1 < a.bound := Nat.lt_of_sub_ne_zero (hbound ▸ Nat.succ_ne_zero inner)
    have delegates : Delegates scene w a step c inv :=
      ⟨deeper, ⟨reference, names, called, found, rfl⟩, (Nat.sub_eq_of_eq_add hbound).symm, asked⟩
    refine Leads.bind_run (.of_stops fun stop s' ran => .called delegates ran) fun outputs s' ran _ => ?_
    have performs := Performs.workflow delegates ran
    exact onStep_leads (fun outcome z concluded => ⟨none, _, s', performs, concluded, rfl⟩)
      fun reason z failed => .unconcluded performs failed
  · rw [execute_eq]
    refine onStep_leads (fun outcome z concluded => ?_) fun reason z failed => ?_
    · obtain ⟨response, z₁, answered, concluded⟩ := exists_run_of_bind_ok concluded
      exact ⟨some response.status, z₁, _, .operation calls aims answered, concluded, rfl⟩
    · rcases cases_of_run_bind_error failed with ran | ⟨response, z₁, answered, failed⟩
      · exact .unanswered calls aims ran
      · exact .unconcluded (.operation calls aims answered) failed

theorem Executes.concludes (executes : Executes env scene w a v inv s) :
    ∃ status z s₀, Performs env scene w a v.step status z s₀ ∧
      (conclude env scene.registry w v.step status).run z =
        (.ok v.outcome, ⟨s.trace, inv.resolver, inv.context⟩) ∧
      s = (s₀.traced s.trace).file
        (v.outcome.record w.workflowId v.step.stepId (a.made v.step.stepId + 1)) := by
  obtain ⟨before, ran, rfl⟩ := executes.ran
  obtain ⟨status, z, s₀, performs, concluded, traced⟩ :=
    (a.works env scene w v.step).of_ok ran
  exact ⟨status, z, s₀, performs, concluded, congrArg (RunState.file _) traced⟩

def follow (env : Environment) (scene : Scene) (w : Workflow) (a : Stage) (step : Step)
    (inv : Invocation) (action : StepAction) : Running (Finish × Invocation) :=
  let bound := a.bound - 1
  match action with
  | .next => runSteps env bound scene w inv (Table.erase step.stepId a.retries) (a.index + 1)
  | .finish => do
    emit (.workflowEnded w.workflowId step.stepId)
    return (.ended, inv)
  | .gotoStep target => do
    emit (.goto w.workflowId step.stepId target)
    match w.stepIndex? target with
    | none => fail w.workflowId (some step.stepId) (.unknownGotoTarget target)
    | some index => runSteps env bound scene w inv a.retries index
  | .gotoWorkflow reference => do
    emit (.goto w.workflowId step.stepId reference)
    match locate scene reference with
    | .error _ => fail w.workflowId (some step.stepId) (.unknownGotoTarget reference)
    | .ok (target, called) =>
      let outputs ← runWorkflow env bound target called.workflowId inv.context.inputs
      return (.ended, inv.receive called.workflowId outputs)
  | .retry delay limit =>
    if a.made step.stepId ≥ limit then
      fail w.workflowId (some step.stepId) (.retriesExhausted (a.made step.stepId + 1))
    else do
      emit (.retryScheduled w.workflowId step.stepId (a.made step.stepId + 2) delay)
      sleep env delay
      runSteps env bound scene w inv (Table.insert step.stepId (a.made step.stepId + 1) a.retries)
        a.index

theorem spend_run (stepId : String) (within : s.executions < env.config.maxSteps) :
    (spend env w.workflowId stepId).run s = (.ok (), s.count) := by
  have counts := @spend_counts env s w.workflowId stepId
  rcases hrun : (spend env w.workflowId stepId).run s with ⟨stop | ⟨⟩, s'⟩
  · obtain ⟨-, spent, -⟩ := counts.of_error hrun
    exact absurd within (Nat.not_lt.2 spent)
  · obtain ⟨rfl, -⟩ := counts.of_ok hrun
    rfl

theorem spend_overrun (stepId : String) (spent : env.config.maxSteps ≤ s.executions) :
    (spend env w.workflowId stepId).run s = (.error (.failed
      ⟨w.workflowId, some stepId, .budgetExceeded env.config.maxSteps⟩), s.count) := by
  have counts := @spend_counts env s w.workflowId stepId
  rcases hrun : (spend env w.workflowId stepId).run s with ⟨stop | ⟨⟩, s'⟩
  · obtain ⟨rfl, -, rfl⟩ := counts.of_error hrun
    rfl
  · obtain ⟨-, within⟩ := counts.of_ok hrun
    exact absurd within (Nat.not_lt.2 spent)

theorem Stage.run_starts (starts : Starts env w a step) :
    a.run env scene w = (do
      let (outcome, inv) ← runStep env (a.bound - 1) scene w step a.inv
      modify (·.file (outcome.record w.workflowId step.stepId (a.made step.stepId + 1)))
      follow env scene w a step inv outcome.action : Running (Finish × Invocation)).run
        (a.started scene w step) := by
  obtain ⟨bound, inv, retries, index, state⟩ := a
  obtain ⟨deeper, listed, within⟩ := starts
  cases bound with
  | zero => exact absurd rfl deeper
  | succ inner =>
    unfold Stage.run
    dsimp only at listed ⊢
    rw [runSteps, listed]
    dsimp only
    rw [run_bind_ok (spend_run step.stepId within)]
    rfl

theorem Executes.run_eq (executes : Executes env scene w a v inv s) :
    a.run env scene w = (follow env scene w a v.step inv v.outcome.action).run s := by
  obtain ⟨before, ran, rfl⟩ := executes.ran
  rw [Stage.run_starts executes.toStarts, run_bind_ok ran]
  rfl

theorem TakesOver.run_eq {c : Call} (takesOver : TakesOver env scene w a v inv s c) :
    a.run env scene w = (do
      let outputs ← runWorkflow env c.bound c.scene c.workflowId c.inputs
      return (.ended, inv.receive c.workflowId outputs) : Running (Finish × Invocation)).run
        c.state := by
  obtain ⟨executes, ⟨reference, haction, ⟨called, found, named⟩, emitted⟩, hbound, hinputs⟩ := takesOver
  rw [executes.run_eq, haction, follow, found, hbound, hinputs, emitted, ← named]
  rfl

/-- Where an execution does not end the invocation, the rest of it is the same from the next stage. -/
theorem Turn.run_eq (turn : Turn env scene w a v b) : a.run env scene w = b.run env scene w := by
  cases turn with
  | next executes haction =>
    rw [executes.run_eq, haction]
    rfl
  | gotoStep executes haction found =>
    rw [executes.run_eq, haction, follow, found]
    rfl
  | retry executes haction allowed slept =>
    rw [executes.run_eq, haction, follow, if_neg (Nat.not_le.2 allowed)]
    exact (run_bind_ok rfl).trans (run_bind_ok slept)

theorem Visited.run_eq (before : Visited env scene w start history a) :
    start.run env scene w = a.run env scene w := by
  induction before with
  | start => rfl
  | turn _ turn ih => exact ih.trans turn.run_eq

theorem Closes.run_eq {result : Except (Stop RunError) (Finish × Invocation)}
    (closes : Closes env scene w a result s') : a.run env scene w = (result, s') := by
  cases closes with
  | completed deeper past =>
    obtain ⟨inner, hbound⟩ := Nat.exists_eq_succ_of_ne_zero deeper
    rw [Stage.run, hbound, runSteps, past]
    rfl
  | overspent deeper listed spent =>
    obtain ⟨inner, hbound⟩ := Nat.exists_eq_succ_of_ne_zero deeper
    rw [Stage.run, hbound, runSteps, listed]
    exact run_bind_error (spend_overrun _ spent)
  | stopped starts ran => 
    rw [Stage.run_starts starts]
    exact run_bind_error ran
  | ended executes haction =>
    rw [executes.run_eq, haction]
    rfl
  | lost executes haction missed =>
    rw [executes.run_eq, haction, follow, missed]
    rfl
  | strayed executes haction missed =>
    rw [executes.run_eq, haction, follow, missed]
    rfl
  | handedOver takesOver ran =>
    rw [takesOver.run_eq]
    exact run_bind_ok ran
  | brokenOff takesOver ran =>
    rw [takesOver.run_eq]
    exact run_bind_error ran
  | exhausted gives =>
    obtain ⟨⟨inv, executes⟩, delay, limit, haction, refused⟩ := gives
    rw [executes.run_eq, haction, follow, if_pos refused]
    rfl
  | expired executes haction allowed slept =>
    rw [executes.run_eq, haction, follow, if_neg (Nat.not_le.2 allowed)]
    exact (run_bind_ok rfl).trans (run_bind_error slept)
  | unfinished shallow =>
    rw [Stage.run, shallow, runSteps]
    rfl

theorem Stage.proceeds (env : Environment) (scene : Scene) (w : Workflow) (a : Stage) :
    (∃ v b, Turn env scene w a v b) ∨ ∃ result s', Closes env scene w a result s' := by
  by_cases shallow : a.bound = 0
  · exact .inr ⟨_, _, .unfinished shallow⟩
  rcases listed : w.steps[a.index]? with _ | step
  · exact .inr ⟨_, _, .completed shallow listed⟩
  rcases (Nat.lt_or_ge a.state.executions env.config.maxSteps).symm with spent | within
  · exact .inr ⟨_, _, .overspent shallow listed spent⟩
  have starts : Starts env w a step := ⟨shallow, listed, within⟩
  rcases ran : a.work env scene w step with ⟨stop | ⟨outcome, inv⟩, before⟩
  · exact .inr ⟨_, _, .stopped starts ran⟩
  -- The execution has its record now; its action alone decides how the invocation goes on.
  have executes : Executes env scene w a ⟨step, outcome⟩ inv _ := ⟨starts, before, ran, rfl⟩
  cases haction : outcome.action with
  | next => exact .inl ⟨_, _, .next executes haction⟩
  | finish => exact .inr ⟨_, _, .ended executes haction⟩
  | gotoStep target =>
    rcases found : w.stepIndex? target with _ | index
    · exact .inr ⟨_, _, .lost executes haction found⟩
    · exact .inl ⟨_, _, .gotoStep executes haction found⟩
  | gotoWorkflow reference =>
    rcases found : locate scene reference with fault | ⟨target, called⟩
    · exact .inr ⟨_, _, .strayed executes haction found⟩
    let c : Call := ⟨a.bound - 1, target, called.workflowId, inv.context.inputs,
      (before.file (outcome.record w.workflowId step.stepId (a.made step.stepId + 1))).emit
        (.goto w.workflowId step.stepId reference)⟩
    have takesOver : TakesOver env scene w a ⟨step, outcome⟩ inv _ c :=
      ⟨executes, ⟨reference, haction, ⟨called, found, rfl⟩, rfl⟩, rfl, rfl⟩
    rcases ran : c.run env with ⟨stop | outputs, s'⟩
    · exact .inr ⟨_, _, .brokenOff takesOver ran⟩
    · exact .inr ⟨_, _, .handedOver takesOver ran⟩
  | retry delay limit =>
    rcases (Nat.lt_or_ge (a.made step.stepId) limit).symm with refused | allowed
    · exact .inr ⟨_, _, .exhausted ⟨⟨inv, executes⟩, delay, limit, haction, refused⟩⟩
    rcases slept : (sleep env delay).run ((before.file (outcome.record w.workflowId step.stepId
      (a.made step.stepId + 1))).emit (.retryScheduled w.workflowId step.stepId
        (a.made step.stepId + 2) delay)) with ⟨stop | ⟨⟩, s'⟩
    · exact .inr ⟨_, _, .expired executes haction allowed slept⟩
    · exact .inl ⟨_, _, .retry executes haction allowed slept⟩

theorem Turn.bound (turn : Turn env scene w a v b) : b.bound = a.bound - 1 := by
  cases turn <;> rfl

theorem Visited.closed (before : Visited env scene w start history a) :
    Closed env scene w start (a.run env scene w).1 (a.run env scene w).2 := by
  induction hbound : a.bound generalizing history a with
  | zero =>
    have closes : Closes env scene w a (.error .unfinished) a.state := .unfinished hbound
    rw [closes.run_eq]
    exact ⟨history, a, before, closes⟩
  | succ inner ih =>
    rcases a.proceeds env scene w with ⟨v, b, turn⟩ | ⟨result, s', closes⟩
    · rw [turn.run_eq]
      exact ih (before.turn turn) (by rw [turn.bound, hbound, Nat.add_sub_cancel])
    · rw [closes.run_eq]
      exact ⟨history, a, before, closes⟩

end Arazzo.Run
