import Arazzo.Proofs.Run.Calls

/-! The log of a run only grows: what stands in it at some moment within stands there in the end. -/

namespace Arazzo.Run

def Grows (s s' : RunState) : Prop := s.log <+: s'.log

instance : Std.Refl Grows := ⟨fun _ => List.prefix_rfl⟩

instance : Trans Grows Grows Grows := ⟨fun h h' => List.IsPrefix.trans h h'⟩

variable {α β : Type} {env : Environment} {bound : Nat} {s s' : RunState}

theorem Grows.trans {s'' : RunState} (h : Grows s s') (h' : Grows s' s'') : Grows s s'' :=
  List.IsPrefix.trans h h'

theorem grows_note (deed : Deed) (s : RunState) : Grows s (s.note deed) := List.prefix_append ..

theorem grows_count (s : RunState) : Grows s s.count := List.prefix_append ..

theorem grows_complete (key : WorkflowKey) (outputs : Table Json) (s : RunState) :
    Grows s (s.complete key outputs) :=
  List.prefix_append ..

abbrev Growing (work : Running α) : Prop := Keeps Grows work

theorem growing_onStep {workflowId stepId : String} {inv : Invocation} {work : Stepping α} :
    Growing (onStep workflowId stepId inv work) :=
  fun _ => onStep_leads (fun _ _ _ => List.prefix_rfl) fun _ _ _ => List.prefix_rfl

theorem growing_sleep (d : Duration) : Growing (sleep env d) := by
  intro s
  refine (sleep_leads d).mono (fun _ s' h => ?_) fun _ s' h => ?_
  · obtain ⟨trace, -, rfl⟩ := h
    exact List.prefix_rfl
  · obtain ⟨-, trace, -, rfl⟩ := h
    exact List.prefix_rfl

theorem growing_spend (workflowId stepId : String) : Growing (spend env workflowId stepId) := by
  intro s
  refine (spend_counts workflowId stepId).mono (fun _ s' h => ?_) fun _ s' h => ?_
  · obtain ⟨rfl, -⟩ := h
    exact grows_count s
  · obtain ⟨rfl, -⟩ := h
    exact grows_count s

theorem growing_orFail {workflowId : String} {stepId : Option String} {result : Except RunFault α} :
    Growing (orFail workflowId stepId result) := by
  cases result with
  | ok a => exact .of_pure a
  | error fault => exact .of_throw _

theorem growing_ofExcept (result : Except RunError α) : Growing (ofExcept result) := by
  cases result with
  | ok a => exact .of_pure a
  | error error => exact .of_throw _

structure AllGrowing (env : Environment) (bound : Nat) : Prop where
  workflow (scene : Scene) (workflowId : String) (inputs : Json) :
    Growing (runWorkflow env bound scene workflowId inputs)
  dependencies (scene : Scene) (dependent : String) (references : List String)
      (resolver : Resolver) :
    Growing (runDependencies env bound scene dependent references resolver)
  dependency (target : Scene) (workflowId dependent : String) :
    Growing (runDependency env bound target workflowId dependent)
  steps (scene : Scene) (w : Workflow) (inv : Invocation) (retries : Table Nat) (index : Nat) :
    Growing (runSteps env bound scene w inv retries index)
  step (scene : Scene) (w : Workflow) (step : Step) (inv : Invocation) :
    Growing (runStep env bound scene w step inv)

theorem growing_runWorkflow (ih : AllGrowing env bound) (scene : Scene) (workflowId : String)
    (inputs : Json) : Growing (runWorkflow env (bound + 1) scene workflowId inputs) := by
  unfold runWorkflow
  dsimp only
  split
  · exact .of_throw _
  · refine growing_orFail.bind fun inputs => (ih.dependencies _ _ _ _).bind fun resolver => ?_
    exact (ih.steps _ _ _ _ _).bind fun _ => growing_ofExcept _

theorem growing_runDependencies (ih : AllGrowing env bound) (scene : Scene) (dependent : String)
    (references : List String) (resolver : Resolver) :
    Growing (runDependencies env (bound + 1) scene dependent references resolver) := by
  cases references with
  | nil =>
    unfold runDependencies
    exact .of_pure _
  | cons reference rest =>
    unfold runDependencies
    refine growing_orFail.bind fun found => (ih.dependency _ _ _).bind fun outputs => ?_
    exact Keeps.bind (.of_modify (grows_note _)) fun _ => ih.dependencies _ _ _ _

theorem growing_runDependency (ih : AllGrowing env bound) (target : Scene)
    (workflowId dependent : String) :
    Growing (runDependency env (bound + 1) target workflowId dependent) := by
  unfold runDependency
  refine .bind_get fun s => ?_
  split
  · exact .of_pure _
  split
  · exact .of_throw _
  refine Keeps.bind (.of_modify fun _ => List.prefix_rfl) fun _ =>
    (ih.workflow _ _ _).bind fun outputs => ?_
  exact Keeps.bind (.of_modify (grows_complete _ outputs)) fun _ => .of_pure _

theorem growing_emit (event : Event) : Growing (emit event) :=
  .of_modify fun _ => List.prefix_rfl

theorem growing_follow {scene : Scene} {w : Workflow} {a : Stage} (ih : AllGrowing env (a.bound - 1))
    (step : Step) (inv : Invocation) (action : StepAction) :
    Growing (follow env scene w a step inv action) := by
  unfold follow
  cases action with
  | next => exact ih.steps _ _ _ _ _
  | finish => exact (growing_emit _).bind fun _ => .of_pure _
  | gotoStep target =>
    refine (growing_emit _).bind fun _ => ?_
    split
    · exact .of_throw _
    · exact ih.steps _ _ _ _ _
  | gotoWorkflow reference =>
    refine (growing_emit _).bind fun _ => ?_
    split
    · exact .of_throw _
    · exact (ih.workflow _ _ _).bind fun _ => .of_pure _
  | retry delay limit =>
    dsimp only
    split
    · exact .of_throw _
    · exact (growing_emit _).bind fun _ => (growing_sleep delay).bind fun _ => ih.steps _ _ _ _ _

theorem growing_runSteps (ih : AllGrowing env bound) (scene : Scene) (w : Workflow)
    (inv : Invocation) (retries : Table Nat) (index : Nat) :
    Growing (runSteps env (bound + 1) scene w inv retries index) := by
  unfold runSteps
  split
  · exact .of_pure _
  · rename_i step _
    refine (growing_spend _ _).bind fun _ => ?_
    refine Keeps.bind (.of_modify (grows_note _)) fun _ =>
      (ih.step _ _ _ _).bind fun ⟨outcome, inv'⟩ => ?_
    let a : Stage := ⟨bound + 1, inv, retries, index, {}⟩
    have followed : Growing (follow env scene w a step inv' outcome.action) :=
      growing_follow ih step inv' outcome.action
    exact Keeps.bind (.of_modify fun _ => List.prefix_rfl) fun _ => followed

theorem growing_runStep (ih : AllGrowing env bound) (scene : Scene) (w : Workflow) (step : Step)
    (inv : Invocation) : Growing (runStep env (bound + 1) scene w step inv) := by
  unfold runStep
  split
  · exact .of_throw _
  · refine growing_orFail.bind fun ⟨target, called⟩ => growing_onStep.bind fun ⟨inputs, inv'⟩ => ?_
    exact (ih.workflow _ _ _).bind fun outputs => growing_onStep
  · exact growing_onStep

theorem allGrowing : ∀ bound, AllGrowing env bound
  | 0 =>
    { workflow := fun _ _ _ => .of_throw _
      dependencies := fun _ _ _ _ => .of_throw _
      dependency := fun _ _ _ => .of_throw _
      steps := fun _ _ _ _ _ => .of_throw _
      step := fun _ _ _ _ => .of_throw _ }
  | bound + 1 =>
    have ih := allGrowing bound
    { workflow := growing_runWorkflow ih
      dependencies := growing_runDependencies ih
      dependency := growing_runDependency ih
      steps := growing_runSteps ih
      step := growing_runStep ih }

variable {scene : Scene} {w : Workflow} {a : Stage} {b : Basis} {step : Step} {inv : Invocation}
  {c c' : Call} {inputs : Json} {dependent reference : String} {earlier later : List String}
  {supplied : List Completion}

theorem Call.grows (env : Environment) (c : Call) : Grows c.state (c.run env).2 :=
  ((allGrowing c.bound).workflow _ _ _).run c.state

theorem Basis.grows (env : Environment) (b : Basis) (references : List String) :
    Grows b.state (b.run env scene dependent references).2 :=
  ((allGrowing b.bound).dependencies _ _ _ _).run b.state

/-- Once a step has asked for the inputs of its workflow, that one is run. -/
theorem Delegates.work_eq (delegates : Delegates scene w a step c inv) :
    a.work env scene w step = (do
      let outputs ← runWorkflow env c.bound c.scene c.workflowId c.inputs
      onStep w.workflowId step.stepId (inv.receive c.workflowId outputs)
        (conclude env scene.registry w step none) : Running (StepOutcome × Invocation)).run
          c.state := by
  obtain ⟨deeper, ⟨reference, names, called, found, named⟩, hbound, asked⟩ := delegates
  obtain ⟨inner, hinner⟩ : ∃ inner, a.bound - 1 = inner + 1 := ⟨a.bound - 2, by omega⟩
  have hcalled : c.bound = inner := by omega
  rw [Stage.work, hinner, runStep, names]
  dsimp only
  rw [found, hcalled, ← named]
  exact run_bind_ok asked

theorem Supplies.grows_run (prepares : Prepares c w inputs) (deeper : c.bound ≠ 0)
    (split : w.dependsOn = earlier ++ later)
    (supplies : Supplies env c.scene c.workflowId c.basis earlier supplied b) :
    Grows (b.run env c.scene c.workflowId later).2 (c.run env).2 := by
  rw [prepares.run_eq deeper, split, ← supplies.run_eq later]
  refine Keeps.run_bind (fun resolver => ?_) c.state
  exact ((allGrowing _).steps _ _ _ _ _).bind fun _ => growing_ofExcept _

theorem Supplies.grows (prepares : Prepares c w inputs) (split : w.dependsOn = earlier ++ later)
    (supplies : Supplies env c.scene c.workflowId c.basis earlier supplied b) :
    Grows b.state (c.run env).2 := by
  by_cases deeper : c.bound = 0
  · have bounded := supplies.bound_add
    cases supplies with
    | start => exact c.grows env
    | more =>
      simp only [Call.basis, deeper, List.length_append, List.length_singleton] at bounded
      omega
  · exact (b.grows env later).trans (supplies.grows_run prepares deeper split)

theorem Opens.grows_run (opens : Opens env c w supplied a) :
    Grows (a.run env c.scene w).2 (c.run env).2 := by
  rw [opens.run_eq]
  exact Keeps.run_bind (fun _ => growing_ofExcept _) a.state

theorem Needs.grows_run (needs : Needs scene b reference c) (later : List String) :
    Grows (c.run env).2 (b.run env scene dependent (reference :: later)).2 := by
  obtain ⟨called, found, named⟩ := needs.meant
  rw [Basis.run_cons (Nat.ne_of_gt (Nat.lt_of_succ_lt needs.deeper)) found, named]
  have completes : Grows (c.run env).2
      ((runDependency env (b.bound - 1) c.scene c.workflowId dependent).run b.state).2 := by
    rw [needs.run_eq]
    refine Keeps.run_bind (fun outputs => ?_) c.state
    exact Keeps.bind (.of_modify (grows_complete _ outputs)) fun _ => .of_pure _
  refine completes.trans (Keeps.run_bind (fun outputs => ?_) b.state)
  exact Keeps.bind (.of_modify (grows_note _)) fun _ => (allGrowing _).dependencies _ _ _ _

theorem Delegates.grows_run (starts : Starts env w a step)
    (delegates : Delegates scene w a step c inv) : Grows (c.run env).2 (a.run env scene w).2 := by
  have works : Grows (c.run env).2 (a.work env scene w step).2 := by
    rw [delegates.work_eq]
    exact Keeps.run_bind (fun _ => growing_onStep) c.state
  rw [Stage.run_starts starts]
  refine works.trans (Keeps.run_bind (fun ended => ?_) (a.started scene w step))
  exact Keeps.bind (.of_modify fun _ => List.prefix_rfl) fun _ =>
    growing_follow (allGrowing _) step ended.2 ended.1.action

theorem TakesOver.grows_run {v : Visit} (takesOver : TakesOver env scene w a v inv s c) :
    Grows (c.run env).2 (a.run env scene w).2 := by
  rw [takesOver.run_eq]
  exact Keeps.run_bind (fun _ => .of_pure _) c.state

theorem Calls.grows_run (calls : Calls env c c') : Grows (c'.run env).2 (c.run env).2 := by
  have deeper : c.bound ≠ 0 := Nat.ne_of_gt (Nat.zero_lt_of_lt calls.bound_lt)
  cases calls with
  | dependency prepares split supplies needs =>
    exact (needs.grows_run _).trans (supplies.grows_run prepares deeper split)
  | step opens before starts delegates =>
    refine (delegates.grows_run starts).trans ?_
    rw [← before.run_eq]
    exact opens.grows_run
  | takeover opens before takesOver =>
    refine takesOver.grows_run.trans ?_
    rw [← before.run_eq]
    exact opens.grows_run

theorem Within.grows_run (within : Within env c c') : Grows (c'.run env).2 (c.run env).2 := by
  induction within with
  | refl => exact List.prefix_rfl
  | tail _ calls ih => exact calls.grows_run.trans ih

end Arazzo.Run
