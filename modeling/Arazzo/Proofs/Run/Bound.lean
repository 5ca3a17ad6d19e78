import Arazzo.Proofs.Leads
import Arazzo.Run.Workflow

/-! What ends within a bound of nested work ends in the same way within any greater bound. -/

namespace Arazzo.Run

variable {α : Type} {env : Environment} {bound : Nat}

abbrev Agrees (work more : Running α) : Prop := AgreesUnless (· = .unfinished) work more

theorem Agrees.cut_off (more : Running α) : Agrees (throw .unfinished) more :=
  fun _ => .inl ⟨_, rfl, rfl⟩

structure Steady (env : Environment) (bound : Nat) : Prop where
  workflow (scene : Scene) (workflowId : String) (inputs : Json) :
    Agrees (runWorkflow env bound scene workflowId inputs)
      (runWorkflow env (bound + 1) scene workflowId inputs)
  dependencies (scene : Scene) (dependent : String) (references : List String)
      (resolver : Resolver) :
    Agrees (runDependencies env bound scene dependent references resolver)
      (runDependencies env (bound + 1) scene dependent references resolver)
  dependency (target : Scene) (workflowId dependent : String) :
    Agrees (runDependency env bound target workflowId dependent)
      (runDependency env (bound + 1) target workflowId dependent)
  steps (scene : Scene) (w : Workflow) (inv : Invocation) (retries : Table Nat) (index : Nat) :
    Agrees (runSteps env bound scene w inv retries index)
      (runSteps env (bound + 1) scene w inv retries index)
  step (scene : Scene) (w : Workflow) (step : Step) (inv : Invocation) :
    Agrees (runStep env bound scene w step inv) (runStep env (bound + 1) scene w step inv)

theorem steady_zero : Steady env 0 where
  workflow _ _ _ := by
    rw [runWorkflow]
    exact .cut_off _
  dependencies _ _ _ _ := by
    rw [runDependencies]
    exact .cut_off _
  dependency _ _ _ := by
    rw [runDependency]
    exact .cut_off _
  steps _ _ _ _ _ := by
    rw [runSteps]
    exact .cut_off _
  step _ _ _ _ := by
    rw [runStep]
    exact .cut_off _

theorem agrees_runWorkflow (ih : Steady env bound) (scene : Scene) (workflowId : String)
    (inputs : Json) :
    Agrees (runWorkflow env (bound + 1) scene workflowId inputs)
      (runWorkflow env (bound + 2) scene workflowId inputs) := by
  rw [runWorkflow, runWorkflow]
  dsimp only
  split
  · exact .refl _
  · rename_i w _
    refine .after _ fun inputs => ?_
    refine .bind (ih.dependencies scene workflowId w.dependsOn _) fun resolver => ?_
    exact .bind (ih.steps scene w _ [] 0) fun _ => .refl _

theorem agrees_runDependencies (ih : Steady env bound) (scene : Scene) (dependent : String)
    (references : List String) (resolver : Resolver) :
    Agrees (runDependencies env (bound + 1) scene dependent references resolver)
      (runDependencies env (bound + 2) scene dependent references resolver) := by
  cases references with
  | nil =>
    rw [runDependencies, runDependencies]
    exact .refl _
  | cons reference rest =>
    rw [runDependencies, runDependencies]
    refine .after _ fun ⟨target, called⟩ => ?_
    refine .bind (ih.dependency target called.workflowId dependent) fun outputs => ?_
    refine .after _ fun _ => ?_
    exact ih.dependencies scene dependent rest _

theorem agrees_runDependency (ih : Steady env bound) (target : Scene)
    (workflowId dependent : String) :
    Agrees (runDependency env (bound + 1) target workflowId dependent)
      (runDependency env (bound + 2) target workflowId dependent) := by
  rw [runDependency, runDependency]
  refine .after _ fun s => ?_
  split
  · exact .refl _
  · split
    · exact .refl _
    · exact .after _ fun _ => .bind (ih.workflow target workflowId (.obj [])) fun _ => .refl _

theorem agrees_runSteps (ih : Steady env bound) (scene : Scene) (w : Workflow) (inv : Invocation)
    (retries : Table Nat) (index : Nat) :
    Agrees (runSteps env (bound + 1) scene w inv retries index)
      (runSteps env (bound + 2) scene w inv retries index) := by
  rw [runSteps, runSteps]
  split
  · exact .refl _
  · rename_i step _
    refine .after _ fun _ => .after _ fun _ => ?_
    refine .bind (ih.step scene w step inv) fun ⟨outcome, inv'⟩ => .after _ fun _ => ?_
    cases outcome.action with
    | next => exact ih.steps scene w inv' _ _
    | finish => exact .refl _
    | gotoStep target =>
      refine .after _ fun _ => ?_
      split
      · exact .refl _
      · exact ih.steps scene w inv' retries _
    | gotoWorkflow reference =>
      refine .after _ fun _ => ?_
      split
      · exact .refl _
      · rename_i target called _
        exact .bind (ih.workflow target called.workflowId inv'.context.inputs) fun _ => .refl _
    | retry delay limit =>
      dsimp only
      split
      · exact .refl _
      · exact .after _ fun _ => .after _ fun _ => ih.steps scene w inv' _ index

theorem agrees_runStep (ih : Steady env bound) (scene : Scene) (w : Workflow) (step : Step)
    (inv : Invocation) :
    Agrees (runStep env (bound + 1) scene w step inv) (runStep env (bound + 2) scene w step inv) := by
  rw [runStep, runStep]
  split
  · exact .refl _
  · refine .after _ fun ⟨target, called⟩ => .after _ fun ⟨inputs, inv'⟩ => ?_
    exact .bind (ih.workflow target called.workflowId inputs) fun _ => .refl _
  · exact .refl _

theorem steady : ∀ bound, Steady env bound
  | 0 => steady_zero
  | bound + 1 =>
    have ih := steady bound
    { workflow := agrees_runWorkflow ih
      dependencies := agrees_runDependencies ih
      dependency := agrees_runDependency ih
      steps := agrees_runSteps ih
      step := agrees_runStep ih }

theorem agrees_of_le {more : Nat} (h : bound ≤ more) (scene : Scene) (workflowId : String)
    (inputs : Json) :
    Agrees (runWorkflow env bound scene workflowId inputs)
      (runWorkflow env more scene workflowId inputs) := by
  induction h with
  | refl => exact .refl _
  | step _ ih => exact ih.trans ((steady _).workflow scene workflowId inputs)

end Arazzo.Run
