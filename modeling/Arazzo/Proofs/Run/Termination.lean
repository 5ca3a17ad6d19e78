import Arazzo.Proofs.Run.Bound
import Arazzo.Proofs.Run.Passage

/-! Runs end. What is left of the budget together with the workflows that are no dependency under way
goes down at every entry into nested work but the entry into a workflow itself, and there the list
of dependencies bounds what comes before the next one. -/

namespace Arazzo
namespace Run

def free (registry : Registry) (s : RunState) : List WorkflowKey :=
  (registry.workflowKeys []).filter (· ∉ s.stack)

/-- What a run may still enter. -/
def weight (config : Config) (registry : Registry) (s : RunState) : Nat :=
  config.maxSteps - s.executions + (free registry s).length

/-- How deep work may nest while the weight stays as it is. -/
def width (registry : Registry) : Nat := longestDependsOn registry + 3

variable {α β : Type} {env : Environment} {registry : Registry} {config : Config}
  {s s' : RunState} {bound n : Nat}

theorem weight_le (h : Path env registry s s') (hstack : s'.stack = s.stack) :
    weight config registry s' ≤ weight config registry s := by
  have hfree : free registry s' = free registry s := by rw [free, hstack, free]
  rw [weight, weight, hfree]
  have := h.executions
  omega

theorem weight_start (key : WorkflowKey) (stepId : String)
    (hwithin : s.executions < config.maxSteps) :
    weight config registry (s.count.start key stepId) + 1 = weight config registry s := by
  change config.maxSteps - (s.executions + 1) + (free registry s).length + 1 = _
  rw [weight]
  omega

theorem weight_enter {key : WorkflowKey} (hkey : key ∈ registry.workflowKeys [])
    (idle : key ∉ s.stack) :
    weight config registry (s.enter key) < weight config registry s := by
  have hfree : free registry (s.enter key) = (free registry s).filter (· ≠ key) := by
    simp [free, RunState.enter, List.filter_filter, and_comm]
  have hless : (free registry (s.enter key)).length < (free registry s).length := by
    rw [hfree, List.length_filter_lt_length_iff_exists]
    exact ⟨key, List.mem_filter.mpr ⟨hkey, by simpa using idle⟩, by simp⟩
  exact Nat.add_lt_add_left hless _

theorem weight_opening (workflowId : String) (trace : Trace) :
    weight config registry (.opening workflowId trace) ≤
      config.maxSteps + registry.workflows.length := by
  rw [← Registry.length_workflowKeys []]
  exact Nat.add_le_add_left (List.length_filter_le ..) _

theorem length_dependsOn_le {w : Workflow} (h : w ∈ registry.workflows) :
    w.dependsOn.length ≤ longestDependsOn registry := by
  have folded (ws : List Workflow) (longest : Nat) :
      longest ≤ ws.foldl (fun n w => max n w.dependsOn.length) longest ∧
        ∀ w ∈ ws, w.dependsOn.length ≤ ws.foldl (fun n w => max n w.dependsOn.length) longest := by
    induction ws generalizing longest with
    | nil => simp
    | cons first rest ih =>
      obtain ⟨hlongest, hrest⟩ := ih (max longest first.dependsOn.length)
      refine ⟨Nat.le_trans (Nat.le_max_left ..) hlongest, ?_⟩
      rintro w (_ | ⟨_, hw⟩)
      · exact Nat.le_trans (Nat.le_max_right ..) hlongest
      · exact hrest w hw
  exact (folded registry.workflows 0).2 w h

/-- Work that ends, with what it gives or for a reason other than the bound on nested work. -/
def Settles (work : Running α) (s : RunState) : Prop :=
  Leads work s (fun _ _ => True) fun stop _ => stop.Final RunError.fault

namespace Settles

theorem of_pure {a : α} : Settles (pure a) s := Leads.of_pure trivial

theorem of_fail {workflowId : String} {stepId : Option String} {fault : RunFault}
    (h : fault ≠ .unfinished) : Settles (fail workflowId stepId fault : Running α) s :=
  Leads.of_throw h

theorem bind {work : Running α} {next : α → Running β} {ok : α → RunState → Prop}
    (h : Settles work s) (goes : Goes env registry work s ok)
    (hnext : ∀ a s', Passes env registry s s' → ok a s' → Settles (next a) s') :
    Settles (work >>= next) s :=
  Leads.bind ((Leads.and h goes).mono (fun _ _ h => h.2) fun _ _ h => h.1)
    fun a s' ⟨hpass, ha⟩ => hnext a s' hpass ha

theorem orFail_bind {workflowId : String} {stepId : Option String} {result : Except RunFault α}
    {next : α → Running β} (h : ∀ fault, result = .error fault → fault ≠ .unfinished)
    (hnext : ∀ a, result = .ok a → Settles (next a) s) :
    Settles (orFail workflowId stepId result >>= next) s :=
  orFail_bind_leads h hnext

theorem sleep (d : Duration) : Settles (Run.sleep env d) s :=
  (sleep_leads d).mono (fun _ _ _ => trivial) fun _ _ h => h.1

theorem ofExcept {result : Except RunError α}
    (h : ∀ error, result = .error error → error.fault ≠ .unfinished) :
    Settles (Run.ofExcept result) s := by
  cases result with
  | ok a => exact of_pure
  | error error => exact Leads.of_throw (h error rfl)

theorem onStep {workflowId stepId : String} {inv : Invocation} {work : Stepping α}
    (h : ∀ z, Leads work z (fun _ _ => True) fun stop _ => stop.Final id) :
    Settles (Run.onStep workflowId stepId inv work) s := by
  refine onStep_leads (fun _ _ _ => trivial) fun reason session hrun => ?_
  have hfinal := (h _).of_error hrun
  cases reason with
  | failed fault => exact hfinal
  | expired => trivial
  | unfinished => exact hfinal

end Settles

theorem applySchema_error {schema : Json} {inputs : Table Json} {fault : RunFault}
    (h : applySchema schema inputs = .error fault) : ∃ name, fault = .missingInput name := by
  unfold applySchema at h
  dsimp only at h
  split at h <;> cases h
  exact ⟨_, rfl⟩

theorem inputSchema_error {document : Document} {schema : Json} {fault : RunFault}
    (h : inputSchema document schema = .error fault) : ∃ error, fault = .reference error := by
  unfold inputSchema at h
  split at h
  · cases h
  · split at h
    · cases h
      exact ⟨_, rfl⟩
    · split at h
      · cases h
        exact ⟨_, rfl⟩
      · split at h <;> cases h
        exact ⟨_, rfl⟩

theorem prepareInputs_error {document : Document} {w : Workflow} {inputs : Json} {fault : RunFault}
    (h : prepareInputs document w inputs = .error fault) :
    (∃ name, fault = .missingInput name) ∨ ∃ error, fault = .reference error := by
  unfold prepareInputs at h
  split at h
  · cases h
  · split at h
    · rename_i hschema
      cases h
      exact .inr (inputSchema_error hschema)
    · split at h
      · exact .inl (applySchema_error h)
      · exact .inl (applySchema_error h)
      · cases h

theorem prepareInputs_final {document : Document} {w : Workflow} {inputs : Json} {fault : RunFault}
    (h : prepareInputs document w inputs = .error fault) : fault ≠ .unfinished := by
  obtain ⟨name, rfl⟩ | ⟨error, rfl⟩ := prepareInputs_error h <;> simp

theorem locate_error {scene : Scene} {reference : String} {fault : RunFault}
    (h : locate scene reference = .error fault) : fault = .workflowNotFound reference := by
  unfold locate at h
  split at h <;> cases h
  rfl

theorem locate_final {scene : Scene} {reference : String} {fault : RunFault}
    (h : locate scene reference = .error fault) : fault ≠ .unfinished := by
  simp [locate_error h]

theorem workflowOutputs_error {workflowId : String} {context : Context} {finish : Finish}
    {expressions : List (String × String)} {outputs : Table Json} {r : Resolver} {error : RunError}
    (h : workflowOutputs workflowId context finish expressions outputs r = .error error) :
    ∃ reason, error = ⟨workflowId, none, .resolve reason⟩ := by
  induction expressions generalizing outputs r with
  | nil => cases h
  | cons output rest ih =>
    obtain ⟨name, expression⟩ := output
    unfold workflowOutputs at h
    split at h
    · rename_i hfirst
      cases h
      unfold workflowOutput at hfirst
      dsimp only at hfirst
      split at hfirst <;> cases hfirst
      exact ⟨_, rfl⟩
    · exact ih h
    · exact ih h

theorem workflowOutputs_final {workflowId : String} {context : Context} {finish : Finish}
    {expressions : List (String × String)} {outputs : Table Json} {r : Resolver} {error : RunError}
    (h : workflowOutputs workflowId context finish expressions outputs r = .error error) :
    error.fault ≠ .unfinished := by
  obtain ⟨reason, rfl⟩ := workflowOutputs_error h
  simp

structure Settled (env : Environment) (registry : Registry) (bound : Nat) : Prop where
  workflow (scene : Scene) (workflowId : String) (inputs : Json) (s : RunState) (n : Nat) :
    scene.In registry → weight env.config registry s ≤ n → width registry * (n + 1) ≤ bound →
      Settles (runWorkflow env bound scene workflowId inputs) s
  dependencies (scene : Scene) (dependent : String) (references : List String)
      (resolver : Resolver) (s : RunState) (n : Nat) :
    scene.In registry → weight env.config registry s ≤ n →
      references.length + 2 + width registry * n ≤ bound →
      Settles (runDependencies env bound scene dependent references resolver) s
  dependency (target : Scene) (called : Workflow) (dependent : String) (s : RunState) (n : Nat) :
    Home registry target called → weight env.config registry s ≤ n →
      1 + width registry * n ≤ bound →
      Settles (runDependency env bound target called.workflowId dependent) s
  steps (scene : Scene) (w : Workflow) (inv : Invocation) (retries : Table Nat) (index : Nat)
      (s : RunState) (n : Nat) :
    Home registry scene w → Ready registry (scene.keyOf w) s →
      weight env.config registry s ≤ n → 2 + width registry * n ≤ bound →
      Settles (runSteps env bound scene w inv retries index) s
  step (scene : Scene) (w : Workflow) (step : Step) (inv : Invocation) (s : RunState) (n : Nat) :
    Home registry scene w → weight env.config registry s ≤ n →
      1 + width registry * (n + 1) ≤ bound → Settles (runStep env bound scene w step inv) s

theorem settled_zero : Settled env registry 0 where
  workflow _ _ _ _ n _ _ h := by
    have : 0 < width registry * (n + 1) := Nat.mul_pos (Nat.succ_pos _) (Nat.succ_pos _)
    omega
  dependencies _ _ _ _ _ _ _ _ h := by omega
  dependency _ _ _ _ _ _ _ h := by omega
  steps _ _ _ _ _ _ _ _ _ _ h := by omega
  step _ _ _ _ _ _ _ _ h := by omega

theorem settles_runWorkflow (ih : Settled env registry bound) {scene : Scene} (workflowId : String)
    (inputs : Json) (hscene : scene.In registry) (hn : weight env.config registry s ≤ n)
    (hbound : width registry * (n + 1) ≤ bound + 1) :
    Settles (runWorkflow env (bound + 1) scene workflowId inputs) s := by
  unfold runWorkflow
  dsimp only
  split
  · exact .of_fail (by simp)
  · rename_i w hw
    have home : Home registry scene w := hscene.home hw
    rw [Nat.mul_succ, width] at hbound
    have longest := length_dependsOn_le home.mem_workflows
    refine .orFail_bind (fun _ => prepareInputs_final) fun inputs _ => ?_
    refine (ih.dependencies scene workflowId w.dependsOn _ s n hscene hn ?_).bind
      ((passable bound).dependencies scene workflowId w.dependsOn _ s hscene)
      fun resolver s₁ h₁ hdone => ?_
    · rw [width]
      omega
    have ready := ready_of_located home hdone
    have h₁n := Nat.le_trans (weight_le h₁.path h₁.stack) hn
    refine (ih.steps scene w _ [] 0 s₁ n home ready h₁n ?_).bind
      ((passable bound).steps scene w _ [] 0 s₁ home ready) fun ⟨finish, inv⟩ s₂ _ _ => ?_
    · rw [width]
      omega
    exact .ofExcept fun _ => workflowOutputs_final

theorem settles_runDependencies (ih : Settled env registry bound) {scene : Scene}
    (dependent : String) (references : List String) (resolver : Resolver)
    (hscene : scene.In registry) (hn : weight env.config registry s ≤ n)
    (hbound : references.length + 2 + width registry * n ≤ bound + 1) :
    Settles (runDependencies env (bound + 1) scene dependent references resolver) s := by
  cases references with
  | nil =>
    unfold runDependencies
    exact .of_pure
  | cons reference rest =>
    unfold runDependencies
    rw [List.length_cons] at hbound
    refine .orFail_bind (fun _ => locate_final) ?_
    rintro ⟨target, called⟩ hfound
    have home := home_of_locate hscene hfound
    refine (ih.dependency target called dependent s n home hn (by omega)).bind
      ((passable bound).dependency target called dependent s home) fun outputs s₁ h₁ _ => ?_
    have h₁n := Nat.le_trans (weight_le h₁.path h₁.stack) hn
    exact Leads.bind_modify (ih.dependencies scene dependent rest _ _ n hscene h₁n (by omega))

theorem settles_runDependency (ih : Settled env registry bound) {target : Scene}
    {called : Workflow} (dependent : String) (home : Home registry target called)
    (hn : weight env.config registry s ≤ n) (hbound : 1 + width registry * n ≤ bound + 1) :
    Settles (runDependency env (bound + 1) target called.workflowId dependent) s := by
  unfold runDependency
  refine Leads.bind_get ?_
  split
  · exact Settles.of_pure
  · split
    · exact Settles.of_fail (by simp)
    · rename_i idle
      -- The key is no longer free, which pays for the workflow's own nesting.
      have entered : weight env.config registry (s.enter (target.keyOf called)) < n :=
        Nat.lt_of_lt_of_le (weight_enter home.mem_workflowKeys idle) hn
      obtain ⟨m, rfl⟩ := Nat.exists_eq_succ_of_ne_zero (Nat.ne_of_gt (Nat.zero_lt_of_lt entered))
      have inner := ih.workflow target called.workflowId (.obj []) _ m home.scene_in
        (Nat.le_of_lt_succ entered) (by rw [Nat.succ_eq_add_one] at hbound; omega)
      refine Leads.bind_modify (inner.bind
        ((passable bound).workflow target called.workflowId (.obj []) _ home.scene_in)
        fun outputs s₁ _ _ => ?_)
      exact Leads.bind_modify Settles.of_pure

theorem settles_runSteps (ih : Settled env registry bound) {scene : Scene} {w : Workflow}
    (inv : Invocation) (retries : Table Nat) (index : Nat) (home : Home registry scene w)
    (ready : Ready registry (scene.keyOf w) s) (hn : weight env.config registry s ≤ n)
    (hbound : 2 + width registry * n ≤ bound + 1) :
    Settles (runSteps env (bound + 1) scene w inv retries index) s := by
  unfold runSteps
  split
  · exact .of_pure
  · rename_i step hstep
    refine Leads.bind ((spend_leads w.workflowId step.stepId).mono (fun _ _ h => h)
      fun _ _ h => h.1) fun _ s₁ ⟨hs₁, within⟩ => ?_
    subst hs₁
    have start : Path env registry s (s.count.start (scene.keyOf w) step.stepId) :=
      .single (.start home (List.mem_of_getElem? hstep) ready within)
    -- One step execution less is left for all that follows.
    have started : weight env.config registry (s.count.start (scene.keyOf w) step.stepId) < n := by
      rw [← weight_start (scene.keyOf w) step.stepId within] at hn
      exact hn
    obtain ⟨m, rfl⟩ := Nat.exists_eq_succ_of_ne_zero (Nat.ne_of_gt (Nat.zero_lt_of_lt started))
    rw [Nat.succ_eq_add_one] at started hbound
    have width_pos : 0 < width registry := Nat.succ_pos _
    have hwidth : width registry * (m + 1) = width registry * m + width registry := Nat.mul_succ ..
    have whole : Passable env registry bound := passable bound
    have passes := whole.step scene w step inv
      (s.count.start (scene.keyOf w) step.stepId) home ⟨_, _, rfl, rfl⟩
    have settles := ih.step scene w step inv _ m home (Nat.le_of_lt_succ started) (by omega)
    refine Leads.bind_modify (Leads.bind ((Leads.and settles passes).mono (fun _ _ h => h.2)
      fun _ _ h => h.1) fun ⟨outcome, inv'⟩ s₁ ⟨hpath, hstack, _⟩ => Leads.bind_modify ?_)
    generalize hfiled : s₁.file (outcome.record w.workflowId step.stepId
      ((Table.get? step.stepId retries).getD 0 + 1)) = filed
    have path : Path env registry (s.count.start (scene.keyOf w) step.stepId) filed :=
      hfiled ▸ hpath _
    have filed_stack : filed.stack = s.stack := hfiled ▸ hstack
    have ready' : Ready registry (scene.keyOf w) filed :=
      Path.ready (start.trans path) ready
    have filed_le : weight env.config registry filed ≤ m :=
      Nat.le_trans (weight_le path filed_stack) (Nat.le_of_lt_succ started)
    cases outcome.action with
    | next => exact ih.steps scene w inv' _ _ filed m home ready' filed_le (by omega)
    | finish => exact Leads.bind_modify Settles.of_pure
    | gotoStep target =>
      refine Leads.bind_modify ?_
      split
      · exact Settles.of_fail (by simp)
      · exact ih.steps scene w inv' _ _ _ m home ready' filed_le (by omega)
    | gotoWorkflow reference =>
      refine Leads.bind_modify ?_
      split
      · exact Settles.of_fail (by simp)
      · rename_i target called hfound
        have target_in := (home_of_locate home.scene_in hfound).scene_in
        have called_settles := ih.workflow target called.workflowId inv'.context.inputs
          (filed.emit (.goto w.workflowId step.stepId reference)) m target_in filed_le (by omega)
        exact called_settles.bind (whole.workflow target called.workflowId _ _ target_in)
          fun _ _ _ _ => Settles.of_pure
    | retry delay limit =>
      dsimp only
      split
      · exact Settles.of_fail (by simp)
      · have sleep (t : RunState) : Goes env registry (sleep env delay) t fun _ _ => True := .sleep
        refine Leads.bind_modify ((Settles.sleep delay).bind (sleep _) fun _ s₂ h₂ _ => ?_)
        have h₂m := Nat.le_trans (weight_le h₂.path h₂.stack) filed_le
        exact ih.steps scene w inv' _ _ s₂ m home (h₂.ready ready') h₂m (by omega)

theorem settles_runStep (ih : Settled env registry bound) {scene : Scene} {w : Workflow}
    {step : Step} (inv : Invocation) (home : Home registry scene w)
    (hn : weight env.config registry s ≤ n) (hbound : 1 + width registry * (n + 1) ≤ bound + 1) :
    Settles (runStep env (bound + 1) scene w step inv) s := by
  unfold runStep
  split
  · exact .of_fail (by simp)
  · refine .orFail_bind (fun _ => locate_final) fun ⟨target, called⟩ hfound => ?_
    have target_in := (home_of_locate home.scene_in hfound).scene_in
    have quiet := quiet_delegatedInputs scene w step
    have passes : Goes env registry
        (onStep w.workflowId step.stepId inv (delegatedInputs scene w step)) s fun _ _ => True :=
      goes_onStep quiet
    refine (Settles.onStep fun z => (quiet z).mono (fun _ _ _ => trivial) fun _ _ h => h.1).bind
      passes fun ⟨inputs, inv'⟩ s₁ h₁ _ => ?_
    have h₁n := Nat.le_trans (weight_le h₁.path h₁.stack) hn
    refine (ih.workflow target called.workflowId inputs s₁ n target_in h₁n (by omega)).bind
      ((passable bound).workflow target called.workflowId inputs s₁ target_in)
      fun outputs s₂ _ _ => ?_
    exact .onStep fun z => (conclude_leads env scene.registry w step none z).mono
      (fun _ _ _ => trivial) fun _ _ h => h.1
  · exact .onStep fun z => (execute_leads env scene.registry w step z).mono
      (fun _ _ _ => trivial) fun _ _ h => h.1

theorem settled : ∀ bound, Settled env registry bound
  | 0 => settled_zero
  | bound + 1 =>
    have ih := settled bound
    { workflow := fun _ workflowId inputs _ _ => settles_runWorkflow ih workflowId inputs
      dependencies := fun _ dependent references resolver _ _ =>
        settles_runDependencies ih dependent references resolver
      dependency := fun _ _ dependent _ _ => settles_runDependency ih dependent
      steps := fun _ _ inv retries index _ _ => settles_runSteps ih inv retries index
      step := fun _ _ _ inv _ _ => settles_runStep ih inv }

theorem width_mul_le_enough (config : Config) (registry : Registry) :
    width registry * (config.maxSteps + registry.workflows.length + 1) ≤ enough config registry := by
  have : width registry * (config.maxSteps + registry.workflows.length + 1) ≤
      (config.maxSteps + registry.workflows.length + 2) * (2 * longestDependsOn registry + 6) := by
    rw [Nat.mul_comm]
    apply Nat.mul_le_mul
    · omega
    · rw [width]
      omega
  rw [enough]
  omega

theorem Settles.run_eq {work more : Running α} (h : Settles work s) (hagrees : Agrees work more) :
    more.run s = work.run s := by
  refine hagrees.run_eq h fun stop _ hfinal => ?_
  rintro rfl
  exact hfinal

theorem settles_perform (env : Environment) (registry : Registry) (workflowId : String)
    (inputs : Json) (trace : Trace) :
    Settles (runWorkflow (env.limitedFrom trace.clock) (enough env.config registry) ⟨[], registry⟩
      workflowId inputs) (.opening workflowId trace) :=
  (settled _).workflow ⟨[], registry⟩ workflowId inputs _ _ rfl (weight_opening workflowId trace)
    (width_mul_le_enough env.config registry)

/--
A run ends with a report or with an error of its own, and never for the bound on nested work: within
any greater bound it does the same.
-/
theorem withSources_ends (env : Environment) (registry : Registry) (workflowId : String)
    (inputs : Json) (trace : Trace) :
    let ending : Except RunError Report × Trace := withSources env registry workflowId inputs trace
    (∀ bound, enough env.config registry ≤ bound →
      perform env bound registry workflowId inputs trace =
        perform env (enough env.config registry) registry workflowId inputs trace) ∧
    ((∃ report, ending.1 = .ok report) ∨
      ∃ error, ending.1 = .error error ∧ error.fault ≠ .unfinished) := by
  have settles := settles_perform env registry workflowId inputs trace
  refine ⟨fun bound hbound => ?_, ?_⟩
  · exact settles.run_eq (agrees_of_le hbound ⟨[], registry⟩ workflowId inputs)
  · unfold withSources
    rcases hrun : perform env (enough env.config registry) registry workflowId inputs trace with
      ⟨stop | outputs, s⟩
    · have hfinal := settles.of_error hrun
      refine .inr ⟨_, rfl, ?_⟩
      cases stop with
      | failed error => exact hfinal
      | expired => simp [located]
      | unfinished => exact hfinal.elim
    · exact .inl ⟨_, rfl⟩

end Run
end Arazzo
