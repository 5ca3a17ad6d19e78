import Arazzo.Proofs.Run.Moves

/-! Every run is a path of moves. The induction is on the bound of nested work; it carries which
dependencies have completed when a workflow's steps begin. -/

namespace Arazzo.Run

/-- Within a bound, all kinds of work pass or stop. -/
structure Passable (env : Environment) (registry : Registry) (bound : Nat) : Prop where
  workflow (scene : Scene) (workflowId : String) (inputs : Json) (s : RunState) :
    scene.In registry → Goes env registry (runWorkflow env bound scene workflowId inputs) s
      fun _ s' => Ready registry ⟨scene.key, workflowId⟩ s'
  dependencies (scene : Scene) (dependent : String) (references : List String)
      (resolver : Resolver) (s : RunState) :
    scene.In registry →
      Goes env registry (runDependencies env bound scene dependent references resolver) s
        fun _ s' => ∀ reference ∈ references, ∀ target called,
          locate scene reference = .ok (target, called) → target.keyOf called ∈ completed s'
  dependency (target : Scene) (called : Workflow) (dependent : String) (s : RunState) :
    Home registry target called →
      Goes env registry (runDependency env bound target called.workflowId dependent) s
        fun outputs s' => (target.keyOf called, outputs) ∈ s'.finished
  steps (scene : Scene) (w : Workflow) (inv : Invocation) (retries : Table Nat) (index : Nat)
      (s : RunState) :
    Home registry scene w → Ready registry (scene.keyOf w) s →
      Goes env registry (runSteps env bound scene w inv retries index) s fun _ _ => True
  /-- All that the path of a step is short of is the record of its outcome. -/
  step (scene : Scene) (w : Workflow) (step : Step) (inv : Invocation) (s : RunState) :
    Home registry scene w → Fresh (scene.keyOf w) step.stepId s →
      Leads (runStep env bound scene w step inv) s
        (fun (outcome, _) s' =>
          (∀ attempt, Path env registry s
            (s'.file (outcome.record w.workflowId step.stepId attempt))) ∧
          s'.stack = s.stack ∧ starts s' + s.records.length = starts s + s'.records.length)
        (Stops env registry s)

variable {env : Environment} {registry : Registry} {bound : Nat}

theorem passable_zero : Passable env registry 0 where
  workflow _ _ _ _ _ := by
    unfold runWorkflow
    exact .of_throw
  dependencies _ _ _ _ _ _ := by
    unfold runDependencies
    exact .of_throw
  dependency _ _ _ _ _ := by
    unfold runDependency
    exact .of_throw
  steps _ _ _ _ _ _ _ _ := by
    unfold runSteps
    exact .of_throw
  step _ _ _ _ _ _ _ := by
    unfold runStep
    exact Leads.of_throw (.now _)

theorem goes_ofExcept {α : Type} {s : RunState} {result : Except RunError α}
    {ok : α → RunState → Prop} (h : ∀ a, ok a s) : Goes env registry (ofExcept result) s ok := by
  cases result with
  | ok a => exact .of_pure (h a)
  | error error => exact .of_throw

theorem ready_of_located {scene : Scene} {w : Workflow} {s : RunState}
    (home : Home registry scene w)
    (hdone : ∀ reference ∈ w.dependsOn, ∀ target called,
      locate scene reference = .ok (target, called) → target.keyOf called ∈ completed s) :
    Ready registry (scene.keyOf w) s := by
  intro dependency hdependency
  obtain ⟨reference, named, target, called, found, rfl⟩ := hdependency.located home
  exact hdone reference named target called found

theorem goes_runWorkflow (ih : Passable env registry bound) {scene : Scene} (workflowId : String)
    (inputs : Json) (s : RunState) (hscene : scene.In registry) :
    Goes env registry (runWorkflow env (bound + 1) scene workflowId inputs) s
      fun _ s' => Ready registry ⟨scene.key, workflowId⟩ s' := by
  unfold runWorkflow
  dsimp only
  split
  · exact .of_fail
  · rename_i w hw
    have home : Home registry scene w := hscene.home hw
    have hkey : scene.keyOf w = ⟨scene.key, workflowId⟩ := by
      rw [Scene.keyOf, (Document.workflow?_some hw).2]
    refine Goes.bind .orFail fun inputs s₁ _ _ => ?_
    refine (ih.dependencies scene workflowId w.dependsOn _ s₁ hscene).bind
      fun resolver s₂ _ hdone => ?_
    -- All that the workflow names has completed, and nothing that completed is ever dropped.
    have ready := ready_of_located home hdone
    rw [← hkey]
    refine (ih.steps scene w _ [] 0 s₂ home ready).bind fun _ s₃ hpass _ => ?_
    exact goes_ofExcept fun _ => hpass.ready ready

theorem goes_runDependencies (ih : Passable env registry bound) {scene : Scene}
    (dependent : String) (references : List String) (resolver : Resolver) (s : RunState)
    (hscene : scene.In registry) :
    Goes env registry (runDependencies env (bound + 1) scene dependent references resolver) s
      fun _ s' => ∀ reference ∈ references, ∀ target called,
        locate scene reference = .ok (target, called) → target.keyOf called ∈ completed s' := by
  cases references with
  | nil =>
    unfold runDependencies
    exact .of_pure (by simp)
  | cons reference rest =>
    unfold runDependencies
    refine Goes.bind .orFail fun ⟨target, called⟩ s₁ _ hfound => ?_
    have home := home_of_locate hscene hfound
    refine (ih.dependency target called dependent s₁ home).bind fun outputs s₂ _ hdone => ?_
    have publish : Passes env registry s₂
        (s₂.note (.published ⟨scene.key, dependent⟩ (target.keyOf called) outputs)) :=
      ⟨.single (.publish _ hdone), rfl, rfl⟩
    have rest_goes := ih.dependencies scene dependent rest
      (resolver.publishWorkflow called.workflowId outputs)
      (s₂.note (.published ⟨scene.key, dependent⟩ (target.keyOf called) outputs)) hscene
    refine Leads.bind_modify ((rest_goes.mono fun _ s₃ hpass hrest => ?_).after publish)
    rintro other (_ | ⟨_, hother⟩) target' called' hfound'
    · obtain ⟨rfl, rfl⟩ := Prod.mk.inj (Except.ok.inj (hfound.symm.trans hfound'))
      exact List.mem_map_of_mem (hpass.path.finished.subset hdone)
    · exact hrest other hother target' called' hfound'

theorem goes_runDependency (ih : Passable env registry bound) {target : Scene} {called : Workflow}
    (dependent : String) (s : RunState) (home : Home registry target called) :
    Goes env registry (runDependency env (bound + 1) target called.workflowId dependent) s
      fun outputs s' => (target.keyOf called, outputs) ∈ s'.finished := by
  unfold runDependency
  refine Leads.bind_get ?_
  dsimp only
  split
  · rename_i outputs hlookup
    obtain ⟨before, after, hsplit, -⟩ := List.lookup_eq_some_iff.mp hlookup
    exact Goes.of_pure (by simp [hsplit, Scene.keyOf])
  · rename_i hlookup
    split
    · exact Goes.of_fail
    · rename_i idle
      have new : target.keyOf called ∉ completed s := by
        intro hmem
        obtain ⟨entry, hentry, hkey⟩ := List.mem_map.mp hmem
        have := List.lookup_eq_none_iff.mp hlookup entry hentry
        simp [hkey, Scene.keyOf] at this
      -- The key is on the stack for as long as its workflow runs, and the run of it evens out.
      have enter : Path env registry s (s.enter (target.keyOf called)) := .single (.enter new idle)
      refine Leads.bind_modify ?_
      refine Leads.bind_run (stops_after enter (ih.workflow target called.workflowId (.obj []) _
        home.scene_in)) fun outputs s₁ hrun ⟨hpass, ready⟩ => ?_
      have top : s₁.stack = s.stack ++ [target.keyOf called] := hpass.stack
      refine Leads.bind_modify (Leads.of_pure ⟨⟨?_, ?_, hpass.balance⟩, ?_⟩)
      · have ran : Completes env registry (target.keyOf called) outputs s₁ :=
          ⟨bound, target, called, _, home, rfl, hrun⟩
        exact enter.trans (hpass.path.tail (.complete ran top ready))
      · exact (congrArg List.dropLast top).trans (List.dropLast_concat ..)
      · exact List.mem_append_right _ (List.mem_singleton_self _)

theorem goes_runSteps (ih : Passable env registry bound) {scene : Scene} {w : Workflow}
    (inv : Invocation) (retries : Table Nat) (index : Nat) (s : RunState)
    (home : Home registry scene w) (ready : Ready registry (scene.keyOf w) s) :
    Goes env registry (runSteps env (bound + 1) scene w inv retries index) s fun _ _ => True := by
  unfold runSteps
  split
  · exact .of_pure trivial
  · rename_i step hstep
    refine Leads.bind ((spend_leads w.workflowId step.stepId).mono (fun _ _ h => h)
      fun _ _ h => ⟨s, .refl, h.2⟩) fun _ s₁ ⟨hs₁, within⟩ => ?_
    subst hs₁
    have start : Path env registry s (s.count.start (scene.keyOf w) step.stepId) :=
      .single (.start home (List.mem_of_getElem? hstep) ready within)
    have fresh : Fresh (scene.keyOf w) step.stepId (s.count.start (scene.keyOf w) step.stepId) :=
      ⟨_, _, rfl, rfl⟩
    refine Leads.bind_modify (Leads.bind (stops_after start (ih.step scene w step inv _ home fresh))
      fun ⟨outcome, inv'⟩ s₂ ⟨hpath, hstack, hbalance⟩ => Leads.bind_modify ?_)
    have filed : Passes env registry s (s₂.file (outcome.record w.workflowId step.stepId
        ((Table.get? step.stepId retries).getD 0 + 1))) :=
      .of_filed start (hpath _) hstack hbalance
    -- With its record filed the step has passed, whichever way the workflow goes on.
    have ready' := filed.ready ready
    refine Goes.after filed ?_
    cases outcome.action with
    | next => exact ih.steps scene w inv' _ _ _ home ready'
    | finish => exact .emit_bind rfl (.of_pure trivial)
    | gotoStep target =>
      refine .emit_bind rfl ?_
      split
      · exact .of_fail
      · exact ih.steps scene w inv' _ _ _ home ready'
    | gotoWorkflow reference =>
      refine .emit_bind rfl ?_
      split
      · exact .of_fail
      · rename_i target called hfound
        have target_in := (home_of_locate home.scene_in hfound).scene_in
        exact (ih.workflow target called.workflowId _ _ target_in).bind
          fun _ _ _ _ => .of_pure trivial
    | retry delay limit =>
      dsimp only
      split
      · exact .of_fail
      · refine .emit_bind rfl (Goes.sleep.bind fun _ s₃ hslept _ => ?_)
        exact ih.steps scene w inv' _ _ s₃ home (hslept.ready ready')

theorem starts_judged {s : RunState} {scene : Scene} {w : Workflow} {step : Step}
    {outcome : StepOutcome} {session : Session}
    (h : Judges env scene w step s (.ok outcome) session) :
    starts (s.traced session.trace) = starts s := by
  rw [starts_of_events _ h.events_of_ok, List.filterMap_cons, start?_verdict]
  rfl

theorem leads_runStep (ih : Passable env registry bound) {scene : Scene} {w : Workflow}
    {step : Step} (inv : Invocation) (s : RunState) (home : Home registry scene w)
    (fresh : Fresh (scene.keyOf w) step.stepId s) :
    Leads (runStep env (bound + 1) scene w step inv) s
      (fun (outcome, _) s' =>
        (∀ attempt, Path env registry s
          (s'.file (outcome.record w.workflowId step.stepId attempt))) ∧
        s'.stack = s.stack ∧ starts s' + s.records.length = starts s + s'.records.length)
      (Stops env registry s) := by
  unfold runStep
  split
  · exact Leads.of_throw (.now _)
  · rename_i reference _
    refine Leads.bind Goes.orFail fun ⟨target, called⟩ s₁ ⟨hpass₁, hfound⟩ => ?_
    refine Leads.bind (Goes.after hpass₁ (goes_onStep (quiet_delegatedInputs scene w step)))
      fun ⟨inputs, inv'⟩ s₂ ⟨hpass₂, _⟩ => ?_
    have target_in := (home_of_locate home.scene_in hfound).scene_in
    refine Leads.bind (Goes.after hpass₂ (ih.workflow target called.workflowId inputs s₂ target_in))
      fun outputs s₃ ⟨hpass₃, _⟩ => ?_
    refine onStep_leads (fun outcome session hrun => ?_) fun reason session hrun =>
      ⟨s₃, hpass₃.path, .judge (.delegation hrun)⟩
    -- The workflow that the step ran has passed; only the judgement on it is left.
    have judged : Judges env scene w step s₃ (.ok outcome) session := .delegation hrun
    refine ⟨fun attempt => hpass₃.path.tail (.judge attempt judged), hpass₃.stack, ?_⟩
    rw [starts_judged judged]
    exact hpass₃.balance
  · refine onStep_leads (fun outcome session hrun => ?_) fun reason session hrun =>
      ⟨s, .refl, .judge (.operation fresh hrun)⟩
    have judged : Judges env scene w step s (.ok outcome) session := .operation fresh hrun
    refine ⟨fun attempt => .single (.judge attempt judged), rfl, ?_⟩
    rw [starts_judged judged]
    rfl

theorem passable : ∀ bound, Passable env registry bound
  | 0 => passable_zero
  | bound + 1 =>
    have ih := passable bound
    { workflow := fun _ => goes_runWorkflow ih
      dependencies := fun _ => goes_runDependencies ih
      dependency := fun _ _ => goes_runDependency ih
      steps := fun _ _ => goes_runSteps ih
      step := fun _ _ _ => leads_runStep ih }

section Perform

variable {workflowId : String} {inputs : Json} {trace : Trace} {final : RunState}

theorem goes_runWorkflow_opening (env : Environment) (bound : Nat) (registry : Registry)
    (workflowId : String) (inputs : Json) (s : RunState) :
    Goes env registry (runWorkflow env bound ⟨[], registry⟩ workflowId inputs) s
      fun _ s' => Ready registry ⟨[], workflowId⟩ s' :=
  (passable bound).workflow ⟨[], registry⟩ workflowId inputs s rfl

theorem passes_of_perform {outputs : Table Json}
    (h : perform env bound registry workflowId inputs trace = (.ok outputs, final)) :
    Passes (env.limitedFrom trace.clock) registry (.opening workflowId trace) final :=
  ((goes_runWorkflow_opening _ bound registry workflowId inputs _).of_ok h).1

theorem stops_of_perform {stop : Stop RunError}
    (h : perform env bound registry workflowId inputs trace = (.error stop, final)) :
    Stops (env.limitedFrom trace.clock) registry (.opening workflowId trace) stop final :=
  (goes_runWorkflow_opening _ bound registry workflowId inputs _).of_error h

/-- What holds when a run opens and is kept by all moves holds when it is over. -/
theorem perform_induction (Holds : RunState → Prop) (opening : Holds (.opening workflowId trace))
    (move : ∀ s s', Move (env.limitedFrom trace.clock) registry s s' → Holds s → Holds s')
    (last : ∀ stop s s', Last (env.limitedFrom trace.clock) stop s s' → Holds s → Holds s') :
    Holds (perform env bound registry workflowId inputs trace).2 := by
  have along {s : RunState} (h : Path (env.limitedFrom trace.clock) registry
      (.opening workflowId trace) s) : Holds s := by
    induction h with
    | refl => exact opening
    | tail _ hmove ih => exact move _ _ hmove ih
  rcases h : perform env bound registry workflowId inputs trace with ⟨stop | outputs, final⟩
  · obtain ⟨mid, hpath, hlast⟩ := stops_of_perform h
    exact last stop mid final hlast (along hpath)
  · exact along (passes_of_perform h).path

theorem withSources_of_perform (env : Environment) (registry : Registry) (workflowId : String)
    (inputs : Json) (trace : Trace) :
    let ending : Except RunError Report × Trace := withSources env registry workflowId inputs trace
    let last := perform env (enough env.config registry) registry workflowId inputs trace
    ending.2 = last.2.trace.record (.runFinished workflowId ending.1.isOk) ∧
      ∀ stop, last.1 = .error stop → ending.1 = .error (located workflowId env.config stop) := by
  unfold withSources
  rcases perform env (enough env.config registry) registry workflowId inputs trace with
    ⟨stop | outputs, last⟩
  · refine ⟨rfl, ?_⟩
    rintro _ ⟨⟩
    rfl
  · exact ⟨rfl, by simp⟩

end Perform

end Arazzo.Run
