import Arazzo.Proofs.Run.Attempts
import Arazzo.Proofs.Run.Calls

/-! Every retry that a run announces was scheduled by an invocation within the run. -/

namespace Arazzo

def Event.isRetry : Event → Bool
  | .retryScheduled .. => true
  | _ => false

namespace Run

variable {env : Environment} {registry : Registry} {bound : Nat} {scene : Scene} {w : Workflow}
  {inv : Invocation} {s s' s'' : RunState} {a b : Stage} {v : Visit} {legs : List Leg}
  {first first' last last' before : List Event} {event : Event}

def Scheduling.Within (x : Scheduling env registry) (first last : List Event) : Prop :=
  first <+: x.start.trace.events ∧
    ∃ result ending,
      (Stage.opening x.bound x.inv x.start).run env x.scene x.w = (result, ending) ∧
        ending.trace.events <+: last

/-- An invocation, which began without an exchange, scheduled the retry, and told of it just after
`before`. -/
def Scheduled (env : Environment) (registry : Registry) (first last before : List Event)
    (event : Event) : Prop :=
  ∃ x : Scheduling env registry, x.Within first last ∧ x.state.trace.events = before ∧
    x.event = event ∧ x.inv.context.exchange = none

/-- What a run tells from one state to another: each retry in it was scheduled. -/
structure Tells (env : Environment) (registry : Registry) (first last : List Event)
    (s s' : RunState) : Prop where
  executions : s.executions ≤ s'.executions
  events : s.trace.events <+: s'.trace.events
  arranged (before : List Event) (event : Event) : event.isRetry → s.trace.events <+: before →
    before ++ [event] <+: s'.trace.events → Scheduled env registry first last before event

abbrev TellsOwn (env : Environment) (registry : Registry) (s s' : RunState) : Prop :=
  Tells env registry s.trace.events s'.trace.events s s'

theorem Scheduled.widen (h : Scheduled env registry first last before event)
    (hfirst : first' <+: first) (hlast : last <+: last') :
    Scheduled env registry first' last' before event := by
  obtain ⟨x, ⟨hstart, result, ending, hrun, hends⟩, told⟩ := h
  exact ⟨x, ⟨hfirst.trans hstart, result, ending, hrun, hends.trans hlast⟩, told⟩

namespace Tells

theorem of_told (hexecutions : s.executions ≤ s'.executions)
    (hevents : s'.trace.events = s.trace.events ++ [event])
    (told : event.isRetry → Scheduled env registry first last s.trace.events event) :
    Tells env registry first last s s' where
  executions := hexecutions
  events := hevents ▸ List.prefix_append ..
  arranged before event' hretry hfrom hto := by
    rw [hevents] at hto
    have hlength : before.length = s.trace.events.length :=
      Nat.le_antisymm (by simpa using hto.length_le) hfrom.length_le
    obtain rfl := hfrom.eq_of_length hlength.symm
    obtain ⟨-, rfl⟩ : s.trace.events = s.trace.events ∧ event' = event := by
      simpa using hto.eq_of_length (by simp)
    exact told hretry

theorem of_same (hexecutions : s.executions ≤ s'.executions)
    (hevents : s'.trace.events = s.trace.events) : Tells env registry first last s s' where
  executions := hexecutions
  events := hevents ▸ List.prefix_rfl
  arranged before event' _ hfrom hto := by
    have hlength := (hto.trans (hevents ▸ hfrom)).length_le
    rw [List.length_append, List.length_singleton] at hlength
    exact absurd hlength (Nat.not_succ_le_self _)

theorem refl (s : RunState) : Tells env registry first last s s := of_same (Nat.le_refl _) rfl

theorem of_emit (quiet : event.isRetry = false) :
    Tells env registry first last s (s.emit event) :=
  of_told (Nat.le_refl _) rfl fun hretry => by simp [quiet] at hretry

theorem trans (h : Tells env registry first last s s') (h' : Tells env registry first last s' s'') :
    Tells env registry first last s s'' where
  executions := Nat.le_trans h.executions h'.executions
  events := h.events.trans h'.events
  arranged before event hretry hfrom hto := by
    -- The event was told either before the state in the middle or after it.
    rcases List.prefix_or_prefix_of_prefix hto h'.events with hto' | hfrom'
    · exact h.arranged before event hretry hfrom hto'
    rcases List.prefix_concat_iff.1 hfrom' with heq | hfrom'
    · exact h.arranged before event hretry hfrom (heq ▸ List.prefix_rfl)
    · exact h'.arranged before event hretry hfrom' hto

theorem widen (h : Tells env registry first last s s') (hfirst : first' <+: first)
    (hlast : last <+: last') : Tells env registry first' last' s s' where
  executions := h.executions
  events := h.events
  arranged before event hretry hfrom hto :=
    (h.arranged before event hretry hfrom hto).widen hfirst hlast

theorem scheduled (h : Tells env registry first last s s') (before : List Event) (event : Event)
    (hretry : event.isRetry) (hfrom : s.trace.events <+: before)
    (hto : before ++ [event] <+: s'.trace.events) :
    ∃ x : Scheduling env registry,
      x.Within first last ∧ x.state.trace.events = before ∧ x.event = event := by
  obtain ⟨x, within, hbefore, hevent, -⟩ := h.arranged before event hretry hfrom hto
  exact ⟨x, within, hbefore, hevent⟩

theorem followed (h : TellsOwn env registry s s') (h' : TellsOwn env registry s' s'') :
    TellsOwn env registry s s'' :=
  (h.widen List.prefix_rfl h'.events).trans (h'.widen h.events List.prefix_rfl)

end Tells

instance : Std.Refl (TellsOwn env registry) := ⟨fun s => Tells.refl s⟩

instance : Trans (TellsOwn env registry) (TellsOwn env registry) (TellsOwn env registry) :=
  ⟨Tells.followed⟩

def Terse (z z' : Session) : Prop :=
  z'.trace.events = z.trace.events ∨
    ∃ event : Event, event.isRetry = false ∧ z'.trace.events = z.trace.events ++ [event]

theorem Terse.of_untold {w : Workflow} {step : Step} {status : Option Nat} {z z' : Session}
    (h : Untold w step status z.trace.events z'.trace.events) : Terse z z' :=
  h.imp_right fun h => ⟨_, rfl, h⟩

theorem isRetry_verdict (w : Workflow) (step : Step) (success : Bool) (status : Option Nat) :
    (verdict w step success status).isRetry = false := by
  cases success <;> rfl

theorem terse_delegatedInputs (scene : Scene) (w : Workflow) (step : Step) :
    Keeps Terse (delegatedInputs scene w step) := fun z =>
  (quiet_delegatedInputs scene w step z).mono (fun _ _ h => .inl (congrArg _ h))
    fun _ _ h => .inl (congrArg _ h.2)

theorem terse_conclude (env : Environment) (registry : Registry) (w : Workflow) (step : Step)
    (status : Option Nat) : Keeps Terse (conclude env registry w step status) := fun z =>
  (conclude_leads env registry w step status z).mono
    (fun _ _ h => .inr ⟨_, isRetry_verdict .., congrArg _ h.2⟩) fun _ _ h => .of_untold h.2.2

theorem terse_execute (env : Environment) (registry : Registry) (w : Workflow) (step : Step) :
    Keeps Terse (execute env registry w step) := fun z =>
  (execute_leads env registry w step z).mono
    (fun _ _ h => .inr ⟨_, isRetry_verdict .., h.1⟩) fun _ _ ⟨_, ⟨_, h⟩, _⟩ => .of_untold h

theorem tells_onStep {α : Type} {workflowId stepId : String} {work : Stepping α}
    (h : Keeps Terse work) : Keeps (TellsOwn env registry) (onStep workflowId stepId inv work) := by
  intro s
  have told {session : Session} (h : Terse ⟨s.trace, inv.resolver, inv.context⟩ session) :
      TellsOwn env registry s (s.traced session.trace) := by
    rcases h with hsame | ⟨event, quiet, hevents⟩
    · exact .of_same (Nat.le_refl _) hsame
    · exact .of_told (Nat.le_refl _) hevents fun hretry => by simp [quiet] at hretry
  exact onStep_leads (fun _ _ hrun => told ((h _).of_ok hrun))
    fun _ _ hrun => told ((h _).of_error hrun)

theorem tells_orFail {α : Type} {workflowId : String} {stepId : Option String}
    {result : Except RunFault α} :
    Keeps (TellsOwn env registry) (orFail workflowId stepId result) := by
  cases result with
  | ok a => exact .of_pure a
  | error fault => exact .of_throw _

/-! Runs -/

/-- Work of any kind tells of those retries alone that invocations within it have scheduled. -/
structure Telling (env : Environment) (registry : Registry) (bound : Nat) : Prop where
  workflow (scene : Scene) (workflowId : String) (inputs : Json) : scene.In registry →
    Keeps (TellsOwn env registry) (runWorkflow env bound scene workflowId inputs)
  dependencies (scene : Scene) (dependent : String) (references : List String)
      (resolver : Resolver) : scene.In registry →
    Keeps (TellsOwn env registry) (runDependencies env bound scene dependent references resolver)
  dependency (target : Scene) (workflowId dependent : String) : target.In registry →
    Keeps (TellsOwn env registry) (runDependency env bound target workflowId dependent)
  steps (scene : Scene) (w : Workflow) (inv : Invocation) : Home registry scene w →
    inv.context.exchange = none →
    Keeps (TellsOwn env registry) (runSteps env bound scene w inv [] 0)
  step (scene : Scene) (w : Workflow) (step : Step) (inv : Invocation) : Home registry scene w →
    Keeps (TellsOwn env registry) (runStep env bound scene w step inv)

theorem telling_zero : Telling env registry 0 where
  workflow _ _ _ _ := .of_throw _
  dependencies _ _ _ _ _ := .of_throw _
  dependency _ _ _ _ := .of_throw _
  steps _ _ _ _ _ := .of_throw _
  step _ _ _ _ _ := .of_throw _

theorem tells_runWorkflow (ih : Telling env registry bound) (workflowId : String) (inputs : Json)
    (hscene : scene.In registry) :
    Keeps (TellsOwn env registry) (runWorkflow env (bound + 1) scene workflowId inputs) := by
  unfold runWorkflow
  dsimp only
  split
  · exact .of_throw _
  · rename_i w hw
    refine tells_orFail.bind fun inputs => ?_
    refine (ih.dependencies scene workflowId w.dependsOn _ hscene).bind fun resolver => ?_
    refine (ih.steps scene w _ (hscene.home hw) rfl).bind fun ⟨finish, inv⟩ => ?_
    generalize workflowOutputs _ _ _ _ _ _ = result
    cases result with
    | ok outputs => exact .of_pure outputs
    | error error => exact .of_throw _

theorem tells_runDependencies (ih : Telling env registry bound) (dependent : String)
    (references : List String) (resolver : Resolver) (hscene : scene.In registry) :
    Keeps (TellsOwn env registry)
      (runDependencies env (bound + 1) scene dependent references resolver) := by
  cases references with
  | nil =>
    unfold runDependencies
    exact .of_pure _
  | cons reference rest =>
    unfold runDependencies
    intro s
    refine orFail_bind_leads (fun _ _ => Tells.refl s) ?_
    rintro ⟨target, called⟩ hfound
    have target_in := (home_of_locate hscene hfound).scene_in
    refine ((ih.dependency target called.workflowId dependent target_in).bind fun outputs => ?_) s
    refine Keeps.bind (.of_modify fun s => ?_) fun _ => ih.dependencies scene dependent rest _ hscene
    exact .of_same (Nat.le_refl _) rfl

theorem tells_runDependency (ih : Telling env registry bound) {target : Scene}
    (workflowId dependent : String) (target_in : target.In registry) :
    Keeps (TellsOwn env registry) (runDependency env (bound + 1) target workflowId dependent) := by
  unfold runDependency
  intro s
  refine .bind_get ?_
  split
  · exact .of_pure (Tells.refl s)
  split
  · exact .of_throw (Tells.refl s)
  have enters : Keeps (TellsOwn env registry)
      (modify (·.enter ⟨target.key, workflowId⟩) : Running PUnit) :=
    .of_modify fun s => .of_same (Nat.le_refl _) rfl
  refine (enters.bind fun _ => (ih.workflow target workflowId _ target_in).bind fun outputs => ?_) s
  refine Keeps.bind (.of_modify fun s => ?_) fun _ => .of_pure outputs
  exact .of_same (Nat.le_refl _) rfl

theorem tells_runStep (ih : Telling env registry bound) (step : Step) (inv : Invocation)
    (home : Home registry scene w) :
    Keeps (TellsOwn env registry) (runStep env (bound + 1) scene w step inv) := by
  intro s
  refine runStep_leads (fun _ => Tells.refl s) (fun _ _ _ _ => Tells.refl s)
    (fun reference target called _ hfound => ?_) fun _ _ =>
      tells_onStep (terse_execute env scene.registry w step) s
  have target_in := (home_of_locate home.scene_in hfound).scene_in
  unfold delegate
  refine ((tells_onStep (terse_delegatedInputs scene w step)).bind fun ⟨inputs, inv'⟩ => ?_) s
  refine (ih.workflow target called.workflowId inputs target_in).bind fun outputs => ?_
  exact tells_onStep (terse_conclude env scene.registry w step none)

theorem Route.bound_le {start : Stage} (route : Route env scene w start legs a) :
    a.bound ≤ start.bound := by
  induction route with
  | start => exact Nat.le_refl _
  | turn _ turn ih => exact Nat.le_trans turn.bound_le ih

theorem tells_started (scene : Scene) (w : Workflow) (a : Stage) (step : Step) :
    TellsOwn env registry a.state (a.started scene w step) :=
  .of_told (Nat.le_succ _) rfl fun hretry => by cases hretry

section Invocation

variable (below : ∀ inner < bound, Telling env registry inner) (home : Home registry scene w)
include below home

theorem Executes.tells (executes : Executes env scene w a v inv s) (hbound : a.bound ≤ bound) :
    TellsOwn env registry a.state s ∧ a.state.executions < s.executions := by
  have hinner : a.bound - 1 < bound :=
    Nat.lt_of_lt_of_le (Nat.sub_one_lt executes.deeper) hbound
  obtain ⟨before, ran, rfl⟩ := executes.ran
  have works : TellsOwn env registry (a.started scene w v.step) before :=
    ((below _ hinner).step scene w v.step a.inv home _).of_ok ran
  have filed (record : StepRecord) : TellsOwn env registry before (before.file record) :=
    .of_same (Nat.le_refl _) rfl
  exact ⟨((tells_started ..).followed works).followed (filed _), works.executions⟩

theorem Turn.executions (turn : Turn env scene w a v b) (hbound : a.bound ≤ bound) :
    a.state.executions < b.state.executions := by
  cases turn with
  | next executes => exact (executes.tells below home hbound).2
  | gotoStep executes => exact (executes.tells below home hbound).2
  | retry executes _ _ slept =>
    obtain ⟨trace, -, rfl⟩ := (sleep_leads _).of_ok slept
    exact (executes.tells below home hbound).2

theorem Route.length_le (route : Route env scene w (.opening bound inv s) legs a) :
    legs.length ≤ a.state.executions := by
  induction route with
  | start => exact Nat.zero_le _
  | turn before turn ih =>
    rw [List.length_append, List.length_singleton]
    exact Nat.lt_of_le_of_lt ih (turn.executions below home before.bound_le)

variable {result : Except (Stop RunError) (Finish × Invocation)} {ending : RunState}
  (fresh : inv.context.exchange = none)
  (ran : (Stage.opening bound inv s).run env scene w = (result, ending))
include fresh ran

theorem Route.tells_retry {left : Invocation} {delay : Duration} {limit : Nat}
    (route : Route env scene w (.opening bound inv s) legs a)
    (executes : Executes env scene w a v left s')
    (haction : v.outcome.action = .retry delay limit) (allowed : a.made v.step.stepId < limit)
    (hexecutions : s'.executions = s''.executions)
    (hevents : s''.trace.events = s'.trace.events ++
      [.retryScheduled w.workflowId v.step.stepId (a.made v.step.stepId + 2) delay])
    (tells : a.state.trace.events <+: ending.trace.events →
      Tells env registry s.trace.events ending.trace.events s a.state)
    (ahead : s''.trace.events <+: ending.trace.events) :
    Tells env registry s.trace.events ending.trace.events s s'' := by
  have told : s'.trace.events <+: ending.trace.events :=
    (hevents ▸ List.prefix_append ..).trans ahead
  have own : TellsOwn env registry a.state s' := (executes.tells below home route.bound_le).1
  have behind := tells (own.events.trans told)
  let x : Scheduling env registry :=
    { bound, scene, w, inv, start := s, legs, stage := a, failed := v, left, state := s', delay,
      limit, home, route, executes, haction, allowed }
  have within : x.Within s.trace.events ending.trace.events :=
    ⟨List.prefix_rfl, result, ending, ran, List.prefix_rfl⟩
  exact (behind.trans (own.widen behind.events told)).trans
    (.of_told hexecutions.le hevents fun _ => ⟨x, within, rfl, rfl, fresh⟩)

theorem Route.tells (route : Route env scene w (.opening bound inv s) legs a)
    (ahead : a.state.trace.events <+: ending.trace.events) :
    Tells env registry s.trace.events ending.trace.events s a.state := by
  induction route with
  | start => exact .refl s
  | turn before turn ih =>
    -- What is told before a turn is known as soon as that comes to be told in the end.
    have onward {s' : RunState} (own : TellsOwn env registry _ s')
        (ahead : s'.trace.events <+: ending.trace.events) :
        Tells env registry s.trace.events ending.trace.events s s' :=
      have behind := ih (own.events.trans ahead)
      behind.trans (own.widen behind.events ahead)
    have hbound := before.bound_le
    cases turn with
    | next executes => exact onward (executes.tells below home hbound).1 ahead
    | gotoStep executes =>
      exact onward ((executes.tells below home hbound).1.followed (.of_emit rfl)) ahead
    | retry executes haction allowed slept =>
      obtain ⟨trace, hwait, rfl⟩ := (sleep_leads _).of_ok slept
      exact before.tells_retry below home fresh ran executes haction allowed rfl (wait_keeps hwait).1 ih
        ahead

/-- From its beginning to its end an invocation tells of those retries alone that it has scheduled
itself, or that were scheduled within its work. -/
theorem Closes.tells (route : Route env scene w (.opening bound inv s) legs a)
    (closes : Closes env scene w a result ending) : TellsOwn env registry s ending := by
  have finish (own : TellsOwn env registry a.state ending) : TellsOwn env registry s ending :=
    have behind := route.tells below home fresh ran own.events
    behind.trans (own.widen behind.events List.prefix_rfl)
  have hbound := route.bound_le
  have inner (deeper : a.bound ≠ 0) : Telling env registry (a.bound - 1) :=
    below _ (Nat.lt_of_lt_of_le (Nat.sub_one_lt deeper) hbound)
  -- A workflow that takes over goes on from where the execution has left off.
  have taken {v : Visit} {left : Invocation} {c : Call} {s' : RunState}
      (takesOver : TakesOver env scene w a v left s' c) :
      TellsOwn env registry a.state c.state ∧ Keeps (TellsOwn env registry)
        (runWorkflow env c.bound c.scene c.workflowId c.inputs) := by
    obtain ⟨reference, -, meant, emitted⟩ := takesOver.goes
    refine ⟨?_, ?_⟩
    · rw [emitted]
      exact (takesOver.executes.tells below home hbound).1.followed (.of_emit rfl)
    · rw [takesOver.bound]
      exact (inner takesOver.executes.deeper).workflow _ _ _ (meant.scene_in home.scene_in)
  cases closes with
  | completed => exact finish (.refl a.state)
  | overspent => exact finish (.of_same (Nat.le_succ _) rfl)
  | stopped starts stops =>
    have works := ((inner starts.deeper).step scene w _ a.inv home _).of_error stops
    exact finish ((tells_started ..).followed works)
  | ended executes => exact finish ((executes.tells below home hbound).1.followed (.of_emit rfl))
  | lost executes => exact finish ((executes.tells below home hbound).1.followed (.of_emit rfl))
  | strayed executes => exact finish ((executes.tells below home hbound).1.followed (.of_emit rfl))
  | handedOver takesOver called =>
    obtain ⟨left, runs⟩ := taken takesOver
    exact finish (left.followed ((runs _).of_ok called))
  | brokenOff takesOver called =>
    obtain ⟨left, runs⟩ := taken takesOver
    exact finish (left.followed ((runs _).of_error called))
  | exhausted gives =>
    obtain ⟨left, executes⟩ := gives.executes
    exact finish (executes.tells below home hbound).1
  | expired executes haction allowed slept =>
    obtain ⟨-, trace, hwait, rfl⟩ := (sleep_leads _).of_error slept
    exact route.tells_retry below home fresh ran executes haction allowed rfl (wait_keeps hwait).1
      (route.tells below home fresh ran) List.prefix_rfl
  | unfinished => exact finish (.refl a.state)

end Invocation

theorem tells_runSteps (below : ∀ inner < bound, Telling env registry inner) (inv : Invocation)
    (home : Home registry scene w) (fresh : inv.context.exchange = none) :
    Keeps (TellsOwn env registry) (runSteps env bound scene w inv [] 0) := by
  intro s
  have tells {result : Except (Stop RunError) (Finish × Invocation)} {ending : RunState}
      (ran : (Stage.opening bound inv s).run env scene w = (result, ending)) :
      TellsOwn env registry s ending := by
    have closed : Closed env scene w (.opening bound inv s) _ _ := Visited.start.closed
    rw [ran] at closed
    obtain ⟨history, a, visited, closes⟩ := closed
    obtain ⟨legs, route⟩ := visited.route
    exact closes.tells below home fresh ran route
  exact .intro (fun _ _ ran => tells ran) fun _ _ ran => tells ran

theorem telling (bound : Nat) : Telling env registry bound := by
  induction bound using Nat.strongRecOn with
  | ind bound below =>
    have steps (scene : Scene) (w : Workflow) (inv : Invocation) (home : Home registry scene w)
        (fresh : inv.context.exchange = none) :
        Keeps (TellsOwn env registry) (runSteps env bound scene w inv [] 0) :=
      tells_runSteps below inv home fresh
    cases bound with
    | zero => exact telling_zero
    | succ bound =>
      have ih : Telling env registry bound := below bound (Nat.lt_succ_self bound)
      exact
        { workflow := fun _ workflowId inputs => tells_runWorkflow ih workflowId inputs
          dependencies := fun _ dependent references resolver =>
            tells_runDependencies ih dependent references resolver
          dependency := fun _ workflowId dependent => tells_runDependency ih workflowId dependent
          steps
          step := fun _ _ step inv => tells_runStep ih step inv }

theorem tells_perform (workflowId : String) (inputs : Json) (trace : Trace) :
    TellsOwn (env.limitedFrom trace.clock) registry (.opening workflowId trace)
      (perform env bound registry workflowId inputs trace).2 := by
  have within : Telling (env.limitedFrom trace.clock) registry bound := telling bound
  have tells := within.workflow ⟨[], registry⟩ workflowId inputs rfl (.opening workflowId trace)
  rcases hrun : perform env bound registry workflowId inputs trace with ⟨stop | outputs, last⟩
  · exact tells.of_error hrun
  · exact tells.of_ok hrun

theorem tells_withSources (env : Environment) (registry : Registry) (workflowId : String)
    (inputs : Json) (trace : Trace) :
    ∃ last : RunState, last.trace = (withSources env registry workflowId inputs trace).2 ∧
      TellsOwn (env.limitedFrom trace.clock) registry { trace } last := by
  obtain ⟨hending, -⟩ := withSources_of_perform env registry workflowId inputs trace
  have opens : TellsOwn (env.limitedFrom trace.clock) registry { trace }
      (.opening workflowId trace) := .of_emit rfl
  refine ⟨_, hending.symm, (opens.followed (tells_perform ..)).followed (.of_emit rfl)⟩

theorem length_announcedSinceNext_le (stepId : String) (legs : List Leg) :
    (announcedSinceNext stepId legs).length ≤ legs.length :=
  Nat.le_trans (List.length_filterMap_le ..) (List.rtakeWhile_suffix _ _).length_le

namespace Scheduling

/-- What holds of a retry that an invocation announces. -/
structure Numbered (x : Scheduling env registry) : Prop where
  limited : ∃ action, Chooses env x.scene x.w x.stage x.failed x.left x.state action ∧
    action.kind = .retry ∧ x.attempt ≤ action.retryLimit.getD 1 + 1
  /-- With those announced since the step was last left for the next one, the numbers are 2, 3, … -/
  consecutive : announcedSinceNext x.stepId x.legs ++ [x.attempt] = List.range' 2 (x.attempt - 1)
  onward (b : Stage) : Turn env x.scene x.w x.stage x.failed b →
    x.w.steps[b.index]? = some x.failed.step ∧
    ∀ v inv s, Executes env x.scene x.w b v inv s → v.step = x.failed.step ∧
      s.records.getLast? = some (v.outcome.record x.w.workflowId x.stepId x.attempt)
  bounded : x.attempt ≤ env.config.maxSteps + 1

theorem attempt_le_budget (x : Scheduling env registry) : x.attempt ≤ env.config.maxSteps + 1 := by
  have below (inner : Nat) (_ : inner < x.bound) : Telling env registry inner := telling inner
  have within : x.stage.state.executions < env.config.maxSteps := x.executes.within
  have hmade : x.stage.made x.stepId ≤ x.stage.state.executions :=
    calc x.stage.made x.stepId
      _ = (announcedSinceNext x.stepId x.legs).length := by
        rw [x.route.numbers.numbered, List.length_range']
      _ ≤ x.legs.length := length_announcedSinceNext_le ..
      _ ≤ x.stage.state.executions := x.route.length_le below x.home
  exact Nat.succ_le_succ (Nat.succ_le_of_lt (Nat.lt_of_le_of_lt hmade within))

theorem numbered (x : Scheduling env registry) : x.Numbered where
  limited := x.attempt_le_limit
  consecutive := x.announced_concat
  onward b turn := by
    obtain ⟨listed, hmade⟩ := onward turn
    refine ⟨listed, fun v inv s executes => ?_⟩
    have hstep : v.step = x.failed.step := Option.some.inj (executes.listed.symm.trans listed)
    refine ⟨hstep, ?_⟩
    rw [executes.records, hstep, ← hmade]
    rfl
  bounded := x.attempt_le_budget

end Scheduling

/--
Each retry that a run announces was scheduled by an invocation within the run. Its number is no more
than one above the limit of the failure action that was chosen just before. Those that were announced
for the step since it was last left for the next one have the numbers 2, 3, … in turn, and the
invocation goes on with that very attempt, if at all.
-/
theorem retryScheduled_numbered (env : Environment) (registry : Registry) :
    (∀ x : Scheduling env registry, x.Numbered) ∧
    ∀ workflowId inputs trace before name stepId attempt delay,
      trace.events <+: before →
      before ++ [.retryScheduled name stepId attempt delay] <+:
        (withSources env registry workflowId inputs trace).2.events →
      ∃ x : Scheduling (env.limitedFrom trace.clock) registry,
        x.Within trace.events (withSources env registry workflowId inputs trace).2.events ∧
        x.state.trace.events = before ∧
        x.event = .retryScheduled name stepId attempt delay ∧ x.Numbered := by
  refine ⟨Scheduling.numbered, ?_⟩
  intro workflowId inputs trace before name stepId attempt delay hfrom hto
  obtain ⟨last, hlast, tells⟩ := tells_withSources env registry workflowId inputs trace
  rw [← hlast] at hto ⊢
  obtain ⟨x, within, hbefore, hevent⟩ := tells.scheduled before _ rfl hfrom hto
  exact ⟨x, within, hbefore, hevent, x.numbered⟩

def firstFailure : List Event :=
  [.runStarted "w", .stepStarted "w" "s", .stepFailed "w" "s" (some 503)]

def secondAttempt : Event := .retryScheduled "w" "s" 2 ⟨0⟩

theorem exists_announced :
    ∃ d loaded, (Document.parse false none returningTree).usable? = some d ∧
      givenLoaded d = some loaded ∧
      loaded.2.events ++ firstFailure ++ [secondAttempt] <+: (unsteadyRun loaded).2.trace.events := by
  have announced : (Document.parse false none returningTree).usable?.any (fun d =>
      (givenLoaded d).any fun loaded => decide (loaded.2.events ++ firstFailure ++ [secondAttempt] <+:
        (unsteadyRun loaded).2.trace.events)) = true := by
    decide +kernel
  obtain ⟨d, hd, announced⟩ := (Option.any_eq_true _ _).1 announced
  obtain ⟨loaded, hloaded, announced⟩ := (Option.any_eq_true _ _).1 announced
  exact ⟨d, loaded, hd, hloaded, of_decide_eq_true announced⟩

theorem retryScheduled_unsteady :
    ∃ d registry trace before,
      (Document.parse false none returningTree).usable? = some d ∧
        (givenLoader.load d).run {} = (.ok registry, trace) ∧
        before = trace.events ++ firstFailure ∧
        before ++ [secondAttempt] <+: (withSources unsteady registry "w" .null trace).2.events ∧
        ∃ x : Scheduling (unsteady.limitedFrom trace.clock) registry,
          x.Within trace.events (withSources unsteady registry "w" .null trace).2.events ∧
          x.state.trace.events = before ∧ x.event = secondAttempt ∧ x.Numbered := by
  obtain ⟨d, ⟨registry, trace⟩, hd, hloaded, announced⟩ := exists_announced
  obtain ⟨hending, -⟩ := withSources_of_perform unsteady registry "w" .null trace
  have told : trace.events ++ firstFailure ++ [secondAttempt] <+:
      (withSources unsteady registry "w" .null trace).2.events :=
    announced.trans (hending ▸ List.prefix_append ..)
  have scheduled := (retryScheduled_numbered unsteady registry).2 "w" .null trace _ "w" "s" 2 ⟨0⟩
    (List.prefix_append ..) told
  exact ⟨d, registry, trace, _, hd, load_of_givenLoaded hloaded, rfl, told, scheduled⟩

end Run
end Arazzo
