import Arazzo.Proofs.Run.Validated

/-! Going to steps: where the name of the step comes from, and that only an action behind a reference
can name a step that is not there. -/

namespace Arazzo

def Entry.via {α : Type} : Entry α → Option Reusable
  | .concrete _ => none
  | .reusable r => some r

namespace Run

/-- An entry of a step, or of its workflow, leads to an action that goes somewhere; by itself or
through the reference `via`. -/
inductive Going (components : Option Components) (w : Workflow) (step : Step)
    (via : Option Reusable) (stepId workflowId : Option String) : Prop where
  | success {entry : Entry SuccessAction} {a : SuccessAction}
    (hentry : entry ∈ ownOr step.onSuccess w.successActions) (hvia : entry.via = via)
    (hresolve : Component.resolveSuccessAction components entry = .ok a) (hgoto : a.kind = .goto)
    (hstep : a.stepId = stepId) (hworkflow : a.workflowId = workflowId) :
    Going components w step via stepId workflowId
  | failure {entry : Entry FailureAction} {a : FailureAction}
    (hentry : entry ∈ ownOr step.onFailure w.failureActions) (hvia : entry.via = via)
    (hresolve : Component.resolveFailureAction components entry = .ok a) (hgoto : a.kind = .goto)
    (hstep : a.stepId = stepId) (hworkflow : a.workflowId = workflowId) :
    Going components w step via stepId workflowId

inductive Selects (components : Option Components) (w : Workflow) (step : Step) (z : Session) :
    Option Reusable → Option String → Option String → Prop where
  | success {z₁ : Session} {entry : Entry SuccessAction} {a : SuccessAction} {r : Resolver}
    (judged : (judge step).run z = (.ok true, z₁))
    (picks : Picks (Component.resolveSuccessAction components) SuccessAction.criteria z₁.context
      (ownOr step.onSuccess w.successActions) z₁.resolver entry a r) (hgoto : a.kind = .goto) :
    Selects components w step z entry.via a.stepId a.workflowId
  | failure {z₁ : Session} {entry : Entry FailureAction} {a : FailureAction} {r : Resolver}
    (judged : (judge step).run z = (.ok false, z₁))
    (picks : Picks (Component.resolveFailureAction components) FailureAction.criteria z₁.context
      (ownOr step.onFailure w.failureActions) z₁.resolver entry a r) (hgoto : a.kind = .goto) :
    Selects components w step z entry.via a.stepId a.workflowId

inductive Follows (env : Environment) (components : Option Components) (w : Workflow)
    (step : Step) (z : Session) : StepAction → Prop where
  | next : Follows env components w step z .next
  | success {z₁ : Session} {entry : Entry SuccessAction} {a : SuccessAction} {r : Resolver}
    (judged : (judge step).run z = (.ok true, z₁))
    (picks : Picks (Component.resolveSuccessAction components) SuccessAction.criteria z₁.context
      (ownOr step.onSuccess w.successActions) z₁.resolver entry a r) :
    Follows env components w step z (.ofSuccess (some a))
  | failure {z₁ : Session} {entry : Entry FailureAction} {a : FailureAction} {r : Resolver}
    (clock : Nat) (context : Context) (judged : (judge step).run z = (.ok false, z₁))
    (picks : Picks (Component.resolveFailureAction components) FailureAction.criteria z₁.context
      (ownOr step.onFailure w.failureActions) z₁.resolver entry a r) :
    Follows env components w step z (.ofFailure env clock context a)

variable {env : Environment} {registry : Registry} {components : Option Components}
  {w : Workflow} {step : Step} {target : String} {stepId workflowId : Option String} {z : Session}

theorem Selects.going {via : Option Reusable}
    (selects : Selects components w step z via stepId workflowId) :
    Going components w step via stepId workflowId := by
  cases selects with
  | success _ picks hgoto => exact .success picks.mem rfl picks.leads hgoto rfl rfl
  | failure _ picks hgoto => exact .failure picks.mem rfl picks.leads hgoto rfl rfl

theorem goto_eq_gotoStep (h : StepAction.goto stepId workflowId = .gotoStep target) :
    stepId = some target := by
  cases stepId <;> cases workflowId <;> cases h
  all_goals rfl

theorem goto_eq_gotoWorkflow (h : StepAction.goto stepId workflowId = .gotoWorkflow target) :
    stepId = none ∧ workflowId = some target := by
  cases stepId <;> cases workflowId <;> cases h
  exact ⟨rfl, rfl⟩

theorem goto_of_ofSuccess {a : SuccessAction} {action : StepAction}
    (h : StepAction.ofSuccess (some a) = action) (hne : action ≠ .finish) :
    a.kind = .goto ∧ StepAction.goto a.stepId a.workflowId = action := by
  cases hkind : a.kind with
  | finish =>
    simp only [StepAction.ofSuccess, hkind] at h
    exact absurd h.symm hne
  | goto =>
    simp only [StepAction.ofSuccess, hkind] at h
    exact ⟨rfl, h⟩

theorem goto_of_ofFailure {a : FailureAction} {clock : Nat} {context : Context}
    {action : StepAction} (h : StepAction.ofFailure env clock context a = action) (hne : action ≠ .finish)
    (hretry : ∀ delay limit, action ≠ .retry delay limit) :
    a.kind = .goto ∧ StepAction.goto a.stepId a.workflowId = action := by
  cases hkind : a.kind with
  | finish =>
    simp only [StepAction.ofFailure, hkind] at h
    exact absurd h.symm hne
  | goto =>
    simp only [StepAction.ofFailure, hkind] at h
    exact ⟨rfl, h⟩
  | retry =>
    simp only [StepAction.ofFailure, hkind] at h
    exact absurd h.symm (hretry _ _)

theorem Follows.gotoStep {action : StepAction} (h : Follows env components w step z action)
    (haction : action = .gotoStep target) :
    ∃ via workflowId, Selects components w step z via (some target) workflowId := by
  cases h with
  | next => cases haction
  | @success z₁ entry a r judged picks =>
    obtain ⟨hkind, hgoto⟩ := goto_of_ofSuccess haction (by simp)
    refine ⟨entry.via, a.workflowId, ?_⟩
    rw [← goto_eq_gotoStep hgoto]
    exact .success judged picks hkind
  | @failure z₁ entry a r clock context judged picks =>
    obtain ⟨hkind, hgoto⟩ := goto_of_ofFailure haction (by simp) (by simp)
    refine ⟨entry.via, a.workflowId, ?_⟩
    rw [← goto_eq_gotoStep hgoto]
    exact .failure judged picks hkind

theorem Follows.gotoWorkflow {action : StepAction} (h : Follows env components w step z action)
    (haction : action = .gotoWorkflow target) :
    ∃ via, Selects components w step z via none (some target) := by
  cases h with
  | next => cases haction
  | @success z₁ entry a r judged picks =>
    obtain ⟨hkind, hgoto⟩ := goto_of_ofSuccess haction (by simp)
    obtain ⟨hstep, hworkflow⟩ := goto_eq_gotoWorkflow hgoto
    refine ⟨entry.via, ?_⟩
    rw [← hstep, ← hworkflow]
    exact .success judged picks hkind
  | @failure z₁ entry a r clock context judged picks =>
    obtain ⟨hkind, hgoto⟩ := goto_of_ofFailure haction (by simp) (by simp)
    obtain ⟨hstep, hworkflow⟩ := goto_eq_gotoWorkflow hgoto
    refine ⟨entry.via, ?_⟩
    rw [← hstep, ← hworkflow]
    exact .failure judged picks hkind

/-! How a step concludes -/

theorem chosen_success (z : Session) :
    Leads (Stepping.ofResolving id (successAction components w step)) z
      (fun chosen _ => ∀ a, chosen = some a → ∃ entry r,
        Picks (Component.resolveSuccessAction components) SuccessAction.criteria z.context
          (ownOr step.onSuccess w.successActions) z.resolver entry a r)
      fun _ _ => True :=
  Stepping.ofResolving_leads ((firstHolding_picks z.context _ z.resolver).mono
    (fun _ r h a ha => (h a ha).imp fun _ picks => ⟨r, picks⟩) fun _ _ _ => trivial)

theorem chosen_failure (z : Session) :
    Leads (Stepping.ofResolving id (failureAction components w step)) z
      (fun chosen _ => ∀ a, chosen = some a → ∃ entry r,
        Picks (Component.resolveFailureAction components) FailureAction.criteria z.context
          (ownOr step.onFailure w.failureActions) z.resolver entry a r)
      fun _ _ => True :=
  Stepping.ofResolving_leads ((firstHolding_picks z.context _ z.resolver).mono
    (fun _ r h a ha => (h a ha).imp fun _ picks => ⟨r, picks⟩) fun _ _ _ => trivial)

theorem conclude_follows (status : Option Nat) (z : Session) :
    Leads (conclude env registry w step status) z
      (fun outcome _ => Follows env registry.document.components w step z outcome.action)
      fun _ _ => True := by
  unfold conclude
  refine (Leads.anything _ z).bind_run fun success z₁ judged _ => ?_
  cases success with
  | true =>
    refine (chosen_success z₁).bind fun chosen z₂ hchosen => ?_
    -- What is published then has no part in where the action comes from.
    refine (Leads.anything _ z₂).bind fun _ z₃ _ => ?_
    refine (Leads.anything _ z₃).bind fun _ z₄ _ => .of_pure ?_
    cases chosen with
    | none => exact .next
    | some a =>
      obtain ⟨entry, r, picks⟩ := hchosen a rfl
      exact .success judged picks
  | false =>
    refine .bind_modify ?_
    refine (chosen_failure _).bind fun chosen z₃ hchosen => ?_
    cases chosen with
    | none => exact .of_throw trivial
    | some a =>
      obtain ⟨entry, r, picks⟩ := hchosen a rfl
      exact .bind_get (.of_pure (.failure z₃.trace.clock z₃.context judged picks))

theorem Executes.follows {scene : Scene} {a : Stage} {v : Visit} {inv : Invocation} {s : RunState}
    (executes : Executes env scene w a v inv s) :
    ∃ status z s₀, Performs env scene w a v.step status z s₀ ∧
      Follows env scene.registry.document.components w v.step z v.outcome.action := by
  obtain ⟨status, z, s₀, performs, concluded, -⟩ := executes.concludes
  exact ⟨status, z, s₀, performs, (conclude_follows status z).of_ok concluded⟩

end Run

namespace Validation

variable {place : Place} {stepIds : List String} {components : Option Components} {id : String}

theorem mem_of_actionTargets {workflowId stepId : Option String}
    (h : Harmless (actionTargets place workflowId stepId (some stepIds))) (hstep : stepId = some id) :
    id ∈ stepIds := by
  subst hstep
  have hcontains := holds_of_harmless_require (harmless_append.1 h).2
  simpa using hcontains

theorem mem_of_successActions {entries : List (Entry SuccessAction)} {a : SuccessAction}
    (h : Harmless (successActions components (some stepIds) place entries))
    (ha : .concrete a ∈ entries) (hgoto : a.kind = .goto) (hstep : a.stepId = some id) :
    id ∈ stepIds := by
  obtain ⟨place, hown⟩ := harmless_own h ha
  rw [successAction, hgoto] at hown
  exact mem_of_actionTargets (harmless_append.1 hown).2 hstep

theorem mem_of_failureActions {entries : List (Entry FailureAction)} {a : FailureAction}
    (h : Harmless (failureActions components (some stepIds) place entries))
    (ha : .concrete a ∈ entries) (hgoto : a.kind = .goto) (hstep : a.stepId = some id) :
    id ∈ stepIds := by
  obtain ⟨place, hown⟩ := harmless_own h ha
  rw [failureAction, hgoto] at hown
  exact mem_of_actionTargets (harmless_append.1 (harmless_append.1 hown).2).2 hstep

end Validation

namespace Run

open Validation

variable {env : Environment} {registry : Registry} {d : Document} {w : Workflow} {step : Step}
  {target : String} {workflowId : Option String}

theorem eq_concrete_of_via {α : Type} {entry : Entry α} (h : entry.via = none) :
    ∃ a, entry = .concrete a := by
  cases entry with
  | concrete a => exact ⟨a, rfl⟩
  | reusable r => cases h

theorem stepIndex?_of_going (h : d.Usable) (hw : w ∈ d.workflows) (hstep : step ∈ w.steps)
    (going : Going d.components w step none (some target) workflowId) :
    ∃ index, w.stepIndex? target = some index := by
  obtain ⟨permitReserved, path, tree, hparse⟩ := h
  obtain ⟨place, hworkflow⟩ := Document.harmless_workflow_of_usable hparse hw
  obtain ⟨place', hown⟩ := Document.harmless_step_own hworkflow hstep
  simp only [Validation.workflow, harmless_append] at hworkflow
  obtain ⟨⟨⟨-, hsuccesses⟩, hfailures⟩, -⟩ := hworkflow
  simp only [Validation.step, harmless_append] at hown
  obtain ⟨⟨-, hsuccesses'⟩, hfailures'⟩ := hown
  -- Wherever the entry is written, it was checked with the ids of this workflow's steps.
  have named : target ∈ w.steps.map (·.stepId) := by
    cases going with
    | success hentry hvia hresolve hgoto htarget =>
      obtain ⟨a, rfl⟩ := eq_concrete_of_via hvia
      obtain rfl := Except.ok.inj hresolve
      unfold ownOr at hentry
      split at hentry
      · exact mem_of_successActions hsuccesses hentry hgoto htarget
      · exact mem_of_successActions hsuccesses' hentry hgoto htarget
    | failure hentry hvia hresolve hgoto htarget =>
      obtain ⟨a, rfl⟩ := eq_concrete_of_via hvia
      obtain rfl := Except.ok.inj hresolve
      unfold ownOr at hentry
      split at hentry
      · exact mem_of_failureActions hfailures hentry hgoto htarget
      · exact mem_of_failureActions hfailures' hentry hgoto htarget
  obtain ⟨other, hother, hid⟩ := List.mem_map.1 named
  refine Option.isSome_iff_exists.1 ?_
  rw [Workflow.stepIndex?, List.findIdx?_isSome]
  exact List.any_eq_true.2 ⟨other, hother, by simpa using hid⟩

/-- Within the run that begins with `first`, the last step that was executed went where there is
nothing: to a workflow that is not found, or through the reference that it chose to an action that names
no step of the workflow. -/
inductive Astray (env : Environment) (first : Call) (target : String) : RunError → RunState → Prop
    where
  | mk {c : Call} {w : Workflow} {supplied : List Completion} {start a : Stage}
    {history : List Visit} {v : Visit} {inv : Invocation} {s s₀ : RunState} {status : Option Nat}
    {z : Session} (within : Within env first c) (opens : Opens env c w supplied start)
    (before : Visited env c.scene w start history a)
    (executes : Executes env c.scene w a v inv s)
    (performs : Performs env c.scene w a v.step status z s₀)
    (missed : (∃ via,
        Selects c.scene.registry.document.components w v.step z via none (some target) ∧
          locate c.scene target = .error (.workflowNotFound target)) ∨
      ∃ r workflowId, Selects c.scene.registry.document.components w v.step z (some r)
        (some target) workflowId ∧ w.stepIndex? target = none) :
    Astray env first target ⟨w.workflowId, some v.step.stepId, .unknownGotoTarget target⟩
      (s.emit (.goto w.workflowId v.step.stepId target))

theorem astray_of_raises (h : registry.Usable) {first c : Call} {error : RunError} {s : RunState}
    (within : Within env first c) (hscene : c.scene.In registry) (raises : Raises env c error s)
    (hfault : error.fault = .unknownGotoTarget target) : Astray env first target error s := by
  cases raises with
  | notFound => cases hfault
  | refused found unprepared =>
    obtain ⟨name, rfl⟩ | ⟨reason, rfl⟩ := prepareInputs_error unprepared <;> cases hfault
  | unknown prepares split supplies missed =>
    rw [locate_error missed] at hfault
    cases hfault
  | cyclic => cases hfault
  | outputs opens closed missed =>
    obtain ⟨reason, rfl⟩ := workflowOutputs_error missed
    cases hfault
  | stage opens before fails =>
    cases fails with
    | lost executes haction missed =>
      cases hfault
      obtain ⟨status, z, s₀, performs, follows⟩ := executes.follows
      obtain ⟨via, workflowId, selects⟩ := follows.gotoStep haction
      cases via with
      -- Written out, the action goes to a step that there is.
      | none =>
        have home := opens.home hscene
        have hw := (Document.workflow?_some home.found).1
        have hstep := List.mem_of_getElem? executes.listed
        obtain ⟨index, hindex⟩ := stepIndex?_of_going (h _ _ hscene) hw hstep selects.going
        rw [hindex] at missed
        cases missed
      | some r => exact .mk within opens before executes performs (.inr ⟨r, workflowId, selects, missed⟩)
    | strayed executes haction missed =>
      cases hfault
      obtain ⟨status, z, s₀, performs, follows⟩ := executes.follows
      obtain ⟨via, selects⟩ := follows.gotoWorkflow haction
      rw [locate_error missed] at missed
      exact .mk within opens before executes performs (.inl ⟨via, selects, missed⟩)
    | unknown starts names missed =>
      dsimp only at hfault
      rw [locate_error missed] at hfault
      cases hfault
    | step starts fails =>
      dsimp only at hfault
      subst hfault
      exact fails.ofStep.elim
    | overspent => cases hfault
    | aimless => cases hfault
    | exhausted => cases hfault

theorem withSources_astray (h : registry.Usable) {workflowId : String} {inputs : Json}
    {trace : Trace} {error : RunError}
    (hrun : (withSources env registry workflowId inputs trace).1 = .error error)
    (hfault : error.fault = .unknownGotoTarget target) :
    Astray (env.limitedFrom trace.clock)
      (.first (enough env.config registry) registry workflowId inputs trace) target error
      (perform env (enough env.config registry) registry workflowId inputs trace).2 := by
  rcases withSources_raises hrun with ⟨c, within, raises⟩ | rfl
  · exact astray_of_raises h within (within.scene_in rfl) raises hfault
  · cases hfault

/--
In a document found valid every action that is written out goes to a step of its workflow. A run
that does not find what it goes to was sent there by the name of a workflow, or through a reference:
what an action in the components names is checked against no workflow.
-/
theorem usable_goto {permitReserved : Bool} {path : Option String} {tree : Json} {d : Document}
    (h : (Document.parse permitReserved path tree).usable? = some d) :
    (∀ w ∈ d.workflows, ∀ step ∈ w.steps, ∀ target workflowId,
      Going d.components w step none (some target) workflowId →
      ∃ index, w.stepIndex? target = some index) ∧
    ∀ env loader workflowId inputs trace error target,
      (document env loader d workflowId inputs trace).1 = .error error →
      error.fault = .unknownGotoTarget target →
      ∃ registry trace', (loader.load d).run trace = (.ok registry, trace') ∧
        Astray (env.limitedFrom trace'.clock)
          (.first (enough env.config registry) registry workflowId inputs trace') target error
          (perform env (enough env.config registry) registry workflowId inputs trace').2 := by
  have usable : d.Usable := ⟨_, _, _, h⟩
  refine ⟨fun w hw step hstep target workflowId => stepIndex?_of_going usable hw hstep, ?_⟩
  intro env loader workflowId inputs trace error target hrun hfault
  obtain ⟨reason, rfl⟩ | ⟨registry, trace', hload, hrun⟩ := document_error hrun
  · cases hfault
  · have registry_usable := (Loader.load_gives hload).2 usable
    exact ⟨registry, trace', hload, withSources_astray registry_usable hrun hfault⟩

def awayTree : Json :=
  .obj [("arazzo", .str "1.0.1"),
    ("components", .obj [("successActions", .obj [("away", .obj
      [("name", .str "away"), ("stepId", .str "nowhere"), ("type", .str "goto")])])]),
    ("info", .obj [("title", .str "t"), ("version", .str "1")]),
    ("sourceDescriptions", .arr [.obj [("name", .str "api"), ("url", .str "api.json")]]),
    ("workflows", .arr [.obj
      [("steps", .arr [.obj
        [("onSuccess", .arr [.obj [("reference", .str "$components.successActions.away")]]),
          ("operationId", .str "get"), ("stepId", .str "s")]]),
        ("workflowId", .str "w")]])]

def promptClient : HttpClient :=
  ⟨fun _ _ => { latency := ⟨0⟩, result := .ok { status := 200, headers := [], body := [] } }⟩

def givenLoader : Loader :=
  { client := promptClient
    files := Files.ofTable "/" []
    documents := [("api", .obj [("paths", .obj
      [("/p", .obj [("get", .obj [("operationId", .str "get")])])])])]
    timeout := ⟨0⟩
    maxBytes := 0 }

def givenLoaded (d : Document) : Option (Registry × Trace) :=
  match (givenLoader.load d).run {} with
  | (.ok registry, trace) => some (registry, trace)
  | (.error _, _) => none

theorem load_of_givenLoaded {d : Document} {loaded : Registry × Trace}
    (h : givenLoaded d = some loaded) :
    (givenLoader.load d).run {} = (.ok loaded.1, loaded.2) := by
  unfold givenLoaded at h
  split at h
  · rename_i hrun
    rw [hrun, ← Option.some.inj h]
  · cases h

def lost (target : String) : Except RunError Report → Bool
  | .error ⟨_, _, .unknownGotoTarget found⟩ => found == target
  | _ => false

theorem error_of_lost {result : Except RunError Report} (h : lost target result = true) :
    ∃ error, result = .error error ∧ error.fault = .unknownGotoTarget target := by
  unfold lost at h
  split at h
  · obtain rfl := beq_iff_eq.1 h
    exact ⟨_, rfl, rfl⟩
  · cases h

def givenRun (d : Document) : Except RunError Report :=
  (document { client := promptClient } givenLoader d "w" .null {}).1

def refersTo (target : String) (components : Option Components) (step : Step) : Bool :=
  step.onSuccess.any fun entry =>
    entry.via.isSome &&
      match Component.resolveSuccessAction components entry with
      | .ok a => a.kind == .goto && a.stepId == some target && a.workflowId.isNone
      | .error _ => false

theorem going_of_refersTo {components : Option Components}
    (h : refersTo target components step = true) :
    ∃ r, Going components w step (some r) (some target) none := by
  obtain ⟨entry, hentry, h⟩ := List.any_eq_true.1 h
  obtain ⟨hvia, h⟩ := Bool.and_eq_true_iff.1 h
  obtain ⟨r, hr⟩ := Option.isSome_iff_exists.1 hvia
  have hown : entry ∈ ownOr step.onSuccess w.successActions := by
    rw [ownOr, if_neg]
    · exact hentry
    · simpa using List.ne_nil_of_mem hentry
  split at h
  · rename_i a hresolve
    simp only [Bool.and_eq_true, beq_iff_eq, Option.isNone_iff_eq_none] at h
    obtain ⟨⟨hgoto, hstep⟩, hworkflow⟩ := h
    exact ⟨r, .success hown hr hresolve hgoto hstep hworkflow⟩
  · cases h

def refersAway (d : Document) (w : Workflow) : Bool :=
  (w.stepIndex? "nowhere").isNone && w.steps.any (refersTo "nowhere" d.components)

/-- The document is read without a finding, and its run does not find the step to go to. -/
theorem away_lost :
    (Document.parse false none awayTree).diagnostics = [] ∧
      ∃ d w step r error, (Document.parse false none awayTree).usable? = some d ∧
        w ∈ d.workflows ∧ step ∈ w.steps ∧
        Going d.components w step (some r) (some "nowhere") none ∧
        w.stepIndex? "nowhere" = none ∧
        givenRun d = .error error ∧ error.fault = .unknownGotoTarget "nowhere" := by
  have hquiet : (Document.parse false none awayTree).diagnostics.isEmpty = true := by
    decide +kernel
  have hlost : (Document.parse false none awayTree).usable?.any (fun d =>
      d.workflows.any (refersAway d) && lost "nowhere" (givenRun d)) = true := by
    decide +kernel
  obtain ⟨d, hd, hlost⟩ := (Option.any_eq_true _ _).1 hlost
  obtain ⟨haway, hlost⟩ := Bool.and_eq_true_iff.1 hlost
  obtain ⟨w, hw, haway⟩ := List.any_eq_true.1 haway
  obtain ⟨hnone, haway⟩ := Bool.and_eq_true_iff.1 haway
  obtain ⟨step, hstep, hrefers⟩ := List.any_eq_true.1 haway
  obtain ⟨r, going⟩ := going_of_refersTo hrefers
  obtain ⟨error, herror, hfault⟩ := error_of_lost hlost
  exact ⟨List.isEmpty_iff.1 hquiet, d, w, step, r, error, hd, hw, hstep, going,
    Option.isNone_iff_eq_none.1 hnone, herror, hfault⟩

theorem usable_goto_away :
    ∃ d error registry trace, (Document.parse false none awayTree).usable? = some d ∧
      givenRun d = .error error ∧ error.fault = .unknownGotoTarget "nowhere" ∧
      (givenLoader.load d).run {} = (.ok registry, trace) ∧
      Astray (Environment.limitedFrom trace.clock { client := promptClient })
        (.first (enough {} registry) registry "w" .null trace) "nowhere" error
        (perform { client := promptClient } (enough {} registry) registry "w" .null trace).2 := by
  have hlost : (Document.parse false none awayTree).usable?.any (lost "nowhere" ∘ givenRun) = true := by
    decide +kernel
  obtain ⟨d, hd, hlost⟩ := (Option.any_eq_true _ _).1 hlost
  obtain ⟨error, herror, hfault⟩ := error_of_lost hlost
  obtain ⟨registry, trace, hload, astray⟩ := (usable_goto hd).2 _ _ _ _ _ error _ herror hfault
  exact ⟨d, error, registry, trace, hd, herror, hfault, hload, astray⟩

end Run
end Arazzo
