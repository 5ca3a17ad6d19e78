import Arazzo.Proofs.Run.Faults
import Arazzo.Proofs.Table
import Arazzo.Proofs.Validation
import Arazzo.Run

/-! Runs of documents that were found valid: every step has a target, and whatever is chosen to go
to names one place. -/

namespace Arazzo

def Document.Usable (d : Document) : Prop :=
  ∃ permitReserved path tree, (parse permitReserved path tree).usable? = some d

theorem Document.Usable.sound {d : Document} (h : d.Usable) : d.Sound := by
  obtain ⟨permitReserved, path, tree, hparse⟩ := h
  exact sound_of_usable hparse

/-- All documents of the registry were found valid. -/
def Registry.Usable (registry : Registry) : Prop :=
  ∀ path home, registry.at? path = some home → home.document.Usable

namespace Loader

variable {loader : Loader}

def Contents.Usable (contents : Contents) : Prop :=
  ∀ name registry, Table.get? name contents.nested = some registry → registry.Usable

theorem usable_of_nested {document : Document} {location : Option Location} {contents : Contents}
    (hdocument : document.Usable) (h : contents.Usable) :
    (Registry.mk document location contents.openapi contents.nested).Usable := by
  intro path home hpath
  cases path with
  | nil =>
    cases hpath
    exact hdocument
  | cons name rest =>
    obtain ⟨next, hnext, hrest⟩ := Option.bind_eq_some_iff.1 hpath
    exact h name next hnext rest home hrest

theorem usable_of_nestedDocument {name : String} {location : Location} {tree : Json}
    {document : Document} (h : loader.nestedDocument name location tree = .ok document) :
    document.Usable := by
  unfold nestedDocument at h
  dsimp only at h
  split at h
  · rename_i found hfound
    cases h
    exact ⟨_, _, _, hfound⟩
  · cases h

/-- Loading gives the document itself, with valid ones inside. -/
def Gives (document : Document) (registry : Registry) : Prop :=
  registry.document = document ∧ (document.Usable → registry.Usable)

theorem addSource_leads {base : Option Location} {visiting : List String}
    {load : Document → Location → List String → Loading Registry}
    (hload : ∀ document location visiting t,
      Leads (load document location visiting) t (fun registry _ => Gives document registry)
        fun _ _ => True)
    {contents : Contents} (hcontents : contents.Usable) (source : SourceDescription) (t : Trace) :
    Leads (loader.addSource base visiting load contents source) t
      (fun contents _ => contents.Usable) fun _ _ => True := by
  unfold addSource
  dsimp only
  refine (Leads.anything _ t).bind fun tree t₁ _ => ?_
  cases source.kind with
  | openapi => exact .of_pure hcontents
  | arazzo =>
    dsimp only
    cases hnested : loader.nestedDocument source.name (loader.place base source) tree with
    | error error => exact .of_throw trivial
    | ok document =>
      have usable := usable_of_nestedDocument hnested
      refine (hload document _ _ t₁).bind fun nested t₂ hgives => .of_pure fun name registry hget => ?_
      rw [Table.get?_insert] at hget
      split at hget
      · cases hget
        exact hgives.2 usable
      · exact hcontents name registry hget

theorem loadFrom_leads (depth : Nat) (document : Document) (location : Option Location)
    (visiting : List String) (t : Trace) :
    Leads (loader.loadFrom depth document location visiting) t
      (fun registry _ => Gives document registry) fun _ _ => True := by
  induction depth generalizing document location visiting t with
  | zero => exact .of_throw trivial
  | succ depth ih =>
    unfold loadFrom
    have empty : ({} : Contents).Usable := fun name registry hget => by cases hget
    refine (Leads.foldlM (fun contents source _ t hcontents => ?_) empty t).bind
      fun contents t' hcontents => .of_pure ⟨rfl, fun usable => usable_of_nested usable hcontents⟩
    exact addSource_leads (fun document location visiting t => ih document (some location) visiting t)
      hcontents source t

theorem load_gives {document : Document} {t t' : Trace} {registry : Registry}
    (h : (loader.load document).run t = (.ok registry, t')) : Gives document registry :=
  (loadFrom_leads ..).of_ok h

end Loader

namespace Run

variable {d : Document} {w : Workflow} {step : Step} {context : Context} {r r' : Resolver}

/-- What an entry of a step's list, or of its workflow's, leads to is written in the document. -/
theorem writes_of_resolve {α : Type} {own : Step → List (Entry α)} {shared : Workflow → List (Entry α)}
    {pool : Components → Table (Entry α)} {expected : Pool} {entry : Entry α} {a : α}
    {given : Option Json} (hw : w ∈ d.workflows) (hstep : step ∈ w.steps)
    (hentry : entry ∈ ownOr (own step) (shared w))
    (h : Component.resolve expected pool d.components entry = .ok (a, given)) :
    Document.Writes own shared pool d a := by
  rcases Component.resolve_origin h with rfl | ⟨c, key, hc, hpool⟩
  · unfold ownOr at hentry
    split at hentry
    · exact .workflow hw hentry
    · exact .step hw hstep hentry
  · exact .component hc hpool

theorem writes_of_successAction {a : SuccessAction} (hw : w ∈ d.workflows) (hstep : step ∈ w.steps)
    (h : (successAction d.components w step context).run r = (.ok (some a), r')) :
    d.WritesSuccess a := by
  obtain ⟨entry, picks⟩ := (firstHolding_picks context _ r).of_ok h a rfl
  obtain ⟨⟨found, given⟩, hfound, rfl⟩ := exists_of_map_ok picks.leads
  exact writes_of_resolve hw hstep picks.mem hfound

theorem writes_of_failureAction {a : FailureAction} (hw : w ∈ d.workflows) (hstep : step ∈ w.steps)
    (h : (failureAction d.components w step context).run r = (.ok (some a), r')) :
    d.WritesFailure a := by
  obtain ⟨entry, picks⟩ := (firstHolding_picks context _ r).of_ok h a rfl
  obtain ⟨⟨found, given⟩, hfound, rfl⟩ := exists_of_map_ok picks.leads
  exact writes_of_resolve hw hstep picks.mem hfound

theorem goto_ne_finish {stepId workflowId : Option String}
    (h : stepId.isSome ≠ workflowId.isSome) : StepAction.goto stepId workflowId ≠ .finish := by
  cases stepId <;> cases workflowId <;> simp [StepAction.goto] at h ⊢

/-- Whatever success action a step chooses to go somewhere names one place, and is gone to. -/
def AimsSuccesses (scene : Scene) (w : Workflow) (step : Step) : Prop :=
  ∀ context r r' action,
    (successAction scene.registry.document.components w step context).run r =
      (.ok (some action), r') →
    action.kind = .goto →
    action.stepId.isSome ≠ action.workflowId.isSome ∧ StepAction.ofSuccess (some action) ≠ .finish

def AimsFailures (env : Environment) (scene : Scene) (w : Workflow) (step : Step) : Prop :=
  ∀ clock context r r' action,
    (failureAction scene.registry.document.components w step context).run r =
      (.ok (some action), r') →
    action.kind = .goto →
    action.stepId.isSome ≠ action.workflowId.isSome ∧
      StepAction.ofFailure env clock context action ≠ .finish

end Run

namespace Document.Sound

open Run

variable {w : Workflow} {step : Step} {scene : Scene}

theorem aimsSuccesses (h : scene.registry.document.Sound)
    (hw : w ∈ scene.registry.document.workflows) (hstep : step ∈ w.steps) :
    AimsSuccesses scene w step := by
  intro context r r' action hchosen hgoto
  have hone := h.successes action (writes_of_successAction hw hstep hchosen) hgoto
  refine ⟨hone, ?_⟩
  simp only [StepAction.ofSuccess, hgoto]
  exact goto_ne_finish hone

theorem aimsFailures (env : Environment) (h : scene.registry.document.Sound)
    (hw : w ∈ scene.registry.document.workflows) (hstep : step ∈ w.steps) :
    AimsFailures env scene w step := by
  intro clock context r r' action hchosen hgoto
  have hone := h.failures action (writes_of_failureAction hw hstep hchosen) hgoto
  refine ⟨hone, ?_⟩
  simp only [StepAction.ofFailure, hgoto]
  exact goto_ne_finish hone

end Document.Sound

namespace Registry.Usable

open Run

variable {env : Environment} {registry : Registry} {scene : Scene} {w : Workflow}

theorem sound_of_home (h : registry.Usable) (home : Home registry scene w) :
    scene.registry.document.Sound ∧ w ∈ scene.registry.document.workflows :=
  ⟨(h scene.key scene.registry home.scene_in).sound, (Document.workflow?_some home.found).1⟩

theorem ne_noTarget (h : registry.Usable) {c : Call} (hscene : c.scene.In registry)
    {error : RunError} {s : RunState} (raises : Raises env c error s) : error.fault ≠ .noTarget := by
  cases raises with
  | notFound => simp
  | refused found unprepared =>
    obtain ⟨name, rfl⟩ | ⟨reason, rfl⟩ := prepareInputs_error unprepared <;> simp
  | unknown _ _ _ missed => simp [locate_error missed]
  | cyclic => simp
  | outputs opens closed missed =>
    obtain ⟨reason, rfl⟩ := workflowOutputs_error missed
    simp
  | stage opens before fails =>
    cases fails with
    | aimless starts none =>
      obtain ⟨sound, hw⟩ := h.sound_of_home (opens.home hscene)
      exact absurd none (sound.targets _ hw _ (List.mem_of_getElem? starts.listed))
    | unknown starts names missed => simp [locate_error missed]
    | step starts fails =>
      rintro rfl
      exact fails.ofStep
    | overspent => simp
    | lost => simp
    | strayed => simp
    | exhausted => simp

theorem withSources_ne_noTarget (h : registry.Usable) {workflowId : String} {inputs : Json}
    {trace : Trace} {error : RunError}
    (hrun : (withSources env registry workflowId inputs trace).1 = .error error) :
    error.fault ≠ .noTarget := by
  rcases withSources_raises hrun with ⟨c, within, raises⟩ | rfl
  · exact h.ne_noTarget (within.scene_in rfl) raises
  · simp

end Registry.Usable

namespace Run

theorem document_loaded (env : Environment) (loader : Loader) (d : Document) (workflowId : String)
    (inputs : Json) (trace : Trace) :
    (∃ reason trace', (loader.load d).run trace = (.error reason, trace') ∧
      document env loader d workflowId inputs trace =
        (.error ⟨workflowId, none, .sources reason⟩, trace')) ∨
    ∃ registry trace', (loader.load d).run trace = (.ok registry, trace') ∧
      document env loader d workflowId inputs trace =
        withSources env registry workflowId inputs trace' := by
  rcases hload : (loader.load d).run trace with ⟨reason | registry, trace'⟩
  · refine .inl ⟨reason, trace', rfl, ?_⟩
    simp only [document, bind, StateT.bind, hload]
    rfl
  · refine .inr ⟨registry, trace', rfl, ?_⟩
    simp only [document, bind, StateT.bind, hload]

theorem document_error {env : Environment} {loader : Loader} {d : Document} {workflowId : String}
    {inputs : Json} {trace : Trace} {error : RunError}
    (hrun : (document env loader d workflowId inputs trace).1 = .error error) :
    (∃ reason, error = ⟨workflowId, none, .sources reason⟩) ∨
      ∃ registry trace', (loader.load d).run trace = (.ok registry, trace') ∧
        (withSources env registry workflowId inputs trace').1 = .error error := by
  rcases document_loaded env loader d workflowId inputs trace with
    ⟨reason, trace', -, hloaded⟩ | ⟨registry, trace', hload, hloaded⟩
  · rw [hloaded] at hrun
    exact .inl ⟨reason, (Except.error.inj hrun).symm⟩
  · rw [hloaded] at hrun
    exact .inr ⟨registry, trace', hload, hrun⟩

theorem document_ne_noTarget {env : Environment} {loader : Loader} {d : Document}
    (h : d.Usable) {workflowId : String} {inputs : Json} {trace : Trace} {error : RunError}
    (hrun : (document env loader d workflowId inputs trace).1 = .error error) :
    error.fault ≠ .noTarget := by
  obtain ⟨reason, rfl⟩ | ⟨registry, trace', hload, hrun⟩ := document_error hrun
  · simp
  · exact ((Loader.load_gives hload).2 h).withSources_ne_noTarget hrun

/--
Of a document found valid, ids and names find what they belong to. Its sources load into valid
documents only; where all documents are valid, every action that is chosen to go somewhere names
one place, and no run misses the target of a step.
-/
theorem usable_document {permitReserved : Bool} {path : Option String} {tree : Json} {d : Document}
    (h : (Document.parse permitReserved path tree).usable? = some d) :
    (∀ (i : Nat) w, d.workflows[i]? = some w → d.workflow? w.workflowId = some w ∧
      d.workflows.findIdx? (·.workflowId == w.workflowId) = some i) ∧
    (∀ w ∈ d.workflows, ∀ i step, w.steps[i]? = some step → w.stepIndex? step.stepId = some i) ∧
    (∀ source ∈ d.sourceDescriptions, d.source? source.name = some source) ∧
    (∀ (loader : Loader) trace registry trace',
      (loader.load d).run trace = (.ok registry, trace') → registry.document = d ∧ registry.Usable) ∧
    (∀ registry : Registry, registry.Usable → ∀ scene w, Home registry scene w →
      ∀ step ∈ w.steps, AimsSuccesses scene w step ∧ ∀ env, AimsFailures env scene w step) ∧
    (∀ env (registry : Registry), registry.Usable → ∀ workflowId inputs trace error,
      (withSources env registry workflowId inputs trace).1 = .error error →
      error.fault ≠ .noTarget) ∧
    (∀ env loader workflowId inputs trace error,
      (document env loader d workflowId inputs trace).1 = .error error →
      error.fault ≠ .noTarget) := by
  have usable : d.Usable := ⟨_, _, _, h⟩
  refine ⟨fun i w hw => ?_, fun w hw i step hstep => usable.sound.stepIndex? hw hstep,
    fun source hsource => usable.sound.source? hsource, fun loader trace registry trace' hload => ?_,
    fun registry hregistry scene w home step hstep => ?_,
    fun env registry hregistry workflowId inputs trace error => hregistry.withSources_ne_noTarget,
    fun env loader workflowId inputs trace error => document_ne_noTarget usable⟩
  · exact ⟨usable.sound.workflow? (List.mem_of_getElem? hw),
      findIdx?_of_nodup usable.sound.workflowIds hw⟩
  · have gives := Loader.load_gives hload
    exact ⟨gives.1, gives.2 usable⟩
  · obtain ⟨sound, hw⟩ := hregistry.sound_of_home home
    exact ⟨sound.aimsSuccesses hw hstep, fun env => sound.aimsFailures env hw hstep⟩

def loopTree : Json :=
  .obj [("arazzo", .str "1.0.1"), ("info", .obj [("title", .str "t"), ("version", .str "1")]),
    ("sourceDescriptions", .arr [.obj [("name", .str "api"), ("url", .str "api.json")]]),
    ("workflows", .arr [.obj
      [("steps", .arr [.obj
        [("onSuccess", .arr [.obj
          [("name", .str "again"), ("stepId", .str "s"), ("type", .str "goto")]]),
          ("operationId", .str "get"), ("stepId", .str "s")]]),
        ("workflowId", .str "w")]])]

theorem usable_document_loop : ∃ d, (Document.parse false none loopTree).usable? = some d ∧
    (∀ source ∈ d.sourceDescriptions, d.source? source.name = some source) ∧
    ∀ env loader workflowId inputs trace error,
      (document env loader d workflowId inputs trace).1 = .error error → error.fault ≠ .noTarget := by
  have hread : (Document.parse false none loopTree).usable?.isSome = true := by decide
  obtain ⟨d, hd⟩ := Option.isSome_iff_exists.1 hread
  obtain ⟨-, -, hsources, -, -, -, hruns⟩ := usable_document hd
  exact ⟨d, hd, hsources, hruns⟩

end Run
end Arazzo
