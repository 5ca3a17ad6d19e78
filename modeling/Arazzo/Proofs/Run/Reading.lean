import Arazzo.Proofs.Document.Legible
import Arazzo.Proofs.Run.Goto

/-! Texts that a run of valid documents cannot read: operands of conditions, and outputs that look
like pointers. -/

namespace Arazzo

inductive RunFault.Unreadable : RunFault → Prop where
  | value {e : ResolveError} (h : e.Malformed) : Unreadable (.resolve e)
  | criterion {e : ResolveError} (h : e.Malformed) : Unreadable (.criterion (.resolve e))
  | request {e : ResolveError} (h : e.Malformed) : Unreadable (.request (.resolve e))

namespace Run

/-- The text is an operand of a criterion that may be judged to conclude the step. -/
inductive OperandOf (components : Option Components) (w : Workflow) (step : Step) (raw : String) :
    Prop where
  | step {c : Criterion} (hc : c ∈ step.successCriteria) (hraw : raw ∈ c.operands)
  | success {entry : Entry SuccessAction} {a : SuccessAction} {c : Criterion}
    (hentry : entry ∈ ownOr step.onSuccess w.successActions)
    (hresolve : Component.resolveSuccessAction components entry = .ok a) (hc : c ∈ a.criteria)
    (hraw : raw ∈ c.operands)
  | failure {entry : Entry FailureAction} {a : FailureAction} {c : Criterion}
    (hentry : entry ∈ ownOr step.onFailure w.failureActions)
    (hresolve : Component.resolveFailureAction components entry = .ok a) (hc : c ∈ a.criteria)
    (hraw : raw ∈ c.operands)

/-- What a step may fail to read. -/
inductive Misread (components : Option Components) (w : Workflow) (step : Step) : RunFault → Prop
    where
  | output {name text : String} {e : ResolveError} (hmem : (name, text) ∈ step.outputs)
    (loose : LoosePointer text) (unread : Unread text e) : Misread components w step (.resolve e)
  | operand {raw : String} {reason : ExpressionError} (operandOf : OperandOf components w step raw)
    (h : Expression.parse (Text.trim raw) = .error reason) :
    Misread components w step (.criterion (.resolve (.syntaxError (Text.trim raw) reason)))

/-- The fault is not one of reading, or one that is to be expected of the step. -/
def Explained (components : Option Components) (w : Workflow) (step : Step) (fault : RunFault) :
    Prop :=
  fault.Unreadable → Misread components w step fault

variable {α : Type} {env : Environment} {registry : Registry} {components : Option Components}
  {d : Document} {w : Workflow} {step : Step}

abbrev Explains (components : Option Components) (w : Workflow) (step : Step) (work : Stepping α) :
    Prop :=
  StopsOnly (Stop.Fails (Explained components w step)) work

theorem explained_of_readable {fault : RunFault} (h : ¬ fault.Unreadable) :
    Explained components w step fault :=
  fun unreadable => absurd unreadable h

theorem readable_resolve {e : ResolveError} (h : ¬ e.Malformed) :
    ¬ (RunFault.resolve e).Unreadable := by
  rintro ⟨malformed⟩
  exact h malformed

theorem allHold_explained {cs : List Criterion} (hreads : ∀ c ∈ cs, c.ContextReads)
    (hoperands : ∀ c ∈ cs, ∀ raw ∈ c.operands, OperandOf components w step raw) (context : Context) :
    StopsOnly (fun e => Explained components w step (.criterion e))
      (Criterion.allHold context cs) := by
  refine StopsOnly.mono (Criterion.allHold_judging hreads) fun error misreads unreadable => ?_
  cases unreadable with
  | @criterion e malformed =>
    obtain ⟨raw, hraw, reason, rfl, hparse⟩ := misreads e rfl malformed
    obtain ⟨c, hc, hraw⟩ := List.mem_flatMap.1 hraw
    exact .operand (hoperands c hc raw hraw) hparse

theorem firstHolding_explained {resolve : Entry α → Except ReferenceError α}
    {criteria : α → List Criterion} (context : Context) {entries : List (Entry α)}
    (hreads : ∀ entry ∈ entries, ∀ a, resolve entry = .ok a → ∀ c ∈ criteria a,
      c.ContextReads ∧ ∀ raw ∈ c.operands, OperandOf components w step raw) :
    StopsOnly (Explained components w step) (firstHolding resolve criteria context entries) := by
  induction entries with
  | nil => exact .of_pure none
  | cons entry rest ih =>
    unfold firstHolding
    split
    · exact .of_throw (explained_of_readable (by rintro ⟨⟩))
    · rename_i a hresolve
      have hentry := hreads entry (List.mem_cons_self ..) a hresolve
      have hcriteria := allHold_explained (fun c hc => (hentry c hc).1)
        (fun c hc => (hentry c hc).2) context
      refine StopsOnly.bind (.of_adapt hcriteria) fun holds => ?_
      cases holds with
      | true => exact .of_pure _
      | false => exact ih fun other hother => hreads other (List.mem_cons_of_mem _ hother)

theorem publishOutputs_explained {stepId : String} {outputs : List (String × String)}
    (h : ∀ name text, (name, text) ∈ outputs →
      (name, text) ∈ step.outputs ∧ (Legible text ∨ LoosePointer text)) :
    Explains components w step (publishOutputs stepId outputs) := by
  induction outputs with
  | nil => exact .of_pure []
  | cons output rest ih =>
    obtain ⟨name, text⟩ := output
    obtain ⟨hmem, hlegible⟩ := h name text (List.mem_cons_self ..)
    have hrest := ih fun name text hrest => h name text (List.mem_cons_of_mem _ hrest)
    have hfirst : Explains components w step (Stepping.ofResolving RunFault.resolve fun context =>
        Resolver.resolveValue (some context) (.str text)) := by
      refine Stepping.stops_ofResolving fun context => ?_
      rcases hlegible with legible | loose
      · refine (Resolver.resolveText_reads legible (some context)).mono fun e he => ?_
        exact explained_of_readable (readable_resolve he)
      · refine (Resolver.resolveText_unread loose.not_whole (some context)).mono fun e he => ?_
        rintro ⟨malformed⟩
        exact .output hmem loose (he malformed)
    unfold publishOutputs
    exact hfirst.bind fun value => StopsOnly.bind (.of_modify _) fun _ =>
      hrest.bind fun values => .of_pure _

theorem conclude_explained (h : registry.document.Reads)
    (hw : w ∈ registry.document.workflows) (hstep : step ∈ w.steps) (status : Option Nat) :
    Explains registry.document.components w step (conclude env registry w step status) := by
  have reads := h.steps w hw step hstep
  have hcriteria : Explains registry.document.components w step
      (Stepping.ofResolving RunFault.criterion fun context =>
        Criterion.allHold context step.successCriteria) :=
    Stepping.stops_ofResolving fun context =>
      allHold_explained reads.criteria (fun c hc raw => .step hc) context
  have hsuccess : Explains registry.document.components w step
      (Stepping.ofResolving id (successAction registry.document.components w step)) := by
    refine Stepping.stops_ofResolving fun context => firstHolding_explained context ?_
    intro entry hentry a hresolve c hc
    obtain ⟨⟨found, given⟩, hfound, rfl⟩ := exists_of_map_ok hresolve
    exact ⟨h.successes _ (writes_of_resolve hw hstep hentry hfound) c hc,
      fun raw => .success hentry hresolve hc⟩
  have hfailure : Explains registry.document.components w step
      (Stepping.ofResolving id (failureAction registry.document.components w step)) := by
    refine Stepping.stops_ofResolving fun context => firstHolding_explained context ?_
    intro entry hentry a hresolve c hc
    obtain ⟨⟨found, given⟩, hfound, rfl⟩ := exists_of_map_ok hresolve
    exact ⟨h.failures _ (writes_of_resolve hw hstep hentry hfound) c hc,
      fun raw => .failure hentry hresolve hc⟩
  have hpublish : Explains registry.document.components w step (publishStep step) :=
    (publishOutputs_explained fun name text hmem => ⟨hmem, reads.outputs name text hmem⟩).bind
      fun _ => .of_modify _
  unfold conclude
  refine hcriteria.bind fun success => ?_
  cases success with
  | true =>
    exact hsuccess.bind fun action => hpublish.bind fun _ =>
      StopsOnly.bind (.of_modify _) fun _ => .of_pure _
  | false =>
    refine StopsOnly.bind (.of_modify _) fun _ => hfailure.bind fun action => ?_
    cases action with
    | none => exact .of_throw (explained_of_readable (by rintro ⟨⟩))
    | some action => exact .bind_get fun z => .of_pure _

theorem checked_of_effectiveParameters (h : d.Reads) (hw : w ∈ d.workflows) (hstep : step ∈ w.steps)
    {parameters : List Parameter}
    (hparameters : effectiveParameters d.components w step = .ok parameters) {p : Parameter}
    (hp : p ∈ parameters) : Template.checkValue p.value = .ok () := by
  obtain ⟨own, hown, hrest⟩ := exists_of_bind_ok hparameters
  obtain ⟨shared, hshared, hrest⟩ := exists_of_bind_ok hrest
  obtain rfl := Except.ok.inj hrest
  -- One argument for both lists of entries, the step's and the workflow's.
  have checked {entries : List (Entry Parameter)} (hentries : ∀ entry ∈ entries, entry.ValueReads)
      {ps : List Parameter} (hps : entries.mapM (Component.resolveParameter d.components) = .ok ps)
      (hp : p ∈ ps) : Template.checkValue p.value = .ok () := by
    obtain ⟨entry, hentry, hresolve⟩ := exists_of_mapM_ok hps hp
    exact Component.valueReads_of_resolve (hentries entry hentry)
      (fun c key entry => h.components c key entry) hresolve
  rcases List.mem_append.1 hp with hp | hp
  · exact checked (h.parameters w hw) hshared (List.mem_of_mem_filter hp)
  · exact checked (h.steps w hw step hstep).parameters hown hp

theorem readable_reference {error : ReferenceError} : ¬ (RunFault.reference error).Unreadable := by
  rintro ⟨⟩

theorem delegatedInputs_explained {scene : Scene} (h : scene.registry.document.Reads)
    (hw : w ∈ scene.registry.document.workflows) (hstep : step ∈ w.steps) :
    Explains components w step (delegatedInputs scene w step) := by
  unfold delegatedInputs
  refine Stepping.stops_ofExcept_bind (fun e _ => explained_of_readable readable_reference) ?_
  intro parameters hparameters
  refine StopsOnly.bind (StopsOnly.mapM fun p hp => ?_) fun values => .of_pure _
  have hchecked := checked_of_effectiveParameters h hw hstep hparameters hp
  refine StopsOnly.bind (Stepping.stops_ofResolving fun context => ?_) fun value => .of_pure _
  refine (Resolver.resolveValue_reads (some context) p.value hchecked).mono fun e he => ?_
  exact explained_of_readable (readable_resolve he)

abbrev Builds (work : Resolving RequestError α) : Prop :=
  StopsOnly (fun error => ∀ e, error = .resolve e → ¬ e.Malformed) work

theorem builds_resolve {v : Json} (h : Template.checkValue v = .ok ()) (context : Context) :
    Builds ((Resolver.resolveValue (some context) v).adapt RequestError.resolve) := by
  refine .of_adapt ((Resolver.resolveValue_reads (some context) v h).mono fun e he other hother => ?_)
  obtain rfl : e = other := RequestError.resolve.inj hother
  exact he

theorem builds_except {result : Except RequestError α}
    (h : ∀ e, result ≠ .error (.resolve e)) :
    Builds (liftM result : Resolving RequestError α) := by
  refine .of_except fun error herror e he => ?_
  subst he
  exact absurd herror (h e)

theorem resolveReplacements_builds {replacements : List Replacement}
    (h : ∀ r ∈ replacements, Template.checkValue r.value = .ok ()) (context : Context) :
    Builds (Request.resolveReplacements context replacements) := by
  induction replacements with
  | nil => exact .of_pure []
  | cons r rest ih =>
    unfold Request.resolveReplacements
    refine StopsOnly.bind (builds_resolve (h r (List.mem_cons_self ..)) context) fun value => ?_
    have hrest := ih fun other hother => h other (List.mem_cons_of_mem _ hother)
    exact hrest.bind fun values => .of_pure _

theorem replacedPayload_builds {body : RequestBody} (h : body.Reads) (context : Context) :
    Builds (Request.replacedPayload context body) := by
  have hreplacements := resolveReplacements_builds h.replacements context
  unfold Request.replacedPayload
  dsimp only
  split
  case' h_1 payload hpayload =>
    have hresolved := builds_resolve (h.payload payload hpayload) context
    refine StopsOnly.bind (hresolved.bind fun value => .of_pure (some value)) fun payload => ?_
  -- With the payload resolved, or none, what remains is the same.
  all_goals
    split
    · exact .of_pure _
    · refine hreplacements.bind fun replacements => ?_
      split
      · exact .of_pure _
      · exact .of_throw (by simp)

theorem mergeBody_ne_resolve {fields : Table Json} {payload : Option Json} (e : ResolveError) :
    Request.mergeBody fields payload ≠ .error (.resolve e) := by
  unfold Request.mergeBody
  split
  · simp
  · split <;> simp

theorem buildPayload_builds {body : Option RequestBody} (h : ∀ b, body = some b → b.Reads)
    (context : Context) (fields : Table Json) :
    Builds (Request.buildPayload context fields body) := by
  unfold Request.buildPayload
  cases body with
  | none => exact builds_except mergeBody_ne_resolve
  | some body =>
    exact (replacedPayload_builds (h body rfl) context).bind fun payload =>
      builds_except mergeBody_ne_resolve

theorem server_ne_resolve {config : Config} {place text : String} (e : ResolveError) :
    Request.server config place text ≠ .error (.resolve e) := by
  unfold Request.server
  split
  · simp
  · simp
  · split <;> simp

theorem buildUrl_ne_resolve {config : Config} {operation : Operation} {place : String}
    {path : Table String} {query : List (String × String)} (e : ResolveError) :
    Request.buildUrl config operation place path query ≠ .error (.resolve e) := by
  intro h
  unfold Request.buildUrl at h
  cases hserver : Request.server config place (operation.baseUrl.getD "/") with
  | error other =>
    rw [hserver] at h
    cases h
    exact server_ne_resolve e hserver
  | ok base =>
    rw [hserver] at h
    dsimp only [bind, Except.bind] at h
    split at h <;> cases h

theorem build_builds {config : Config} {operation : Operation} {place : String}
    {parameters : List Parameter} {body : Option RequestBody} (context : Context)
    (hparameters : ∀ p ∈ parameters, Template.checkValue p.value = .ok ())
    (hbody : ∀ b, body = some b → b.Reads) :
    Builds (Request.build config operation place parameters body context) := by
  have hparts : Builds (parameters.foldlM (Request.addParameter operation context) {}) := by
    refine StopsOnly.foldlM (fun parts p hp => ?_) _
    exact StopsOnly.bind (builds_resolve (hparameters p hp) context) fun value => .of_pure _
  unfold Request.build
  refine hparts.bind fun parts => ?_
  refine (builds_except buildUrl_ne_resolve).bind fun url => ?_
  exact (buildPayload_builds hbody context parts.body).bind fun payload => .of_pure _

theorem findOperation_readable {documents : List InterfaceDocument} {fault : RunFault}
    (h : findOperation documents step = .error fault) : ¬ fault.Unreadable := by
  have wrapped (found : Except LookupError Operation)
      (hfound : found.mapError .operation = .error fault) : ¬ fault.Unreadable := by
    cases found <;> cases hfound
    rintro ⟨⟩
  unfold findOperation at h
  split at h
  · exact wrapped _ h
  · exact wrapped _ h
  · cases h
    rintro ⟨⟩

theorem receive_explained (h : registry.document.Reads)
    (hw : w ∈ registry.document.workflows) (hstep : step ∈ w.steps) :
    Explains registry.document.components w step (receive env registry w step) := by
  have hprepare : Explains registry.document.components w step (prepare env registry w step) := by
    unfold prepare
    refine (Stepping.stops_ofExcept fun fault hfault => ?_).bind fun operation => ?_
    · exact explained_of_readable (findOperation_readable hfault)
    refine Stepping.stops_ofExcept_bind (fun e _ => explained_of_readable readable_reference) ?_
    intro parameters hparameters
    refine Stepping.stops_ofResolving fun context => ?_
    have hchecked (p : Parameter) (hp : p ∈ parameters) : Template.checkValue p.value = .ok () :=
      checked_of_effectiveParameters h hw hstep hparameters hp
    refine (build_builds context hchecked (h.steps w hw step hstep).body).mono fun error herror => ?_
    refine explained_of_readable fun unreadable => ?_
    cases unreadable with
    | request malformed => exact herror _ rfl malformed
  have hsend (request : HttpRequest) :
      Explains registry.document.components w step (Stepping.send env request) :=
    stops_send (fun e => explained_of_readable (by rintro ⟨⟩)) env request
  unfold receive
  refine hprepare.bind fun built => (hsend built.request).bind fun response => ?_
  exact StopsOnly.bind (.of_modify _) fun _ => .of_pure response

/-! Errors of runs -/

theorem misread_of_stepFails {scene : Scene} {a : Stage} {s : RunState} {fault : RunFault}
    (h : scene.registry.document.Reads) (hw : w ∈ scene.registry.document.workflows)
    (hstep : step ∈ w.steps) (fails : StepFails env scene w a step fault s)
    (unreadable : fault.Unreadable) : Misread scene.registry.document.components w step fault := by
  have explained : Explained scene.registry.document.components w step fault := by
    cases fails with
    | unasked ran => exact (delegatedInputs_explained h hw hstep _).of_error ran
    | unanswered _ _ ran => exact (receive_explained h hw hstep _).of_error ran
    | unconcluded _ ran => exact (conclude_explained h hw hstep _ _).of_error ran
  exact explained unreadable

theorem loose_of_workflowOutput {workflowId text : String} {context : Context} {finish : Finish}
    {r : Resolver} {e : ResolveError} (hlegible : Legible text ∨ LoosePointer text)
    (h : workflowOutput workflowId context finish text r = .error ⟨workflowId, none, .resolve e⟩)
    (malformed : e.Malformed) : LoosePointer text ∧ Unread text e := by
  unfold workflowOutput at h
  dsimp only at h
  split at h <;> cases h
  rename_i hrun
  rcases hlegible with legible | loose
  -- An expression by itself and any other text are read in two ways, of which neither fails.
  · have hreads : Reads (if isExpressionText (Text.trim text) then
        Resolver.resolve (Text.trim text) (some context)
        else some <$> Resolver.resolveValue (some context) (.str text)) := by
      split
      · exact Resolver.resolve_reads_whole legible ‹_› (some context)
      · exact (Resolver.resolveText_reads legible (some context)).bind fun value => .of_pure _
    exact absurd malformed ((hreads r).of_error hrun)
  · rw [loose.not_whole, if_neg Bool.false_ne_true] at hrun
    have unread : StopsOnly (fun e => e.Malformed → Unread text e)
        (some <$> Resolver.resolveValue (some context) (.str text)) :=
      (Resolver.resolveText_unread loose.not_whole (some context)).bind fun value => .of_pure _
    exact ⟨loose, (unread r).of_error hrun malformed⟩

theorem loose_of_workflowOutputs {workflowId : String} {context : Context} {finish : Finish}
    {expressions : List (String × String)} {outputs : Table Json} {r : Resolver} {e : ResolveError}
    (hlegible : ∀ name text, (name, text) ∈ expressions → Legible text ∨ LoosePointer text)
    (h : workflowOutputs workflowId context finish expressions outputs r =
      .error ⟨workflowId, none, .resolve e⟩) (malformed : e.Malformed) :
    ∃ name text, (name, text) ∈ expressions ∧ LoosePointer text ∧ Unread text e := by
  induction expressions generalizing outputs r with
  | nil => cases h
  | cons output rest ih =>
    obtain ⟨name, text⟩ := output
    have hfirst := hlegible name text (List.mem_cons_self ..)
    have hrest (name text : String) (hmem : (name, text) ∈ rest) :
        Legible text ∨ LoosePointer text := hlegible name text (List.mem_cons_of_mem _ hmem)
    have later (found : ∃ name text, (name, text) ∈ rest ∧ LoosePointer text ∧ Unread text e) :
        ∃ other text', (other, text') ∈ (name, text) :: rest ∧ LoosePointer text' ∧
          Unread text' e := by
      obtain ⟨other, text', hmem, unread⟩ := found
      exact ⟨other, text', List.mem_cons_of_mem _ hmem, unread⟩
    unfold workflowOutputs at h
    split at h
    · rename_i herror
      cases h
      exact ⟨name, text, List.mem_cons_self .., loose_of_workflowOutput hfirst herror malformed⟩
    · exact later (ih hrest h)
    · exact later (ih hrest h)

/-- Where the text comes from that the run which begins with `first` could not read in the end: a step
of a workflow that was run, or an output of one. -/
inductive Illegible (env : Environment) (first : Call) : RunError → RunState → Prop where
  | step {c : Call} {w : Workflow} {supplied : List Completion} {start a : Stage}
    {history : List Visit} {step : Step} {fault : RunFault} {s : RunState}
    (within : Within env first c) (opens : Opens env c w supplied start)
    (before : Visited env c.scene w start history a) (starts : Starts env w a step)
    (fails : StepFails env c.scene w a step fault s)
    (misread : Misread c.scene.registry.document.components w step fault) :
    Illegible env first ⟨w.workflowId, some step.stepId, fault⟩ s
  | output {c : Call} {w : Workflow} {supplied : List Completion} {start : Stage} {finish : Finish}
    {inv : Invocation} {s : RunState} {name text : String} {e : ResolveError}
    (within : Within env first c) (opens : Opens env c w supplied start)
    (closed : Closed env c.scene w start (.ok (finish, inv)) s) (hmem : (name, text) ∈ w.outputs)
    (loose : LoosePointer text) (unread : Unread text e) :
    Illegible env first ⟨c.workflowId, none, .resolve e⟩ s

theorem illegible_of_raises (h : registry.Usable) {first c : Call} {error : RunError} {s : RunState}
    (within : Within env first c) (hscene : c.scene.In registry) (raises : Raises env c error s)
    (unreadable : error.fault.Unreadable) : Illegible env first error s := by
  obtain ⟨permitReserved, path, tree, hparse⟩ := h _ _ hscene
  have reads : c.scene.registry.document.Reads := Document.reads_of_usable hparse
  cases raises with
  | notFound => cases unreadable
  | refused found unprepared =>
    obtain ⟨name, rfl⟩ | ⟨reason, rfl⟩ := prepareInputs_error unprepared <;> cases unreadable
  | unknown prepares split supplies missed =>
    rw [locate_error missed] at unreadable
    cases unreadable
  | cyclic => cases unreadable
  | outputs opens closed missed =>
    obtain ⟨e, rfl⟩ := workflowOutputs_error missed
    cases unreadable with
    | value malformed =>
      have hw := (Document.workflow?_some opens.found).1
      obtain ⟨name, text, hmem, loose, unread⟩ :=
        loose_of_workflowOutputs (reads.outputs _ hw) missed malformed
      exact .output within opens closed hmem loose unread
  | stage opens before fails =>
    cases fails with
    | step starts fails =>
      have hw := (Document.workflow?_some opens.found).1
      have hstep := List.mem_of_getElem? starts.listed
      have misread := misread_of_stepFails reads hw hstep fails unreadable
      exact .step within opens before starts fails misread
    | unknown starts names missed =>
      rw [locate_error missed] at unreadable
      cases unreadable
    | overspent => cases unreadable
    | aimless => cases unreadable
    | lost => cases unreadable
    | strayed => cases unreadable
    | exhausted => cases unreadable

/--
In a run of a document found valid, all that is resolved can be read, but for operands of conditions,
which are no expressions where they pretend to be, and outputs that start like pointers: those are
let pass unread, and are read as templates all the same.
-/
theorem usable_reads {permitReserved : Bool} {path : Option String} {tree : Json} {d : Document}
    (h : (Document.parse permitReserved path tree).usable? = some d) :
    ∀ env loader workflowId inputs trace error,
      (document env loader d workflowId inputs trace).1 = .error error →
      error.fault.Unreadable →
      ∃ registry trace', (loader.load d).run trace = (.ok registry, trace') ∧
        Illegible (env.limitedFrom trace'.clock)
          (.first (enough env.config registry) registry workflowId inputs trace') error
          (perform env (enough env.config registry) registry workflowId inputs trace').2 := by
  intro env loader workflowId inputs trace error hrun unreadable
  have usable : d.Usable := ⟨_, _, _, h⟩
  obtain ⟨reason, rfl⟩ | ⟨registry, trace', hload, hrun⟩ := document_error hrun
  · cases unreadable
  · have registry_usable := (Loader.load_gives hload).2 usable
    refine ⟨registry, trace', hload, ?_⟩
    rcases withSources_raises hrun with ⟨c, within, raises⟩ | rfl
    · exact illegible_of_raises registry_usable within (within.scene_in rfl) raises unreadable
    · cases unreadable

def looseTree : Json :=
  .obj [("arazzo", .str "1.0.1"), ("info", .obj [("title", .str "t"), ("version", .str "1")]),
    ("sourceDescriptions", .arr [.obj [("name", .str "api"), ("url", .str "api.json")]]),
    ("workflows", .arr [.obj
      [("steps", .arr [.obj
        [("operationId", .str "get"), ("outputs", .obj [("o", .str "#/x\x7b$")]),
          ("stepId", .str "s")]]),
        ("workflowId", .str "w")]])]

def unclosed : Except RunError Report → Bool
  | .error ⟨_, _, .resolve (.templateError text .unclosed)⟩ => text == "#/x\x7b$"
  | _ => false

theorem error_of_unclosed {result : Except RunError Report} (h : unclosed result = true) :
    ∃ error, result = .error error ∧
      error.fault = .resolve (.templateError "#/x\x7b$" .unclosed) := by
  unfold unclosed at h
  split at h
  · obtain rfl := beq_iff_eq.1 h
    exact ⟨_, rfl, rfl⟩
  · cases h

/-- The document is read without a finding, and its run cannot read the output of the step. -/
theorem loose_unclosed :
    (Document.parse false none looseTree).diagnostics = [] ∧
      ∃ d error, (Document.parse false none looseTree).usable? = some d ∧
        givenRun d = .error error ∧
        error.fault = .resolve (.templateError "#/x\x7b$" .unclosed) := by
  have hquiet : (Document.parse false none looseTree).diagnostics.isEmpty = true := by
    decide +kernel
  have hrun : (Document.parse false none looseTree).usable?.any (unclosed ∘ givenRun) = true := by
    decide +kernel
  obtain ⟨d, hd, hunclosed⟩ := (Option.any_eq_true _ _).1 hrun
  obtain ⟨error, herror, hfault⟩ := error_of_unclosed hunclosed
  exact ⟨List.isEmpty_iff.1 hquiet, d, error, hd, herror, hfault⟩

theorem usable_reads_loose :
    ∃ d error registry trace, (Document.parse false none looseTree).usable? = some d ∧
      givenRun d = .error error ∧ error.fault.Unreadable ∧
      (givenLoader.load d).run {} = (.ok registry, trace) ∧
      Illegible (Environment.limitedFrom trace.clock { client := promptClient })
        (.first (enough {} registry) registry "w" .null trace) error
        (perform { client := promptClient } (enough {} registry) registry "w" .null trace).2 := by
  have hrun : (Document.parse false none looseTree).usable?.any (unclosed ∘ givenRun) = true := by
    decide +kernel
  obtain ⟨d, hd, hunclosed⟩ := (Option.any_eq_true _ _).1 hrun
  obtain ⟨error, herror, hfault⟩ := error_of_unclosed hunclosed
  have unreadable : error.fault.Unreadable := by
    rw [hfault]
    exact .value trivial
  obtain ⟨registry, trace, hload, illegible⟩ := usable_reads hd _ _ _ _ _ error herror unreadable
  exact ⟨d, error, registry, trace, hd, herror, unreadable, hload, illegible⟩

end Run
end Arazzo
