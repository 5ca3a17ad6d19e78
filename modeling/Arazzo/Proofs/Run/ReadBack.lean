import Arazzo.Proofs.Run.Goto
import Arazzo.Proofs.Run.Outputs

/-! Reading outputs back in a valid document. An output whose name has no dot stays what it was
published as until the same output is published again. One whose name has a dot is looked for under
another name, so it is lost. -/

namespace Arazzo.Run

open Resolver Validation

/-- Each output with a name that documents may use, and without dots, stands for the last of its
values from here on. -/
def ReadBack (env : Environment) (scene : Scene) (w : Workflow) (inv : Invocation) (scope : Scope)
    (id : String) (outputs : Table Json) : Prop :=
  ∀ before name value after, outputs = before ++ (name, value) :: after → name ∉ Table.keys after →
    isKeyText name = true → '.' ∉ name.toList → Retained env scene w inv scope id name value

/-- An execution leaves outputs that are read back: its own, those of the workflow that it runs, and
those of a workflow that takes over. -/
structure HandsOver (env : Environment) (scene : Scene) (w : Workflow) (a : Stage) (v : Visit)
    (inv : Invocation) (s : RunState) : Prop where
  own : v.outcome.success = true → ∃ outputs,
    Table.get? v.step.stepId inv.context.stepOutputs = some outputs ∧
      Table.keys outputs = Table.keys v.step.outputs ∧
      ReadBack env scene w inv .steps v.step.stepId outputs
  called : ∀ reference, v.step.target? = some (.workflow reference) → ∃ c inv₁ outputs s₁,
    Delegates scene w a v.step c inv₁ ∧ c.run env = (.ok outputs, s₁) ∧
      ReadBack env scene w inv .workflows c.workflowId outputs
  takenOver : ∀ c outputs s₁, TakesOver env scene w a v inv s c → c.run env = (.ok outputs, s₁) →
    ReadBack env scene w (inv.receive c.workflowId outputs) .workflows c.workflowId outputs

variable {env : Environment} {registry : Registry} {scene : Scene} {w : Workflow} {scope : Scope}
  {id : String} {outputs : Table Json} {inv : Invocation} {s s' : RunState} {a start : Stage}
  {v : Visit} {c : Call} {supplied : List Completion}

theorem readBack_of_published (h : Published scope id outputs inv.resolver.published)
    (truthful : inv.resolver.Truthful) (hscope : scope.publishes = true)
    (hid : isIdText id = true) : ReadBack env scene w inv scope id outputs := by
  intro before name value after heq hlast hname hdot
  exact retained_of_published truthful hscope hid hname hdot (h before name value after heq hlast)

theorem keyed_of_usable (usable : registry.Usable) (hscene : scene.In registry) :
    scene.registry.document.Keyed := by
  obtain ⟨permitReserved, path, tree, hparse⟩ := usable _ _ hscene
  exact Document.keyed_of_harmless (Document.harmless_of_usable hparse)

theorem LeadsTo.isIdText {reference : String} {key : WorkflowKey} (usable : registry.Usable)
    (hscene : scene.In registry) (leads : LeadsTo scene reference key) :
    isIdText key.workflowId = true := by
  obtain ⟨target, called, found, rfl⟩ := leads
  have home := home_of_locate hscene found
  exact (keyed_of_usable usable home.scene_in).workflowIds called (Document.workflow?_some home.found).1

theorem Call.Meant.isIdText {reference : String} (usable : registry.Usable)
    (hscene : scene.In registry) (meant : c.Meant scene reference) :
    isIdText c.workflowId = true := by
  obtain ⟨called, found, named⟩ := meant
  exact named ▸ LeadsTo.isIdText usable hscene ⟨_, called, found, rfl⟩

theorem Executes.handsOver (usable : registry.Usable) (home : Home registry scene w)
    (executes : Executes env scene w a v inv s) (truthful : a.inv.resolver.Truthful) :
    HandsOver env scene w a v inv s := by
  have delivers := executes.delivers truthful
  have truthful' : inv.resolver.Truthful := (delivers.onward truthful).1
  refine ⟨fun hsuccess => ?_, fun reference names => ?_, fun c outputs s₁ takesOver ran => ?_⟩
  · obtain ⟨outputs, hrecord, hkeys, published⟩ := delivers.records hsuccess
    have hw := (Document.workflow?_some home.found).1
    have hid := (keyed_of_usable usable home.scene_in).stepIds w hw v.step
      (List.mem_of_getElem? executes.listed)
    exact ⟨outputs, hrecord, hkeys, readBack_of_published published truthful' rfl hid⟩
  · obtain ⟨c, inv₁, outputs, s₁, delegates, ran, published⟩ := delivers.called reference names
    obtain ⟨other, -, meant⟩ := delegates.names
    have hid := meant.isIdText usable home.scene_in
    exact ⟨c, inv₁, outputs, s₁, delegates, ran, readBack_of_published published truthful' rfl hid⟩
  · obtain ⟨other, -, meant, -⟩ := takesOver.goes
    have hid := meant.isIdText usable home.scene_in
    have published := published_publishWorkflow truthful' c.workflowId outputs
    have truthful'' := (onward_publishWorkflow c.workflowId outputs _ truthful').1
    exact readBack_of_published published truthful'' rfl hid

theorem Opens.readBack (usable : registry.Usable) (hscene : c.scene.In registry)
    (opens : Opens env c w supplied start) {earlier later : List Completion}
    {completion : Completion} (split : supplied = earlier ++ completion :: later)
    (hlast : ∀ other ∈ later, other.key.workflowId ≠ completion.key.workflowId) :
    ReadBack env c.scene w start.inv .workflows completion.key.workflowId completion.outputs := by
  obtain ⟨leads, hresolver⟩ := opens.publishes
  have ids (other : Completion) (hother : other ∈ supplied) :
      isIdText other.key.workflowId = true := by
    obtain ⟨reference, hleads⟩ := exists_leadsTo leads hother
    exact hleads.isIdText usable hscene
  subst split
  have hid := ids completion (List.mem_append_right _ (List.mem_cons_self ..))
  have later_ids (other : Completion) (hother : other ∈ later) :
      isIdText other.key.workflowId = true :=
    ids other (List.mem_append_right _ (List.mem_cons_of_mem _ hother))
  have published : Published .workflows completion.key.workflowId completion.outputs
      start.inv.resolver.published := by
    rw [hresolver]
    exact published_publishAll (truthful_nil _ _) hid later_ids hlast
  exact readBack_of_published published opens.truthful rfl hid

theorem Call.ended (h : c.run env = (.ok outputs, s')) :
    ∃ w supplied start finish inv, Opens env c w supplied start ∧
      Closed env c.scene w start (.ok (finish, inv)) s' ∧
      workflowOutputs c.workflowId inv.context finish w.outputs inv.context.outputs inv.resolver =
        .ok outputs := by
  have comes := c.comes env
  rw [h] at comes
  generalize hresult : (Except.ok outputs : Except (Stop RunError) (Table Json)) = result at comes
  cases comes with
  | @ended w supplied start finish inv s opens closed =>
    refine ⟨w, supplied, start, finish, inv, opens, closed, ?_⟩
    cases hown : workflowOutputs c.workflowId inv.context finish w.outputs inv.context.outputs
      inv.resolver with
    | error error =>
      rw [hown] at hresult
      cases hresult
    | ok own =>
      rw [hown] at hresult
      obtain rfl : outputs = own := Except.ok.inj hresult
      rfl
  | _ => cases hresult

/--
In the run of a valid document ids and output names can be spelled in expressions, and an output
whose name has no dot is read back from when it is published, in every context, until it is
published again: outputs of dependencies from where the steps begin, of which there is one for each
entry of the workflow. What the expression of any output stands for is the value under the part of
its name before the first dot, so that only publishing an output of that very name can change it.
-/
theorem outputs_read_back {permitReserved : Bool} {path : Option String} {tree : Json} {d : Document}
    (h : (Document.parse permitReserved path tree).usable? = some d) {loader : Loader}
    {trace trace' : Trace} (hload : (loader.load d).run trace = (.ok registry, trace'))
    (env : Environment) (hscene : c.scene.In registry) :
    c.scene.registry.document.Keyed ∧
    (∀ outputs s', c.run env = (.ok outputs, s') →
      ∃ w supplied start finish inv, Opens env c w supplied start ∧
        Closed env c.scene w start (.ok (finish, inv)) s' ∧
        workflowOutputs c.workflowId inv.context finish w.outputs inv.context.outputs
          inv.resolver = .ok outputs) ∧
    ∀ w supplied start, Opens env c w supplied start →
      List.Forall₂ (fun reference c' => LeadsTo c.scene reference c'.key) w.dependsOn supplied ∧
      (∀ earlier completion later, supplied = earlier ++ completion :: later →
        (∀ other ∈ later, other.key.workflowId ≠ completion.key.workflowId) →
        ReadBack env c.scene w start.inv .workflows completion.key.workflowId completion.outputs) ∧
      ∀ history a, Visited env c.scene w start history a →
        (∀ v inv s, Executes env c.scene w a v inv s → HandsOver env c.scene w a v inv s) ∧
        ∀ scope id name, scope.publishes = true → isIdText id = true → isKeyText name = true →
          a.inv.resolver.Answers scope id name (keyAnswer a.inv.resolver.published scope id name) ∧
          ∀ scope' id' name' value, isIdText id' = true →
            ¬ (scope' = scope ∧ id' = id ∧ (nameParts name).head? = some name') →
            (a.inv.resolver.publish (outputKey scope' id' name') value).Answers scope id name
              (keyAnswer a.inv.resolver.published scope id name) := by
  have usable : registry.Usable := (Loader.load_gives hload).2 ⟨permitReserved, path, tree, h⟩
  refine ⟨keyed_of_usable usable hscene, fun outputs s' => Call.ended, fun w supplied start opens => ?_⟩
  refine ⟨opens.publishes.1, fun earlier completion later split hlast => ?_,
    fun history a before => ?_⟩
  · exact opens.readBack usable hscene split hlast
  have home : Home registry c.scene w := opens.home hscene
  have truthful : a.inv.resolver.Truthful := (before.onward opens.truthful).1
  refine ⟨fun v inv s executes => executes.handsOver usable home truthful, ?_⟩
  intro scope id name hscope hid hname
  refine ⟨truthful.answers hscope hid hname, fun scope' id' name' value hid' hother => ?_⟩
  exact truthful.answers_publish hscope hid hname hid' hother value

def dottedTree : Json :=
  .obj [("arazzo", .str "1.0.1"),
    ("info", .obj [("title", .str "t"), ("version", .str "1")]),
    ("sourceDescriptions", .arr [.obj [("name", .str "api"), ("url", .str "api.json")]]),
    ("workflows", .arr [.obj
      [("outputs", .obj [("o", .str "$steps.s.outputs.a.b"), ("p", .str "$steps.s.outputs.c")]),
        ("steps", .arr [.obj
          [("operationId", .str "get"),
            ("outputs", .obj [("a.b", .str "$statusCode"), ("c", .str "$statusCode")]),
            ("stepId", .str "s")]]),
        ("workflowId", .str "w")]])]

def prompt : Environment := { client := promptClient }

def isOk : Json → Bool
  | .num (.int status) => status == 200
  | _ => false

theorem eq_of_isOk {value : Json} (h : isOk value = true) : value = .ofInt 200 := by
  unfold isOk at h
  split at h
  · rw [beq_iff_eq.1 h]
    rfl
  · cases h

def firstCall (loaded : Registry × Trace) : Call :=
  .first (enough {} loaded.1) loaded.1 "w" .null loaded.2

def opened (loaded : Registry × Trace) : Stage :=
  .opening (enough {} loaded.1 - 1)
    ⟨{ document := loaded.1.document }, { workflowId := "w", inputs := .null }⟩
    (.opening "w" loaded.2)

theorem opened_deeper (loaded : Registry × Trace) : (opened loaded).bound ≠ 0 := by
  show enough {} loaded.1 - 1 ≠ 0
  rw [enough]
  omega

def isPlain (w : Workflow) : Bool := w.inputs.isNone && w.dependsOn.isEmpty

theorem opens_of_isPlain {loaded : Registry × Trace}
    (found : loaded.1.document.workflow? "w" = some w) (h : isPlain w = true) :
    Opens prompt (firstCall loaded) w [] (opened loaded) := by
  obtain ⟨hinputs, hnone⟩ := Bool.and_eq_true_iff.1 h
  refine Opens.independent ⟨found, ?_⟩ (List.isEmpty_iff.1 hnone) ?_
  · rw [prepareInputs, Option.isNone_iff_eq_none.1 hinputs]
    rfl
  · exact opened_deeper loaded

def isBoth : Table Json → Bool
  | [(first, value), (second, value')] =>
    first == "a.b" && isOk value && second == "c" && isOk value'
  | _ => false

theorem eq_of_isBoth {outputs : Table Json} (h : isBoth outputs = true) :
    outputs = [("a.b", .ofInt 200), ("c", .ofInt 200)] := by
  unfold isBoth at h
  split at h
  · simp only [Bool.and_eq_true, beq_iff_eq] at h
    obtain ⟨⟨⟨rfl, hvalue⟩, rfl⟩, hvalue'⟩ := h
    rw [eq_of_isOk hvalue, eq_of_isOk hvalue']
  · cases h

def keepsBoth : Except (Stop RunError) (StepOutcome × Invocation) × RunState → Bool
  | (.ok (outcome, inv), _) =>
    outcome.success && (Table.get? "s" inv.context.stepOutputs).any isBoth &&
      (Table.get? (outputKey .steps "s" "a.b") inv.resolver.published).any isOk &&
      (Table.get? (outputKey .steps "s" "a") inv.resolver.published).isNone
  | _ => false

def isDotted (w : Workflow) (step : Step) : Bool :=
  isPlain w && step.stepId == "s" && Table.keys step.outputs == ["a.b", "c"] &&
    w.outputs == [("o", "$steps.s.outputs.a.b"), ("p", "$steps.s.outputs.c")]

def losesFirst : Except RunError Report → Bool
  | .ok ⟨_, [(first, .null), (second, value)], _⟩ => first == "o" && second == "p" && isOk value
  | _ => false

theorem eq_of_losesFirst {result : Except RunError Report} (h : losesFirst result = true) :
    ∃ report, result = .ok report ∧ report.outputs = [("o", .null), ("p", .ofInt 200)] := by
  unfold losesFirst at h
  split at h
  · simp only [Bool.and_eq_true, beq_iff_eq] at h
    obtain ⟨⟨rfl, rfl⟩, hvalue⟩ := h
    exact ⟨_, rfl, by rw [eq_of_isOk hvalue]⟩
  · cases h

structure Dotted (d : Document) (registry : Registry) (trace : Trace) (w : Workflow) (v : Visit)
    (inv : Invocation) (s : RunState) : Prop where
  parsed : (Document.parse false none dottedTree).usable? = some d
  loaded : (givenLoader.load d).run {} = (.ok registry, trace)
  opens : Opens prompt (firstCall (registry, trace)) w [] (opened (registry, trace))
  executes : Executes prompt ⟨[], registry⟩ w (opened (registry, trace)) v inv s
  success : v.outcome.success = true
  stepId : v.step.stepId = "s"
  names : Table.keys v.step.outputs = ["a.b", "c"]
  outputs : w.outputs = [("o", "$steps.s.outputs.a.b"), ("p", "$steps.s.outputs.c")]

theorem exists_dotted : ∃ d registry trace w v inv s, Dotted d registry trace w v inv s ∧
    Table.get? "s" inv.context.stepOutputs = some [("a.b", .ofInt 200), ("c", .ofInt 200)] ∧
    Table.get? (outputKey .steps "s" "a.b") inv.resolver.published = some (.ofInt 200) ∧
    Table.get? (outputKey .steps "s" "a") inv.resolver.published = none ∧
    ∃ report, (withSources prompt registry "w" .null trace).1 = .ok report ∧
      report.outputs = [("o", .null), ("p", .ofInt 200)] := by
  have hchecked : (Document.parse false none dottedTree).usable?.any (fun d =>
      (givenLoaded d).any fun loaded =>
        losesFirst (withSources prompt loaded.1 "w" .null loaded.2).1 &&
        (loaded.1.document.workflow? "w").any fun w => w.steps[0]?.any fun step =>
          isDotted w step &&
            keepsBoth ((opened loaded).work prompt ⟨[], loaded.1⟩ w step)) = true := by
    decide +kernel
  obtain ⟨d, hd, hchecked⟩ := (Option.any_eq_true _ _).1 hchecked
  obtain ⟨⟨registry, trace⟩, hloaded, hchecked⟩ := (Option.any_eq_true _ _).1 hchecked
  obtain ⟨hreport, hchecked⟩ := Bool.and_eq_true_iff.1 hchecked
  obtain ⟨w, hw, hchecked⟩ := (Option.any_eq_true _ _).1 hchecked
  obtain ⟨step, hstep, hchecked⟩ := (Option.any_eq_true _ _).1 hchecked
  simp only [isDotted, Bool.and_eq_true, beq_iff_eq] at hchecked
  obtain ⟨⟨⟨⟨hplain, hstepId⟩, hnames⟩, houtputs⟩, hboth⟩ := hchecked
  rcases hran : (opened (registry, trace)).work prompt ⟨[], registry⟩ w step with
    ⟨stop | ⟨outcome, inv⟩, before⟩
  · rw [hran] at hboth
    cases hboth
  rw [hran] at hboth
  simp only [keepsBoth, Bool.and_eq_true, Option.any_eq_true, Option.isNone_iff_eq_none] at hboth
  obtain ⟨⟨⟨hsuccess, outputs, hrecord, hrecorded⟩, value, hvalue, hok⟩, habsent⟩ := hboth
  rw [eq_of_isBoth hrecorded] at hrecord
  rw [eq_of_isOk hok] at hvalue
  have opens := opens_of_isPlain hw hplain
  have within : (opened (registry, trace)).state.executions < prompt.config.maxSteps := by
    show 0 < 1000
    decide
  have starts : Starts prompt w (opened (registry, trace)) step :=
    ⟨opened_deeper (registry, trace), hstep, within⟩
  refine ⟨d, registry, trace, w, ⟨step, outcome⟩, inv, _,
    ⟨hd, load_of_givenLoaded hloaded, opens, ⟨starts, before, hran, rfl⟩, hsuccess, hstepId, hnames,
      houtputs⟩, hrecord, hvalue, habsent, eq_of_losesFirst hreport⟩

/-- The step has published the output with a dot in its name, and the output's expression stands for
nothing: so does the workflow's output that it is for. -/
theorem dotted_lost :
    (Document.parse false none dottedTree).diagnostics = [] ∧
      ∃ d registry trace w v inv s, Dotted d registry trace w v inv s ∧
        Table.get? (outputKey .steps "s" "a.b") inv.resolver.published = some (.ofInt 200) ∧
        outputKey .steps "s" "a.b" = "$steps.s.outputs.a.b" ∧
        inv.resolver.Answers .steps "s" "a.b" (.ok none) ∧
        ∃ report, (withSources prompt registry "w" .null trace).1 = .ok report ∧
          report.outputs = [("o", .null), ("p", .ofInt 200)] := by
  have hquiet : (Document.parse false none dottedTree).diagnostics.isEmpty = true := by
    decide +kernel
  obtain ⟨d, registry, trace, w, v, inv, s, dotted, -, hvalue, habsent, hreport⟩ := exists_dotted
  refine ⟨List.isEmpty_iff.1 hquiet, d, registry, trace, w, v, inv, s, dotted, hvalue, by decide, ?_,
    hreport⟩
  have truthful : inv.resolver.Truthful :=
    ((dotted.executes.delivers dotted.opens.truthful).onward dotted.opens.truthful).1
  -- The value is looked for under the first part of the name, and nothing was published there.
  have hparts : nameParts "a.b" = ["a", "b"] := by decide
  have hanswer : keyAnswer inv.resolver.published .steps "s" "a.b" = .ok none := by
    rw [keyAnswer, hparts, readOutput, hparts]
    simp [habsent]
  rw [← hanswer]
  exact truthful.answers rfl (by decide) (by decide)

theorem outputs_read_back_plain :
    ∃ d registry trace w v inv s, Dotted d registry trace w v inv s ∧
      Table.get? "s" inv.context.stepOutputs = some [("a.b", .ofInt 200), ("c", .ofInt 200)] ∧
      Retained prompt ⟨[], registry⟩ w inv .steps "s" "c" (.ofInt 200) := by
  obtain ⟨d, registry, trace, w, v, inv, s, dotted, hrecord, -⟩ := exists_dotted
  refine ⟨d, registry, trace, w, v, inv, s, dotted, hrecord, ?_⟩
  have hscene : (firstCall (registry, trace)).scene.In registry := rfl
  have reads := outputs_read_back dotted.parsed dotted.loaded prompt hscene
  obtain ⟨-, -, visited⟩ := reads.2.2 w [] (opened (registry, trace)) dotted.opens
  obtain ⟨hands, -⟩ := visited [] (opened (registry, trace)) .start
  obtain ⟨outputs, hown, -, readBack⟩ := (hands v inv s dotted.executes).own dotted.success
  rw [dotted.stepId] at hown readBack
  obtain rfl : [("a.b", .ofInt 200), ("c", .ofInt 200)] = outputs :=
    Option.some.inj (hrecord.symm.trans hown)
  have hlast : "c" ∉ Table.keys ([] : Table Json) := List.not_mem_nil
  exact readBack [("a.b", .ofInt 200)] "c" (.ofInt 200) [] rfl hlast (by decide) (by decide)

end Arazzo.Run
