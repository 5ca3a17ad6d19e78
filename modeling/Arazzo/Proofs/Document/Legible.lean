import Arazzo.Proofs.Condition.Operands
import Arazzo.Proofs.Validation

/-! What validation has read of a document's texts, and that parameters keep it when references to
them are followed. -/

namespace Arazzo

def Entry.ValueReads : Entry Parameter → Prop
  | .concrete p => Template.checkValue p.value = .ok ()
  | .reusable r => ∀ v, r.value = some v → Template.checkValue v = .ok ()

structure RequestBody.Reads (body : RequestBody) : Prop where
  payload : ∀ v, body.payload = some v → Template.checkValue v = .ok ()
  replacements : ∀ r ∈ body.replacements, Template.checkValue r.value = .ok ()

/-- A text that starts as a pointer but does not lead among the components, and is no template
either. -/
structure LoosePointer (text : String) : Prop where
  pointer : Text.startsWith ['#', '/'] (Text.trim text).toList = true
  illegible : ¬ Legible text

theorem LoosePointer.not_whole {text : String} (loose : LoosePointer text) :
    isExpressionText (Text.trim text) = false := by
  refine Bool.eq_false_iff.2 fun hwhole => ?_
  rcases Bool.or_eq_true_iff.1 hwhole with hdollar | hlead
  · have hpointer := loose.pointer
    obtain ⟨cs, htext⟩ := List.head?_eq_some_iff.1 (beq_iff_eq.1 hdollar)
    rw [htext] at hpointer
    cases hpointer
  · exact loose.illegible (.components hlead)

namespace Validation

variable {place : Place} {key : PlaceStep} {name text : String} {components : Option Components}

theorem not_harmless_invalid {reason : String} {key : Option PlaceStep} :
    ¬ Harmless (invalid place key reason) := by
  intro h
  exact absurd (h _ (List.mem_singleton_self _)) (by simp [Diagnostic.isError, Fault.isError])

theorem reads_of_expression (h : Harmless (expression place key text)) :
    ∃ e, Expression.parse text = .ok e := by
  unfold expression at h
  split at h
  · exact ⟨_, ‹_›⟩
  · exact absurd h not_harmless_invalid

theorem reads_of_template (h : Harmless (template place name text)) :
    ∃ segments, Template.parse text = .ok segments := by
  unfold template at h
  split at h
  · exact ⟨_, ‹_›⟩
  · exact absurd h not_harmless_invalid

theorem reads_of_value {v : Json} (h : Harmless (value place name v)) :
    Template.checkValue v = .ok () := by
  unfold value at h
  split at h
  · assumption
  · exact absurd h not_harmless_invalid

theorem reads_of_output (h : Harmless (output place name text)) :
    Legible text ∨ LoosePointer text := by
  refine Classical.or_iff_not_imp_left.2 fun illegible => ⟨?_, illegible⟩
  unfold output at h
  dsimp only at h
  split at h
  · rename_i hdollar
    obtain ⟨e, hparse⟩ := reads_of_expression h
    exact absurd (.expression (by simpa [startsWithDollar] using hdollar) hparse) illegible
  · rename_i hdollar
    split at h
    -- The rule asks nothing of a text that starts like a pointer.
    · assumption
    · obtain ⟨segments, hparse⟩ := reads_of_template h
      exact absurd (.template (by simpa [startsWithDollar] using hdollar) hparse) illegible

theorem reads_of_outputs {table : Table String} (h : Harmless (outputs place table))
    (hmem : (name, text) ∈ table) : Legible text ∨ LoosePointer text := by
  have hitems := harmless_flatMap.1 (harmless_append.1 h).2
  have hitem : Harmless (output place name text) := hitems (name, text) hmem
  exact reads_of_output hitem

theorem reads_of_criteria {items : List Criterion} {c : Criterion}
    (h : Harmless (criteria place items)) (hc : c ∈ items) : c.ContextReads := by
  intro text htext
  obtain ⟨i, earlier, hitem⟩ := harmless_of_mem h hc
  simp only [criterion, htext, Option.map_some, Option.getD_some, harmless_append] at hitem
  exact reads_of_expression hitem.1.2

theorem reads_of_actions {α : Type} {own : Place → α → Findings} {nameOf : α → String}
    {ownCriteria : α → List Criterion} {pool : Pool} {problem : Reusable → Option ReferenceError}
    {entries : List (Entry α)} {a : α} {c : Criterion}
    (h : Harmless (actions nameOf ownCriteria pool problem own place entries))
    (ha : .concrete a ∈ entries) (hc : c ∈ ownCriteria a) : c.ContextReads := by
  obtain ⟨i, earlier, hentry⟩ := harmless_of_mem h ha
  simp only [harmless_append] at hentry
  exact reads_of_criteria hentry.2 hc

theorem reads_of_parameters {ofWorkflowStep : Bool} {entries : List (Entry Parameter)}
    {entry : Entry Parameter} (h : Harmless (parameters components ofWorkflowStep place entries))
    (hentry : entry ∈ entries) : entry.ValueReads := by
  obtain ⟨i, earlier, hfound⟩ := harmless_of_mem h hentry
  cases entry with
  | concrete p =>
    simp only [harmless_append] at hfound
    exact reads_of_value hfound.1.1.2
  | reusable r =>
    intro v hv
    simp only [harmless_append, hv, Option.map_some, Option.getD_some] at hfound
    exact reads_of_value hfound.2

theorem reads_of_requestBody {body : RequestBody} (h : Harmless (requestBody place body)) :
    body.Reads := by
  obtain ⟨hpayload, hreplacements⟩ := harmless_append.1 h
  refine ⟨fun v hv => ?_, fun r hr => ?_⟩
  · rw [hv] at hpayload
    exact reads_of_value hpayload
  · obtain ⟨i, earlier, hentry⟩ := harmless_of_mem hreplacements hr
    exact reads_of_value (harmless_append.1 hentry).2

end Validation

/-- Every parameter of the step, and of its workflow, that is not behind a reference can be resolved,
and so on for all that a step resolves. -/
structure Step.Reads (step : Step) : Prop where
  parameters : ∀ entry ∈ step.parameters, entry.ValueReads
  body : ∀ body, step.requestBody = some body → body.Reads
  outputs : ∀ name text, (name, text) ∈ step.outputs → Legible text ∨ LoosePointer text
  criteria : ∀ c ∈ step.successCriteria, c.ContextReads

structure Document.Reads (d : Document) : Prop where
  steps : ∀ w ∈ d.workflows, ∀ step ∈ w.steps, step.Reads
  parameters : ∀ w ∈ d.workflows, ∀ entry ∈ w.parameters, entry.ValueReads
  outputs : ∀ w ∈ d.workflows, ∀ name text, (name, text) ∈ w.outputs →
    Legible text ∨ LoosePointer text
  components : ∀ c key entry, d.components = some c → (key, entry) ∈ c.parameters → entry.ValueReads
  successes : ∀ a, d.WritesSuccess a → ∀ c ∈ a.criteria, c.ContextReads
  failures : ∀ a, d.WritesFailure a → ∀ c ∈ a.criteria, c.ContextReads

namespace Document

open Validation

variable {d : Document}

theorem reads_of_usable {permitReserved : Bool} {path : Option String} {tree : Json}
    (h : (parse permitReserved path tree).usable? = some d) : d.Reads := by
  have workflow {w : Workflow} (hw : w ∈ d.workflows) := harmless_workflow_of_usable h hw
  have step {w : Workflow} (hw : w ∈ d.workflows) {s : Step} (hs : s ∈ w.steps) :
      ∃ place, Harmless (Validation.step d.components (w.steps.map (·.stepId)) place s) := by
    obtain ⟨place, hworkflow⟩ := workflow hw
    exact harmless_step_own hworkflow hs
  refine ⟨fun w hw s hs => ?_, fun w hw entry hentry => ?_, fun w hw name text hmem => ?_,
    fun c key entry hc hmem => ?_, fun a ha c hc => ?_, fun a ha c hc => ?_⟩
  · obtain ⟨place, hstep⟩ := step hw hs
    simp only [Validation.step, harmless_append] at hstep
    obtain ⟨⟨⟨⟨⟨⟨-, houtputs⟩, hparameters⟩, hbody⟩, hcriteria⟩, -⟩, -⟩ := hstep
    refine ⟨fun entry => reads_of_parameters hparameters, fun body hsome => ?_,
      fun name text => reads_of_outputs houtputs, fun c => reads_of_criteria hcriteria⟩
    rw [hsome] at hbody
    exact reads_of_requestBody hbody
  · obtain ⟨place, hworkflow⟩ := workflow hw
    simp only [Validation.workflow, harmless_append] at hworkflow
    exact reads_of_parameters hworkflow.1.1.1.2 hentry
  · obtain ⟨place, hworkflow⟩ := workflow hw
    simp only [Validation.workflow, harmless_append] at hworkflow
    exact reads_of_outputs hworkflow.1.1.1.1.2 hmem
  · have hpools := harmless_components_of_usable h hc
    simp only [Validation.components, harmless_append, harmless_flatMap] at hpools
    exact reads_of_parameters (hpools.1.1.1.1.2 _ hmem) (List.mem_singleton_self _)
  · cases ha with
    | step hw hs ha =>
      obtain ⟨place, hstep⟩ := step hw hs
      simp only [Validation.step, harmless_append] at hstep
      exact reads_of_actions hstep.1.2 ha hc
    | workflow hw ha =>
      obtain ⟨place, hworkflow⟩ := workflow hw
      simp only [Validation.workflow, harmless_append] at hworkflow
      exact reads_of_actions hworkflow.1.1.2 ha hc
    | component hcomponents ha =>
      have hpools := harmless_components_of_usable h hcomponents
      simp only [Validation.components, harmless_append, harmless_flatMap] at hpools
      exact reads_of_actions (hpools.1.1.2 _ ha) (List.mem_singleton_self _) hc
  · cases ha with
    | step hw hs ha =>
      obtain ⟨place, hstep⟩ := step hw hs
      simp only [Validation.step, harmless_append] at hstep
      exact reads_of_actions hstep.2 ha hc
    | workflow hw ha =>
      obtain ⟨place, hworkflow⟩ := workflow hw
      simp only [Validation.workflow, harmless_append] at hworkflow
      exact reads_of_actions hworkflow.1.2 ha hc
    | component hcomponents ha =>
      have hpools := harmless_components_of_usable h hcomponents
      simp only [Validation.components, harmless_append, harmless_flatMap] at hpools
      exact reads_of_actions (hpools.2 _ ha) (List.mem_singleton_self _) hc

end Document

namespace Component

variable {components : Option Components} {entry : Entry Parameter} {p : Parameter}

theorem value_of_followFrom {α : Type} {expected : Pool} {visited : List String}
    {unvisited : Table (Entry α)} {reference : String} {value : Option Json} {found : α} {v : Json}
    (h : followFrom expected visited unvisited reference value = .ok (found, some v)) :
    value = some v ∨ ∃ key r, (key, .reusable r) ∈ unvisited ∧ r.value = some v := by
  fun_induction followFrom expected visited unvisited reference value with
  | case1 => cases h
  | case2 => cases h
  | case3 => cases h
  | case4 => cases h
  | case5 visited unvisited reference value target hparse hpool hfresh a hget =>
    cases h
    exact .inl rfl
  | case6 visited unvisited reference value target hparse hpool hfresh next hget ih =>
    rcases ih h with hvalue | ⟨key, r, hkey, hr⟩
    · rcases Option.or_eq_some_iff.1 hvalue with hgiven | ⟨-, hnext⟩
      · exact .inl hgiven
      · exact .inr ⟨target.name, next, Table.mem_of_get? hget, hnext⟩
    · exact .inr ⟨key, r, (Table.erase_sublist _ _).mem hkey, hr⟩

/-- Whichever value a parameter ends up with, it was read before. -/
theorem valueReads_of_resolve (hentry : entry.ValueReads)
    (hpool : ∀ c key entry, components = some c → (key, entry) ∈ c.parameters → entry.ValueReads)
    (h : resolveParameter components entry = .ok p) : Template.checkValue p.value = .ok () := by
  cases hfound : resolve .parameters Components.parameters components entry with
  | error e =>
    rw [resolveParameter, hfound] at h
    cases h
  | ok result =>
    obtain ⟨found, given⟩ := result
    rw [resolveParameter, hfound] at h
    obtain rfl := Except.ok.inj h
    cases entry with
    | concrete own =>
      cases hfound
      exact hentry
    | reusable start =>
      cases components with
      | none => cases hfound
      | some c =>
        cases given with
        | none =>
          obtain ⟨key, hkey⟩ := mem_of_followFrom hfound
          exact hpool c key _ rfl hkey
        -- A value at a reference takes the place of the parameter's own.
        | some v =>
          rcases value_of_followFrom hfound with hstart | ⟨key, r, hkey, hr⟩
          · exact hentry v hstart
          · exact hpool c key _ rfl hkey v hr

end Component
end Arazzo
