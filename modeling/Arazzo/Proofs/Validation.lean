import Arazzo.Proofs.Table
import Arazzo.Validation.Document
import Mathlib.Data.List.Induction
import Mathlib.Data.List.Nodup

/-! What a document keeps to when validation finds no error in it. -/

namespace Arazzo
namespace Validation

/-- Findings that leave a document valid. -/
def Harmless (findings : Findings) : Prop := ∀ d ∈ findings, d.isError = false

variable {α β : Type} {xs ys : Findings} {place : Place} {holds : Bool}

theorem harmless_append : Harmless (xs ++ ys) ↔ Harmless xs ∧ Harmless ys := by
  simp only [Harmless, List.mem_append]
  exact ⟨fun h => ⟨fun d hd => h d (.inl hd), fun d hd => h d (.inr hd)⟩,
    fun h d hd => hd.elim (h.1 d) (h.2 d)⟩

theorem harmless_flatMap {items : List α} {rule : α → Findings} :
    Harmless (items.flatMap rule) ↔ ∀ a ∈ items, Harmless (rule a) := by
  simp only [Harmless, List.mem_flatMap]
  exact ⟨fun h a ha d hd => h d ⟨a, ha, hd⟩, fun h d ⟨a, ha, hd⟩ => h a ha d hd⟩

theorem holds_of_harmless_require {key : Option PlaceStep} {reason : String}
    (h : Harmless (require holds (invalid place key reason))) : holds = true := by
  cases holds with
  | true => rfl
  | false => exact absurd (h _ (List.mem_singleton_self _)) (by simp [Diagnostic.isError, Fault.isError])

theorem not_of_harmless_repeated {key : PlaceStep}
    (h : Harmless (if holds then repeated place key else [])) : holds = false := by
  cases holds with
  | false => rfl
  | true => exact absurd (h _ (List.mem_singleton_self _)) (by simp [Diagnostic.isError, Fault.isError])

theorem mem_eachItem_go {rule : Nat → α → List α → Findings} {before items : List α}
    {x : Diagnostic} : x ∈ eachItem.go rule before before.length items ↔
      ∃ i a, items[i]? = some a ∧ x ∈ rule (before.length + i) a (before ++ items.take i) := by
  induction items generalizing before with
  | nil => simp [eachItem.go]
  | cons b rest ih =>
    have hlength : before.length + 1 = (before ++ [b]).length := by simp
    rw [eachItem.go, List.mem_append, hlength, ih]
    constructor
    · rintro (hfirst | ⟨i, a, hget, hx⟩)
      · exact ⟨0, b, rfl, by simpa using hfirst⟩
      · refine ⟨i + 1, a, hget, ?_⟩
        have hposition : before.length + (i + 1) = (before ++ [b]).length + i := by
          rw [← hlength]
          omega
        rw [hposition, List.take_succ_cons]
        simpa using hx
    · rintro ⟨i, a, hget, hx⟩
      cases i with
      | zero =>
        obtain rfl : b = a := Option.some.inj hget
        exact .inl (by simpa using hx)
      | succ i =>
        refine .inr ⟨i, a, hget, ?_⟩
        have hposition : before.length + (i + 1) = (before ++ [b]).length + i := by
          rw [← hlength]
          omega
        rw [hposition, List.take_succ_cons] at hx
        simpa using hx

theorem mem_eachItem {rule : Nat → α → List α → Findings} {items : List α} {x : Diagnostic} :
    x ∈ eachItem rule items ↔ ∃ i a, items[i]? = some a ∧ x ∈ rule i a (items.take i) := by
  have hgo : x ∈ eachItem rule items ↔
      ∃ i a, items[i]? = some a ∧ x ∈ rule (0 + i) a ([] ++ items.take i) := mem_eachItem_go
  simpa only [Nat.zero_add, List.nil_append] using hgo

theorem harmless_eachItem {rule : Nat → α → List α → Findings} {items : List α}
    (h : Harmless (eachItem rule items)) {earlier later : List α} {a : α}
    (hitems : items = earlier ++ a :: later) : Harmless (rule earlier.length a earlier) := by
  intro x hx
  refine h x (mem_eachItem.2 ⟨earlier.length, a, ?_, ?_⟩)
  · rw [hitems, List.getElem?_append_right (Nat.le_refl _), Nat.sub_self]
    rfl
  · rw [hitems, List.take_left]
    exact hx

theorem harmless_of_mem {rule : Nat → α → List α → Findings} {items : List α} {a : α}
    (h : Harmless (eachItem rule items)) (ha : a ∈ items) :
    ∃ i earlier, Harmless (rule i a earlier) := by
  obtain ⟨earlier, later, hitems⟩ := List.append_of_mem ha
  exact ⟨_, _, harmless_eachItem h hitems⟩

theorem nodup_of_no_repeat {items : List α} {name : α → String}
    (h : ∀ earlier a later, items = earlier ++ a :: later →
      (earlier.any (name · == name a)) = false) : (items.map name).Nodup := by
  induction items using List.reverseRecOn with
  | nil => exact List.nodup_nil
  | append_singleton earlier a ih =>
    have hbefore := ih fun first b later hsplit =>
      h first b (later ++ [a]) (by rw [hsplit]; simp)
    have hlast := h earlier a [] rfl
    rw [List.map_append, List.nodup_append]
    refine ⟨hbefore, List.nodup_singleton _, ?_⟩
    rintro n hn m hm rfl
    obtain ⟨b, hb, rfl⟩ := List.mem_map.1 hn
    rw [List.map_singleton, List.mem_singleton] at hm
    simp only [List.any_eq_false, beq_iff_eq] at hlast
    exact hlast b hb hm

end Validation

section LookUp

variable {α : Type} {items : List α} {name : α → String} {i : Nat} {a : α}

theorem findIdx?_of_nodup (h : (items.map name).Nodup) (ha : items[i]? = some a) :
    items.findIdx? (name · == name a) = some i := by
  obtain ⟨hi, rfl⟩ := List.getElem?_eq_some_iff.1 ha
  refine List.findIdx?_eq_some_iff_getElem.2 ⟨hi, beq_self_eq_true _, fun j hj hsame => ?_⟩
  have hlength : (items.map name).length = items.length := List.length_map name
  have hj' : j < (items.map name).length := by omega
  have hi' : i < (items.map name).length := by omega
  have hnames : (items.map name)[j] = (items.map name)[i] := by simpa using hsame
  exact Nat.ne_of_lt hj ((List.Nodup.getElem_inj_iff h).1 hnames)

theorem find?_of_nodup (h : (items.map name).Nodup) (ha : a ∈ items) :
    items.find? (name · == name a) = some a := by
  induction items with
  | nil => exact absurd ha List.not_mem_nil
  | cons b rest ih =>
    rw [List.map_cons, List.nodup_cons] at h
    rcases List.mem_cons.1 ha with rfl | hrest
    · exact List.find?_cons_of_pos (beq_self_eq_true _)
    · have hne : name b ≠ name a := fun heq => h.1 (heq ▸ List.mem_map_of_mem hrest)
      rw [List.find?_cons_of_neg (by simpa using hne)]
      exact ih h.2 hrest

end LookUp

namespace Component

variable {α : Type} {expected : Pool} {found : α} {given : Option Json}

theorem mem_of_followFrom {visited : List String} {unvisited : Table (Entry α)}
    {reference : String} {value : Option Json}
    (h : followFrom expected visited unvisited reference value = .ok (found, given)) :
    ∃ key, (key, .concrete found) ∈ unvisited := by
  fun_induction followFrom expected visited unvisited reference value with
  | case1 => cases h
  | case2 => cases h
  | case3 => cases h
  | case4 => cases h
  | case5 visited unvisited reference value target hparse hpool hfresh a hget =>
    cases h
    exact ⟨target.name, Table.mem_of_get? hget⟩
  | case6 visited unvisited reference value target hparse hpool hfresh next hget ih =>
    obtain ⟨key, hkey⟩ := ih h
    exact ⟨key, (Table.erase_sublist _ _).mem hkey⟩

/-- However long the chain of references, what it leads to is written out in the pool. -/
theorem resolve_origin {pool : Components → Table (Entry α)} {components : Option Components}
    {entry : Entry α} (h : resolve expected pool components entry = .ok (found, given)) :
    entry = .concrete found ∨
      ∃ c key, components = some c ∧ (key, .concrete found) ∈ pool c := by
  cases entry with
  | concrete a =>
    cases h
    exact .inl rfl
  | reusable start =>
    cases components with
    | none => cases h
    | some c =>
      obtain ⟨key, hkey⟩ := mem_of_followFrom h
      exact .inr ⟨c, key, rfl, hkey⟩

end Component
namespace Validation

variable {α : Type} {place : Place} {stepIds : StepIds} {components : Option Components}

theorem harmless_own {name : α → String} {ownCriteria : α → List Criterion} {pool : Pool}
    {problem : Reusable → Option ReferenceError} {own : Place → α → Findings}
    {entries : List (Entry α)} {a : α}
    (h : Harmless (actions name ownCriteria pool problem own place entries))
    (ha : .concrete a ∈ entries) : ∃ place, Harmless (own place a) := by
  obtain ⟨i, earlier, hentry⟩ := harmless_of_mem h ha
  simp only [harmless_append] at hentry
  exact ⟨_, hentry.1.2⟩

theorem aimed_of_gotoTargets {workflowId stepId : Option String}
    (h : Harmless (gotoTargets place workflowId stepId stepIds)) :
    stepId.isSome ≠ workflowId.isSome := by
  have hone := holds_of_harmless_require (harmless_append.1 h).1
  simpa using Ne.symm (bne_iff_ne.1 hone)

theorem aimed_of_successActions {entries : List (Entry SuccessAction)} {a : SuccessAction}
    (h : Harmless (successActions components stepIds place entries)) (ha : .concrete a ∈ entries)
    (hgoto : a.kind = .goto) : a.stepId.isSome ≠ a.workflowId.isSome := by
  obtain ⟨place, hown⟩ := harmless_own h ha
  rw [successAction, hgoto] at hown
  exact aimed_of_gotoTargets hown

theorem aimed_of_failureActions {entries : List (Entry FailureAction)} {a : FailureAction}
    (h : Harmless (failureActions components stepIds place entries)) (ha : .concrete a ∈ entries)
    (hgoto : a.kind = .goto) : a.stepId.isSome ≠ a.workflowId.isSome := by
  obtain ⟨place, hown⟩ := harmless_own h ha
  rw [failureAction, hgoto] at hown
  exact aimed_of_gotoTargets (harmless_append.1 hown).2

end Validation

namespace Document

open Validation

inductive Writes {α : Type} (own : Step → List (Entry α)) (shared : Workflow → List (Entry α))
    (pool : Components → Table (Entry α)) (d : Document) (a : α) : Prop where
  | step {w : Workflow} {s : Step} (hw : w ∈ d.workflows) (hs : s ∈ w.steps)
    (ha : .concrete a ∈ own s) : Writes own shared pool d a
  | workflow {w : Workflow} (hw : w ∈ d.workflows) (ha : .concrete a ∈ shared w) :
    Writes own shared pool d a
  | component {c : Components} {key : String} (hc : d.components = some c)
    (ha : (key, .concrete a) ∈ pool c) : Writes own shared pool d a

abbrev WritesSuccess : Document → SuccessAction → Prop :=
  Writes Step.onSuccess Workflow.successActions Components.successActions

abbrev WritesFailure : Document → FailureAction → Prop :=
  Writes Step.onFailure Workflow.failureActions Components.failureActions

/-- What runs rely on: names tell things apart, each step has a target, and so has each action
that goes somewhere. -/
structure Sound (d : Document) : Prop where
  workflowIds : (d.workflows.map (·.workflowId)).Nodup
  sourceNames : (d.sourceDescriptions.map (·.name)).Nodup
  stepIds : ∀ w ∈ d.workflows, (w.steps.map (·.stepId)).Nodup
  targets : ∀ w ∈ d.workflows, ∀ s ∈ w.steps, s.target? ≠ none
  successes : ∀ a, d.WritesSuccess a → a.kind = .goto → a.stepId.isSome ≠ a.workflowId.isSome
  failures : ∀ a, d.WritesFailure a → a.kind = .goto → a.stepId.isSome ≠ a.workflowId.isSome

variable {d : Document} {w : Workflow} {s : Step} {ws : List Workflow}
  {components : Option Components} {place : Place}

theorem harmless_workflow (h : Harmless (Validation.workflows components ws)) (hw : w ∈ ws) :
    ∃ place, Harmless (Validation.workflow components place w) := by
  obtain ⟨i, earlier, hentry⟩ := harmless_of_mem h hw
  exact ⟨_, (harmless_append.1 hentry).2⟩

theorem nodup_workflowIds (h : Harmless (Validation.workflows components ws)) :
    (ws.map (·.workflowId)).Nodup := by
  refine nodup_of_no_repeat fun earlier w later hsplit => ?_
  have hentry := harmless_eachItem h hsplit
  simp only [harmless_append] at hentry
  exact not_of_harmless_repeated hentry.1.2

theorem nodup_sourceNames {sources : List SourceDescription}
    (h : Harmless (Validation.sourceDescriptions sources)) : (sources.map (·.name)).Nodup := by
  refine nodup_of_no_repeat fun earlier source later hsplit => ?_
  have hentry := harmless_eachItem h hsplit
  simp only [harmless_append] at hentry
  exact not_of_harmless_repeated hentry.1.2

theorem nodup_stepIds (h : Harmless (Validation.workflow components place w)) :
    (w.steps.map (·.stepId)).Nodup := by
  refine nodup_of_no_repeat fun earlier s later hsplit => ?_
  have hentry := harmless_eachItem (harmless_append.1 h).2 hsplit
  simp only [harmless_append] at hentry
  exact not_of_harmless_repeated hentry.1.2

theorem harmless_step_own (h : Harmless (Validation.workflow components place w))
    (hs : s ∈ w.steps) :
    ∃ place, Harmless (Validation.step components (w.steps.map (·.stepId)) place s) := by
  obtain ⟨i, earlier, hentry⟩ := harmless_of_mem (harmless_append.1 h).2 hs
  exact ⟨_, (harmless_append.1 hentry).2⟩

theorem harmless_step (h : Harmless (Validation.workflow components place w)) (hs : s ∈ w.steps) :
    ∃ stepIds place, Harmless (Validation.step components stepIds place s) :=
  ⟨_, harmless_step_own h hs⟩

theorem target_of_harmless {stepIds : List String}
    (h : Harmless (Validation.step components stepIds place s)) : s.target? ≠ none := by
  simp only [Validation.step, harmless_append] at h
  have hone : targetCount s = 1 := by simpa using holds_of_harmless_require h.1.1.1.1.1.1.1.1
  intro hnone
  unfold Step.target? at hnone
  split at hnone <;> cases hnone
  rename_i hid hpath hworkflow
  simp [targetCount, hid, hpath, hworkflow] at hone

theorem successes_of_harmless {a : SuccessAction} (hgoto : a.kind = .goto)
    (hworkflows : Harmless (Validation.workflows d.components d.workflows))
    (hcomponents : Harmless ((d.components.map Validation.components).getD []))
    (ha : d.WritesSuccess a) : a.stepId.isSome ≠ a.workflowId.isSome := by
  cases ha with
  | step hw hs ha =>
    obtain ⟨place, hw⟩ := harmless_workflow hworkflows hw
    obtain ⟨stepIds, place, hs⟩ := harmless_step hw hs
    simp only [Validation.step, harmless_append] at hs
    exact aimed_of_successActions hs.1.2 ha hgoto
  | workflow hw ha =>
    obtain ⟨place, hw⟩ := harmless_workflow hworkflows hw
    simp only [Validation.workflow, harmless_append] at hw
    exact aimed_of_successActions hw.1.1.2 ha hgoto
  | component hc ha =>
    simp only [hc, Option.map_some, Option.getD_some, Validation.components, harmless_append,
      harmless_flatMap] at hcomponents
    have hentry := hcomponents.1.1.2 _ ha
    exact aimed_of_successActions hentry (List.mem_singleton_self _) hgoto

theorem failures_of_harmless {a : FailureAction} (hgoto : a.kind = .goto)
    (hworkflows : Harmless (Validation.workflows d.components d.workflows))
    (hcomponents : Harmless ((d.components.map Validation.components).getD []))
    (ha : d.WritesFailure a) : a.stepId.isSome ≠ a.workflowId.isSome := by
  cases ha with
  | step hw hs ha =>
    obtain ⟨place, hw⟩ := harmless_workflow hworkflows hw
    obtain ⟨stepIds, place, hs⟩ := harmless_step hw hs
    simp only [Validation.step, harmless_append] at hs
    exact aimed_of_failureActions hs.2 ha hgoto
  | workflow hw ha =>
    obtain ⟨place, hw⟩ := harmless_workflow hworkflows hw
    simp only [Validation.workflow, harmless_append] at hw
    exact aimed_of_failureActions hw.1.2 ha hgoto
  | component hc ha =>
    simp only [hc, Option.map_some, Option.getD_some, Validation.components, harmless_append,
      harmless_flatMap] at hcomponents
    have hentry := hcomponents.2 _ ha
    exact aimed_of_failureActions hentry (List.mem_singleton_self _) hgoto

theorem sound_of_harmless (h : Harmless d.validate) : d.Sound := by
  simp only [validate, harmless_append] at h
  obtain ⟨⟨⟨⟨⟨⟨⟨-, -⟩, -⟩, hsources⟩, -⟩, hworkflows⟩, -⟩, hcomponents⟩ := h
  refine ⟨nodup_workflowIds hworkflows, nodup_sourceNames hsources, fun w hw => ?_,
    fun w hw s hs => ?_, fun a ha => ?_, fun a ha => ?_⟩
  · obtain ⟨place, hw⟩ := harmless_workflow hworkflows hw
    exact nodup_stepIds hw
  · obtain ⟨place, hw⟩ := harmless_workflow hworkflows hw
    obtain ⟨stepIds, place, hs⟩ := harmless_step hw hs
    exact target_of_harmless hs
  · exact fun hgoto => successes_of_harmless hgoto hworkflows hcomponents ha
  · exact fun hgoto => failures_of_harmless hgoto hworkflows hcomponents ha

theorem harmless_of_usable {permitReserved : Bool} {path : Option String} {tree : Json}
    (h : (parse permitReserved path tree).usable? = some d) : Harmless d.validate := by
  unfold ParseOutcome.usable? at h
  split at h
  · rename_i hvalid
    have hread : (read? permitReserved path tree).value = some d := h
    have hnone := (Bool.and_eq_true_iff.1 hvalid).2
    simp only [parse, hread, Diagnostics.areValid, Option.map_some, Option.getD_some,
      List.any_append, Bool.not_or, Bool.and_eq_true, Bool.not_eq_true', List.any_eq_false] at hnone
    intro finding hmem
    exact Bool.eq_false_iff.2 (hnone.2 finding hmem)
  · cases h

theorem harmless_workflow_of_usable {permitReserved : Bool} {path : Option String} {tree : Json}
    (h : (parse permitReserved path tree).usable? = some d) (hw : w ∈ d.workflows) :
    ∃ place, Harmless (Validation.workflow d.components place w) := by
  have hvalid := harmless_of_usable h
  simp only [validate, harmless_append] at hvalid
  obtain ⟨⟨⟨⟨⟨⟨⟨-, -⟩, -⟩, -⟩, -⟩, hworkflows⟩, -⟩, -⟩ := hvalid
  exact harmless_workflow hworkflows hw

theorem harmless_components_of_usable {permitReserved : Bool} {path : Option String} {tree : Json}
    (h : (parse permitReserved path tree).usable? = some d) {c : Components}
    (hc : d.components = some c) : Harmless (Validation.components c) := by
  have hvalid := harmless_of_usable h
  simp only [validate, harmless_append, hc, Option.map_some, Option.getD_some] at hvalid
  exact hvalid.2

theorem sound_of_usable {permitReserved : Bool} {path : Option String} {tree : Json}
    (h : (parse permitReserved path tree).usable? = some d) : d.Sound :=
  sound_of_harmless (harmless_of_usable h)

/-- Ids and the names of outputs are texts that an expression can spell. -/
structure Keyed (d : Document) : Prop where
  workflowIds : ∀ w ∈ d.workflows, isIdText w.workflowId = true
  stepIds : ∀ w ∈ d.workflows, ∀ s ∈ w.steps, isIdText s.stepId = true
  workflowOutputs : ∀ w ∈ d.workflows, ∀ name ∈ Table.keys w.outputs, isKeyText name = true
  stepOutputs : ∀ w ∈ d.workflows, ∀ s ∈ w.steps, ∀ name ∈ Table.keys s.outputs,
    isKeyText name = true

theorem isKeyText_of_outputs {table : Table String} (h : Harmless (outputs place table))
    {name : String} (hname : name ∈ Table.keys table) : isKeyText name = true := by
  have hkeys := harmless_flatMap.1 (harmless_append.1 h).1
  exact holds_of_harmless_require (hkeys name hname)

theorem keyed_of_harmless (h : Harmless d.validate) : d.Keyed := by
  simp only [validate, harmless_append] at h
  obtain ⟨⟨⟨-, hworkflows⟩, -⟩, -⟩ := h
  have entry {w : Workflow} (hw : w ∈ d.workflows) : isIdText w.workflowId = true ∧
      ∃ place, Harmless (Validation.workflow d.components place w) := by
    obtain ⟨i, earlier, hentry⟩ := harmless_of_mem hworkflows hw
    simp only [harmless_append] at hentry
    exact ⟨holds_of_harmless_require hentry.1.1, _, hentry.2⟩
  refine ⟨fun w hw => (entry hw).1, fun w hw s hs => ?_, fun w hw name hname => ?_,
    fun w hw s hs name hname => ?_⟩ <;> obtain ⟨-, place, hown⟩ := entry hw
  · obtain ⟨i, earlier, hstep⟩ := harmless_of_mem (harmless_append.1 hown).2 hs
    simp only [harmless_append] at hstep
    exact holds_of_harmless_require hstep.1.1
  · simp only [Validation.workflow, harmless_append] at hown
    exact isKeyText_of_outputs hown.1.1.1.1.2 hname
  · obtain ⟨place, hstep⟩ := harmless_step_own hown hs
    simp only [Validation.step, harmless_append] at hstep
    exact isKeyText_of_outputs hstep.1.1.1.1.1.2 hname

namespace Sound

theorem workflow? (h : d.Sound) (hw : w ∈ d.workflows) : d.workflow? w.workflowId = some w :=
  find?_of_nodup h.workflowIds hw

theorem source? (h : d.Sound) {source : SourceDescription} (hsource : source ∈ d.sourceDescriptions) :
    d.source? source.name = some source :=
  find?_of_nodup h.sourceNames hsource

theorem stepIndex? (h : d.Sound) (hw : w ∈ d.workflows) {i : Nat} (hs : w.steps[i]? = some s) :
    w.stepIndex? s.stepId = some i :=
  findIdx?_of_nodup (h.stepIds w hw) hs

end Sound
end Document
end Arazzo
