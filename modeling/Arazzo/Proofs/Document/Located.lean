import Arazzo.Proofs.Document.Origins
import Arazzo.Proofs.Validation

/-! Where the rules of documents tell of faults. Each finding is about one part, at a place inside
the one where the rules tell of that part. -/

namespace Arazzo

namespace Document

open Validation

variable {α : Type}

def ownEntry (name : α → String) (pool : Pool) (problem : Reusable → Option ReferenceError)
    (own : Place → α → Findings) (location : Place) (key : Option PlaceStep)
    (earlier : List (Entry α)) (entry : Entry α) : Findings :=
  let place := location ++ key.toList
  let again := if isRepeated (fun a b => name a == name b) earlier entry then
    [⟨.repeated, location, key⟩] else []
  match entry with
  | .concrete a => notBlank place "name" (name a) ++ again ++ own place a
  | .reusable r => again ++ reference place r pool (problem r)

def ownDependencies (ids : List String) (place : Place) (w : Workflow) : Findings :=
  eachItem
    (fun i (name : String) _ =>
      if Text.startsWith "$sourceDescriptions.".toList name.toList then
        expression (place ++ [.entry "dependsOn"]) (.item i) name
      else
        require (ids.contains name)
          (invalid (place ++ [.entry "dependsOn"]) (some (.item i))
            "must name a local workflowId or a $sourceDescriptions.* expression"))
    w.dependsOn

def own (d : Document) : Findings :=
  (if d.version.isEmpty then [] else Validation.version d.version) ++ Validation.info d.info ++
    require (!d.sourceDescriptions.isEmpty)
      (invalidAt [] "sourceDescriptions" "must have at least one entry") ++
    require (!d.workflows.isEmpty) (invalidAt [] "workflows" "must have at least one entry")

/-- What the rules find of a part that they tell of at `key` in `location`, its own parts left
out. -/
def Part.own (d : Document) (location : Place) (key : Option PlaceStep) : Part → Findings
  | .document _ => []
  | .source earlier s =>
    let place := location ++ key.toList
    idText place "name" s.name ++
      (if earlier.any (·.name == s.name) then repeated place (.member "name") else []) ++
      notBlank place "url" s.url
  | .workflow earlier w =>
    let place := location ++ key.toList
    idText place "workflowId" w.workflowId ++
      (if earlier.any (·.workflowId == w.workflowId) then repeated place (.member "workflowId")
      else []) ++
      require (!w.steps.isEmpty) (invalidAt place "steps" "must have at least one entry") ++
      outputs (place ++ [.entry "outputs"]) w.outputs ++
      ownDependencies (d.workflows.map (·.workflowId)) place w
  | .step _ earlier s =>
    let place := location ++ key.toList
    idText place "stepId" s.stepId ++
      (if earlier.any (·.stepId == s.stepId) then repeated place (.member "stepId") else []) ++
      require (targetCount s == 1)
        (invalid place none
          "exactly one of operationId, operationPath, workflowId must be provided") ++
      (s.operationPath.map (operationPath place)).getD [] ++
      (s.operationId.map (expressionIfMarked place "operationId")).getD [] ++
      outputs (place ++ [.entry "outputs"]) s.outputs ++
      ((s.requestBody.bind (·.payload)).map
        (value (place ++ [.entry "requestBody"]) "payload")).getD []
  | .parameter ofWorkflowStep earlier entry =>
    let place := location ++ key.toList
    let again :=
      if isRepeated (fun a b => a.name == b.name && a.location == b.location) earlier entry then
        [⟨.repeated, location, key⟩] else []
    match entry with
    | .concrete p =>
      notBlank place "name" p.name ++ value place "value" p.value ++
        (if ofWorkflowStep && p.location.isSome then
          warningAt place "in"
            "ignored: parameters of a workflow step map to the workflow's inputs"
        else []) ++
        again
    | .reusable r =>
      again ++
        reference place r .parameters
          (errorOf (Component.resolveParameter d.components (.reusable r))) ++
        (r.value.map (value place "value")).getD []
  | .successAction stepIds earlier entry =>
    ownEntry SuccessAction.name .successActions
      (fun r => errorOf (Component.resolveSuccessAction d.components (.reusable r)))
      (fun place a => Validation.successAction place a stepIds) location key earlier entry
  | .failureAction stepIds earlier entry =>
    ownEntry FailureAction.name .failureActions
      (fun r => errorOf (Component.resolveFailureAction d.components (.reusable r)))
      (fun place a => Validation.failureAction place a stepIds) location key earlier entry
  | .criterion c => Validation.criterion (location ++ key.toList) c
  | .replacement r =>
    notBlank (location ++ key.toList) "target" r.target ++
      value (location ++ key.toList) "value" r.value
  | .component _ name =>
    require (isKeyText name) (invalid location key "map key must match ^[a-zA-Z0-9\\.\\-_]+$")

/-- The finding is about a part that stands somewhere in the tree. -/
def Accounted (permitReserved : Bool) (d : Document) (tree : Json) (x : Diagnostic) : Prop :=
  ∃ part location key place value,
    Stands permitReserved d tree part location key place value ∧ x ∈ part.own d location key

variable {permitReserved : Bool} {d : Document} {tree value : Json} {owner : Part}
  {location place suffix : Place} {key : Option PlaceStep} {x : Diagnostic}

theorem Stands.exists_listed {kind : PartKind} {sub : List α → α → Part} {xs : List α} {i : Nat}
    {a : α} (stands : Stands permitReserved d tree owner location key place value)
    (list : (suffix, kind, listed sub xs) ∈ owner.lists) (hget : xs[i]? = some a) :
    ∃ place item, Stands permitReserved d tree (sub (xs.take i) a)
      (location ++ key.toList ++ suffix) (some (.item i)) place item := by
  have hsub : (listed sub xs)[i]? = some (sub (xs.take i) a) := by
    rw [listed, List.getElem?_mapIdx, hget]
    rfl
  obtain ⟨j, item, stands'⟩ := stands.exists_item list hsub
  exact ⟨_, item, stands'⟩

theorem accounted_criteria {items : List Criterion}
    (stands : Stands permitReserved d tree owner location key place value)
    (list : (suffix, .criterion, listed (fun _ => .criterion) items) ∈ owner.lists)
    (hx : x ∈ criteria (location ++ key.toList ++ suffix) items) :
    Accounted permitReserved d tree x := by
  obtain ⟨i, c, hget, hx⟩ := mem_eachItem.1 hx
  obtain ⟨place', item, stands'⟩ := stands.exists_listed list hget
  exact ⟨_, _, _, _, _, stands', hx⟩

theorem accounted_parameters {ofWorkflowStep : Bool} {entries : List (Entry Parameter)}
    (stands : Stands permitReserved d tree owner location key place value)
    (list : (suffix, .parameter, listed (.parameter ofWorkflowStep) entries) ∈ owner.lists)
    (hx : x ∈ parameters d.components ofWorkflowStep (location ++ key.toList ++ suffix) entries) :
    Accounted permitReserved d tree x := by
  obtain ⟨i, entry, hget, hx⟩ := mem_eachItem.1 hx
  obtain ⟨place', item, stands'⟩ := stands.exists_listed list hget
  refine ⟨_, _, _, _, _, stands', ?_⟩
  cases entry <;> exact hx

theorem mem_actions {name : α → String} {ownCriteria : α → List Criterion} {pool : Pool}
    {problem : Reusable → Option ReferenceError} {own : Place → α → Findings}
    {entries : List (Entry α)}
    (hx : x ∈ actions name ownCriteria pool problem own location entries) :
    ∃ i entry, entries[i]? = some entry ∧
      (x ∈ ownEntry name pool problem own location (some (.item i)) (entries.take i) entry ∨
        ∃ a, entry = .concrete a ∧
          x ∈ criteria (location ++ [.item i] ++ [.entry "criteria"]) (ownCriteria a)) := by
  obtain ⟨i, entry, hget, hx⟩ := mem_eachItem.1 hx
  refine ⟨i, entry, hget, ?_⟩
  cases entry with
  | concrete a => exact (List.mem_append.1 hx).imp_right fun hcriteria => ⟨a, rfl, hcriteria⟩
  | reusable r => exact .inl hx

structure ActionParts (d : Document) (name : α → String) (ownCriteria : α → List Criterion)
    (pool : Pool) (problem : Reusable → Option ReferenceError) (own : Place → α → Findings)
    (sub : List (Entry α) → Entry α → Part) : Prop where
  own : ∀ location key earlier entry,
    (sub earlier entry).own d location key = ownEntry name pool problem own location key earlier entry
  criteria : ∀ earlier a, ([.entry "criteria"], .criterion,
    listed (fun _ => .criterion) (ownCriteria a)) ∈ (sub earlier (.concrete a)).lists

theorem actionParts_success (d : Document) (stepIds : StepIds) :
    ActionParts d SuccessAction.name (·.criteria) .successActions
      (fun r => errorOf (Component.resolveSuccessAction d.components (.reusable r)))
      (fun place a => Validation.successAction place a stepIds) (.successAction stepIds) :=
  ⟨fun _ _ _ _ => rfl, fun _ _ => List.mem_singleton_self _⟩

theorem actionParts_failure (d : Document) (stepIds : StepIds) :
    ActionParts d FailureAction.name (·.criteria) .failureActions
      (fun r => errorOf (Component.resolveFailureAction d.components (.reusable r)))
      (fun place a => Validation.failureAction place a stepIds) (.failureAction stepIds) :=
  ⟨fun _ _ _ _ => rfl, fun _ _ => List.mem_singleton_self _⟩

section Actions

variable {name : α → String} {ownCriteria : α → List Criterion} {pool : Pool}
  {problem : Reusable → Option ReferenceError} {own : Place → α → Findings}
  {sub : List (Entry α) → Entry α → Part} {entries : List (Entry α)}

theorem accounted_action (parts : ActionParts d name ownCriteria pool problem own sub) {i : Nat}
    {earlier : List (Entry α)} {entry : Entry α}
    (stands : Stands permitReserved d tree (sub earlier entry) location (some (.item i)) place value)
    (hx : x ∈ ownEntry name pool problem own location (some (.item i)) earlier entry ∨
      ∃ a, entry = .concrete a ∧
        x ∈ criteria (location ++ [.item i] ++ [.entry "criteria"]) (ownCriteria a)) :
    Accounted permitReserved d tree x := by
  rcases hx with hown | ⟨a, rfl, hcriteria⟩
  · rw [← parts.own] at hown
    exact ⟨_, _, _, _, _, stands, hown⟩
  · exact accounted_criteria stands (parts.criteria earlier a) hcriteria

theorem accounted_actions (kind : PartKind)
    (parts : ActionParts d name ownCriteria pool problem own sub)
    (stands : Stands permitReserved d tree owner location key place value)
    (list : (suffix, kind, listed sub entries) ∈ owner.lists)
    (hx : x ∈ actions name ownCriteria pool problem own (location ++ key.toList ++ suffix) entries) :
    Accounted permitReserved d tree x := by
  obtain ⟨i, entry, hget, hx⟩ := mem_actions hx
  obtain ⟨place', item, stands'⟩ := stands.exists_listed list hget
  exact accounted_action parts stands' hx

end Actions

theorem accounted_replacements {body : RequestBody} {w : Workflow} {earlier : List Step} {s : Step}
    (stands : Stands permitReserved d tree (.step w earlier s) location key place value)
    (hbody : s.requestBody = some body)
    (hx : x ∈ requestBody (location ++ key.toList ++ [.entry "requestBody"]) body) :
    x ∈ (Part.step w earlier s).own d location key ∨ Accounted permitReserved d tree x := by
  rcases List.mem_append.1 hx with hpayload | hreplacements
  · refine .inl (List.mem_append_right _ ?_)
    rw [hbody]
    exact hpayload
  · obtain ⟨i, r, hget, hx⟩ := mem_eachItem.1 hreplacements
    have list : ([.entry "requestBody", .entry "replacements"], PartKind.replacement,
        listed (fun _ => .replacement) body.replacements) ∈ (Part.step w earlier s).lists := by
      simp [Part.lists, hbody]
    obtain ⟨place', item, stands'⟩ := stands.exists_listed list hget
    refine .inr ⟨_, _, _, _, _, stands', ?_⟩
    simpa [Part.own] using hx

theorem accounted_step {w : Workflow} {earlier : List Step} {s : Step}
    (stands : Stands permitReserved d tree (.step w earlier s) location key place value)
    (hx : x ∈ idText (location ++ key.toList) "stepId" s.stepId ++
      (if earlier.any (·.stepId == s.stepId) then
        repeated (location ++ key.toList) (.member "stepId") else []) ++
      Validation.step d.components (w.steps.map (·.stepId)) (location ++ key.toList) s) :
    Accounted permitReserved d tree x := by
  have own (h : x ∈ (Part.step w earlier s).own d location key) : Accounted permitReserved d tree x :=
    ⟨_, _, _, _, _, stands, h⟩
  simp only [Validation.step, List.mem_append] at hx
  rcases hx with (hid | hrepeated) |
    ((((((((hcount | hpath) | hoperation) | houtputs) | hparameters) | hbody) | hcriteria) |
      hsuccesses) | hfailures)
  · exact own (by simp only [Part.own, List.mem_append, hid, true_or])
  · exact own (by simp only [Part.own, List.mem_append, hrepeated, true_or, or_true])
  · exact own (by simp only [Part.own, List.mem_append, hcount, true_or, or_true])
  · exact own (by simp only [Part.own, List.mem_append, hpath, true_or, or_true])
  · exact own (by simp only [Part.own, List.mem_append, hoperation, true_or, or_true])
  · exact own (by simp only [Part.own, List.mem_append, houtputs, true_or, or_true])
  · exact accounted_parameters stands (by simp [Part.lists]) hparameters
  · cases hsome : s.requestBody with
    | none =>
      rw [hsome] at hbody
      cases hbody
    | some body =>
      rw [hsome] at hbody
      exact (accounted_replacements stands hsome hbody).elim own id
  · exact accounted_criteria stands (by simp [Part.lists]) hcriteria
  · exact accounted_actions .successAction (actionParts_success d _) stands
      (by simp [Part.lists]) hsuccesses
  · exact accounted_actions .failureAction (actionParts_failure d _) stands
      (by simp [Part.lists]) hfailures

theorem accounted_workflow {earlier : List Workflow} {w : Workflow}
    (stands : Stands permitReserved d tree (.workflow earlier w) location key place value)
    (hx : x ∈ idText (location ++ key.toList) "workflowId" w.workflowId ++
      (if earlier.any (·.workflowId == w.workflowId) then
        repeated (location ++ key.toList) (.member "workflowId") else []) ++
      Validation.workflow d.components (location ++ key.toList) w) :
    Accounted permitReserved d tree x := by
  have own (h : x ∈ (Part.workflow earlier w).own d location key) :
      Accounted permitReserved d tree x :=
    ⟨_, _, _, _, _, stands, h⟩
  simp only [Validation.workflow, List.mem_append] at hx
  rcases hx with (hid | hrepeated) |
    (((((hsome | houtputs) | hparameters) | hsuccesses) | hfailures) | hsteps)
  · exact own (by simp only [Part.own, List.mem_append, hid, true_or])
  · exact own (by simp only [Part.own, List.mem_append, hrepeated, true_or, or_true])
  · exact own (by simp only [Part.own, List.mem_append, hsome, true_or, or_true])
  · exact own (by simp only [Part.own, List.mem_append, houtputs, true_or, or_true])
  · exact accounted_parameters stands (by simp [Part.lists]) hparameters
  · exact accounted_actions .successAction (actionParts_success d _) stands
      (by simp [Part.lists]) hsuccesses
  · exact accounted_actions .failureAction (actionParts_failure d _) stands
      (by simp [Part.lists]) hfailures
  · obtain ⟨i, s, hget, hx⟩ := mem_eachItem.1 hsteps
    have list : ([.entry "steps"], PartKind.step, listed (.step w) w.steps) ∈
        (Part.workflow earlier w).lists := by
      simp [Part.lists]
    obtain ⟨place', item, stands'⟩ := stands.exists_listed list hget
    refine accounted_step stands' ?_
    simpa using hx

theorem eq_of_getElem?_singleton {a b : α} {i : Nat} (h : [a][i]? = some b) : i = 0 ∧ b = a := by
  cases i with
  | zero => exact ⟨rfl, (Option.some.inj h).symm⟩
  | succ i => cases h

section Pools

variable {pool name : String} {kind : PartKind} (hsound : tree.Sound)
  (hread : (Part.document d).ReadFrom permitReserved tree)

include hsound hread

theorem accounted_keys {table : Table α} {part : α → Option Part}
    (hpool : (pool, kind, tabled part table) ∈ d.pools)
    (hx : x ∈ tableKeys [.entry "components", .entry pool] (Table.keys table)) :
    Accounted permitReserved d tree x := by
  obtain ⟨name, hname, hx⟩ := List.mem_flatMap.1 hx
  obtain ⟨⟨name, entry⟩, hentry, rfl⟩ := List.mem_map.1 hname
  obtain ⟨value, stands, -⟩ := exists_stands_of_pools hsound hread hpool (List.mem_map_of_mem hentry)
  refine ⟨_, _, _, _, _, stands, ?_⟩
  exact hx

theorem exists_pooled {table : Table (Entry α)} {sub : Entry α → Part} {entry : Entry α}
    (hpool : (pool, kind, tabled (fun entry => some (sub entry)) table) ∈ d.pools)
    (hentry : (name, entry) ∈ table) :
    ∃ value, Stands permitReserved d tree (sub entry)
      [.entry "components", .entry pool, .entry name] (some (.item 0))
      [.entry "components", .entry pool, .entry name] value := by
  obtain ⟨value, -, stands⟩ := exists_stands_of_pools hsound hread hpool (List.mem_map_of_mem hentry)
  exact ⟨value, stands _ rfl⟩

theorem accounted_components {c : Components} (hc : d.components = some c)
    (hx : x ∈ Validation.components c) : Accounted permitReserved d tree x := by
  have parameters : ("parameters", PartKind.parameter,
      tabled (fun entry => some (Part.parameter false [] entry)) c.parameters) ∈ d.pools := by
    simp [pools, hc]
  have successes : ("successActions", PartKind.successAction,
      tabled (fun entry => some (Part.successAction none [] entry)) c.successActions) ∈ d.pools := by
    simp [pools, hc]
  have failures : ("failureActions", PartKind.failureAction,
      tabled (fun entry => some (Part.failureAction none [] entry)) c.failureActions) ∈ d.pools := by
    simp [pools, hc]
  simp only [Validation.components, List.mem_append, List.mem_flatMap] at hx
  rcases hx with (((((hinputs | hparameters) | ⟨⟨name, entry⟩, hentry, hx⟩) | hsuccesses) |
    ⟨⟨name, entry⟩, hentry, hx⟩) | hfailures) | ⟨⟨name, entry⟩, hentry, hx⟩
  · have inputs : ("inputs", PartKind.schema, tabled (fun _ => none) c.inputs) ∈ d.pools := by
      simp [pools, hc]
    exact accounted_keys hsound hread inputs hinputs
  · exact accounted_keys hsound hread parameters hparameters
  · obtain ⟨value, stands⟩ := exists_pooled hsound hread parameters hentry
    -- The rules see each entry as a list of one.
    obtain ⟨i, entry', hget, hx⟩ := mem_eachItem.1 hx
    obtain ⟨rfl, rfl⟩ := eq_of_getElem?_singleton hget
    refine ⟨_, _, _, _, _, stands, ?_⟩
    rw [← hc] at hx
    cases entry' <;> exact hx
  · exact accounted_keys hsound hread successes hsuccesses
  · obtain ⟨value, stands⟩ := exists_pooled hsound hread successes hentry
    obtain ⟨i, entry', hget, hx⟩ := mem_actions hx
    obtain ⟨rfl, rfl⟩ := eq_of_getElem?_singleton hget
    rw [← hc] at hx
    exact accounted_action (actionParts_success d none) stands hx
  · exact accounted_keys hsound hread failures hfailures
  · obtain ⟨value, stands⟩ := exists_pooled hsound hread failures hentry
    obtain ⟨i, entry', hget, hx⟩ := mem_actions hx
    obtain ⟨rfl, rfl⟩ := eq_of_getElem?_singleton hget
    rw [← hc] at hx
    exact accounted_action (actionParts_failure d none) stands hx

end Pools

theorem accounted_of_validate (hsound : tree.Sound)
    (hread : (Part.document d).ReadFrom permitReserved tree) (hx : x ∈ d.validate) :
    x ∈ d.own ∨ Accounted permitReserved d tree x := by
  have root : Stands permitReserved d tree (.document d) [] none [] tree := .root hread
  have workflows : ([.entry "workflows"], PartKind.workflow, listed .workflow d.workflows) ∈
      (Part.document d).lists := by
    simp [Part.lists]
  simp only [validate, List.mem_append] at hx
  rcases hx with ((((((hversion | hinfo) | hsources) | hsource) | hworkflows) | hworkflow) |
    hdependency) | hcomponents
  · exact .inl (by simp only [own, List.mem_append, hversion, true_or])
  · exact .inl (by simp only [own, List.mem_append, hinfo, true_or, or_true])
  · exact .inl (by simp only [own, List.mem_append, hsources, true_or, or_true])
  · obtain ⟨i, s, hget, hx⟩ := mem_eachItem.1 hsource
    have list : ([.entry "sourceDescriptions"], PartKind.source,
        listed .source d.sourceDescriptions) ∈ (Part.document d).lists := by
      simp [Part.lists]
    obtain ⟨place', item, stands⟩ := root.exists_listed list hget
    exact .inr ⟨_, _, _, _, _, stands, hx⟩
  · exact .inl (by simp only [own, List.mem_append, hworkflows, or_true])
  · obtain ⟨i, w, hget, hx⟩ := mem_eachItem.1 hworkflow
    obtain ⟨place', item, stands⟩ := root.exists_listed workflows hget
    exact .inr (accounted_workflow stands hx)
  · obtain ⟨i, w, hget, hx⟩ := mem_eachItem.1 hdependency
    obtain ⟨place', item, stands⟩ := root.exists_listed workflows hget
    exact .inr ⟨_, _, _, _, _, stands, List.mem_append_right _ hx⟩
  · cases hc : d.components with
    | none =>
      rw [hc] at hcomponents
      cases hcomponents
    | some c =>
      rw [hc] at hcomponents
      exact .inr (accounted_components hsound hread hc hcomponents)

end Document

/-! Findings inside a place -/

namespace Validation

/-- All that is found is at the place or inside it. -/
def Within (place : Place) (findings : Findings) : Prop := ∀ x ∈ findings, place <+: x.place

variable {α : Type} {place inner : Place} {xs ys : Findings} {step : PlaceStep} {key text : String}

theorem within_nil : Within place [] := by
  intro x hx
  cases hx

theorem within_append (hxs : Within place xs) (hys : Within place ys) : Within place (xs ++ ys) := by
  intro x hx
  exact (List.mem_append.1 hx).elim (hxs x) (hys x)

theorem Within.mono (h : Within inner xs) (hplace : place <+: inner) : Within place xs :=
  fun x hx => hplace.trans (h x hx)

theorem Within.deeper {rest : Place} (h : Within (place ++ rest) xs) : Within place xs :=
  h.mono (List.prefix_append place rest)

theorem within_flatMap {items : List α} {rule : α → Findings}
    (h : ∀ a, Within place (rule a)) : Within place (items.flatMap rule) := by
  intro x hx
  obtain ⟨a, -, hx⟩ := List.mem_flatMap.1 hx
  exact h a x hx

theorem within_eachItem {items : List α} {rule : Nat → α → List α → Findings}
    (h : ∀ i a earlier, Within place (rule i a earlier)) : Within place (eachItem rule items) := by
  intro x hx
  obtain ⟨i, a, -, hx⟩ := mem_eachItem.1 hx
  exact h i a _ x hx

theorem within_require {holds : Bool} (h : Within place xs) : Within place (require holds xs) := by
  cases holds with
  | true => exact within_nil
  | false => exact h

theorem within_ite {p : Prop} [Decidable p] (hxs : Within place xs) (hys : Within place ys) :
    Within place (if p then xs else ys) := by
  split
  · exact hxs
  · exact hys

theorem within_getD {rule : α → Findings} {a : Option α} (h : ∀ a, Within place (rule a)) :
    Within place ((a.map rule).getD []) := by
  cases a with
  | none => exact within_nil
  | some a => exact h a

theorem within_singleton (fault : Fault) (place : Place) (key : Option PlaceStep) :
    Within place [⟨fault, place, key⟩] := by
  intro x hx
  rw [List.mem_singleton.1 hx]
  exact List.prefix_append place key.toList

theorem within_told (fault : Fault) (location : Place) (key : Option PlaceStep) :
    Within (location ++ key.toList) [⟨fault, location, key⟩] := by
  intro x hx
  rw [List.mem_singleton.1 hx]
  exact List.prefix_refl _

theorem within_idText : Within place (idText place key text) :=
  within_require (within_singleton _ _ _)

theorem within_notBlank : Within place (notBlank place key text) :=
  within_require (within_singleton _ _ _)

theorem within_expression : Within place (expression place step text) := by
  unfold expression
  split
  · exact within_nil
  · exact within_singleton _ _ _

theorem within_template : Within place (template place key text) := by
  unfold template
  split
  · exact within_nil
  · exact within_singleton _ _ _

theorem within_value {v : Json} : Within place (value place key v) := by
  unfold value
  split
  · exact within_nil
  · exact within_singleton _ _ _

theorem within_expressionIfMarked : Within place (expressionIfMarked place key text) :=
  within_ite within_expression within_nil

theorem within_outputs {table : Table String} : Within place (outputs place table) := by
  refine within_append (within_flatMap fun _ => within_require (within_singleton _ _ _)) ?_
  refine within_flatMap fun entry => ?_
  exact within_ite within_expression (within_ite within_nil within_template)

theorem within_operationPath : Within place (operationPath place text) :=
  within_append (within_ite within_expression within_template)
    (within_require (within_singleton _ _ _))

theorem within_criterion {c : Criterion} : Within place (criterion place c) := by
  refine within_append (within_append (within_append within_notBlank
    (within_require (within_singleton _ _ _))) (within_getD fun _ => within_expression)) ?_
  split
  · unfold dialect
    split <;> exact (within_require (within_singleton _ _ _)).deeper
  · exact within_nil

theorem within_reference {r : Reusable} {expected : Pool} {problem : Option ReferenceError} :
    Within place (reference place r expected problem) := by
  unfold reference
  split
  · exact within_singleton _ _ _
  · refine within_ite (within_singleton _ _ _) ?_
    split
    · exact within_singleton _ _ _
    · exact within_nil

theorem within_actionTargets {workflowId stepId : Option String} {stepIds : StepIds} :
    Within place (actionTargets place workflowId stepId stepIds) := by
  refine within_append (within_getD fun _ => within_expressionIfMarked) ?_
  split
  · exact within_require (within_singleton _ _ _)
  · exact within_nil

theorem within_gotoTargets {workflowId stepId : Option String} {stepIds : StepIds} :
    Within place (gotoTargets place workflowId stepId stepIds) :=
  within_append (within_require (within_singleton _ _ _)) within_actionTargets

theorem within_successAction {a : SuccessAction} {stepIds : StepIds} :
    Within place (successAction place a stepIds) := by
  unfold successAction
  split
  · exact within_require (within_singleton _ _ _)
  · exact within_gotoTargets

theorem within_failureAction {a : FailureAction} {stepIds : StepIds} :
    Within place (failureAction place a stepIds) := by
  have one {holds : Bool} {fault : Fault} {key : Option PlaceStep} :
      Within place (require holds [⟨fault, place, key⟩]) :=
    within_require (within_singleton _ _ _)
  unfold failureAction
  dsimp only
  split
  · exact one
  · exact within_append one within_gotoTargets
  · exact within_append (within_append one one) within_actionTargets

end Validation

namespace Document

open Validation

variable {α : Type} {location : Place} {key : Option PlaceStep}

theorem within_ownEntry {name : α → String} {pool : Pool} {problem : Reusable → Option ReferenceError}
    {own : Place → α → Findings} {earlier : List (Entry α)} {entry : Entry α}
    (h : ∀ place a, Within place (own place a)) :
    Within (location ++ key.toList) (ownEntry name pool problem own location key earlier entry) := by
  have again : Within (location ++ key.toList) (if isRepeated (fun a b => name a == name b) earlier
      entry then [⟨.repeated, location, key⟩] else []) :=
    within_ite (within_told _ _ _) within_nil
  unfold ownEntry
  cases entry with
  | concrete a => exact within_append (within_append within_notBlank again) (h _ a)
  | reusable r => exact within_append again within_reference

theorem within_ownDependencies {ids : List String} {place : Place} {w : Workflow} :
    Within place (ownDependencies ids place w) := by
  have inner : Within (place ++ [.entry "dependsOn"]) (ownDependencies ids place w) :=
    within_eachItem fun _ _ _ =>
      within_ite within_expression (within_require (within_singleton _ _ _))
  exact inner.deeper

/-- All that is found of a part is told of inside the place where the rules tell of the part. -/
theorem within_own (d : Document) (part : Part) :
    Within (location ++ key.toList) (part.own d location key) := by
  cases part with
  | document d' => exact within_nil
  | source earlier s =>
    refine within_append (within_append within_idText ?_) within_notBlank
    exact within_ite (within_singleton _ _ _) within_nil
  | workflow earlier w =>
    refine within_append (within_append (within_append (within_append within_idText ?_) ?_) ?_) ?_
    · exact within_ite (within_singleton _ _ _) within_nil
    · exact within_require (within_singleton _ _ _)
    · exact within_outputs.deeper
    · exact within_ownDependencies
  | step w earlier s =>
    refine within_append (within_append (within_append (within_append (within_append (within_append
      within_idText ?_) ?_) ?_) ?_) ?_) ?_
    · exact within_ite (within_singleton _ _ _) within_nil
    · exact within_require (within_singleton _ _ _)
    · exact within_getD fun _ => within_operationPath
    · exact within_getD fun _ => within_expressionIfMarked
    · exact within_outputs.deeper
    · exact within_getD fun _ => within_value.deeper
  | parameter ofWorkflowStep earlier entry =>
    have again {holds : Bool} : Within (location ++ key.toList)
        (if holds then [⟨.repeated, location, key⟩] else []) :=
      within_ite (within_told _ _ _) within_nil
    cases entry with
    | concrete p =>
      refine within_append (within_append (within_append within_notBlank within_value) ?_) again
      exact within_ite (within_singleton _ _ _) within_nil
    | reusable r =>
      exact within_append (within_append again within_reference) (within_getD fun _ => within_value)
  | successAction stepIds earlier entry =>
    have own (place : Place) (a : SuccessAction) :
        Within place (Validation.successAction place a stepIds) := within_successAction
    exact within_ownEntry own
  | failureAction stepIds earlier entry =>
    have own (place : Place) (a : FailureAction) :
        Within place (Validation.failureAction place a stepIds) := within_failureAction
    exact within_ownEntry own
  | criterion c => exact within_criterion
  | replacement r => exact within_append within_notBlank within_value
  | component kind name => exact within_require (within_told _ _ _)

/--
Every finding of the rules that is not about the document as a whole is one about a part of it, at
a place inside the one where the rules tell of that part. The value that the part was read of stands
at that very place in the tree, unless an earlier item of a list on the way could not be read; and
in a pool there is one more number after the name of the entry.
-/
theorem findings_located {permitReserved : Bool} {path : Option String} {tree : Json} {d : Document}
    (hsound : tree.Sound) (hread : (read? permitReserved path tree).value = some d)
    {x : Diagnostic} (hx : x ∈ d.validate) :
    x ∈ d.own ∨ ∃ part location key place value,
      Stands permitReserved d tree part location key place value ∧ x ∈ part.own d location key ∧
      location ++ key.toList <+: x.place ∧
      Place.follow? place tree = some value ∧ part.ReadFrom permitReserved value ∧
      (Skips permitReserved d tree place ∨ location ++ key.toList = place ∨
        Numbered (location ++ key.toList) place) := by
  refine (accounted_of_validate hsound ⟨path, hread⟩ hx).imp_right ?_
  rintro ⟨part, location, key, place, value, stands, hown⟩
  exact ⟨part, location, key, place, value, stands, hown, within_own d part x hown, stands.follow?,
    stands.readFrom, stands.told⟩

def misplacedWorkflow : Json :=
  .obj [("steps", .arr [.obj [("operationId", .str "get"), ("stepId", .str "s")]]),
    ("workflowId", .str "not an id")]

def misplacedTree : Json :=
  .obj [("arazzo", .str "1.0.1"),
    ("info", .obj [("title", .str "t"), ("version", .str "1")]),
    ("sourceDescriptions", .arr [.obj [("name", .str "api"), ("url", .str "api.json")]]),
    ("workflows", .arr [.ofInt 7, misplacedWorkflow])]

def misplaced : Diagnostic :=
  ⟨.invalid "must match [A-Za-z0-9_\\-]+", [.entry "workflows", .item 0],
    some (.member "workflowId")⟩

theorem misplacedTree_sound : misplacedTree.Sound := by
  have text (s : String) : Json.Sound (.str s) := .str s
  have seven : (Json.ofInt 7).Sound := .num ⟨by decide, by decide⟩
  have step : Json.Sound (.obj [("operationId", .str "get"), ("stepId", .str "s")]) :=
    .obj (by decide) (by simp [text])
  have workflow : misplacedWorkflow.Sound :=
    .obj (by decide) (by simpa [text] using .arr (by simpa using step))
  have info : Json.Sound (.obj [("title", .str "t"), ("version", .str "1")]) :=
    .obj (by decide) (by simp [text])
  have source : Json.Sound (.obj [("name", .str "api"), ("url", .str "api.json")]) :=
    .obj (by decide) (by simp [text])
  have sources : Json.Sound (.arr [.obj [("name", .str "api"), ("url", .str "api.json")]]) :=
    .arr (by simpa using source)
  have workflows : Json.Sound (.arr [.ofInt 7, misplacedWorkflow]) :=
    .arr (by simpa using ⟨seven, workflow⟩)
  exact .obj (by decide) (by simp [text, info, sources, workflows])

theorem exists_misplaced : ∃ d, (read? false none misplacedTree).value = some d ∧
    misplaced ∈ d.validate := by
  have hchecked : (read? false none misplacedTree).value.any
      (fun d => d.validate.contains misplaced) = true := by
    decide +kernel
  obtain ⟨d, hread, hfound⟩ := (Option.any_eq_true _ _).1 hchecked
  exact ⟨d, hread, by simpa using hfound⟩

/-- The finding is about the workflow that is read of the second item, and tells of the first one,
which is no workflow at all. -/
theorem misplaced_told :
    misplacedTree.Sound ∧ ∃ d, (read? false none misplacedTree).value = some d ∧
      misplaced ∈ d.validate ∧ misplaced.place.text = "$.workflows[0].workflowId" ∧
      ∃ w, Stands false d misplacedTree (.workflow [] w) [.entry "workflows"] (some (.item 0))
          [.entry "workflows", .item 1] misplacedWorkflow ∧
        misplaced ∈ (Part.workflow [] w).own d [.entry "workflows"] (some (.item 0)) ∧
        Place.follow? [.entry "workflows", .item 0] misplacedTree = some (.ofInt 7) ∧
        PartKind.workflow.reads false (.ofInt 7) = false := by
  obtain ⟨d, hread, hfound⟩ := exists_misplaced
  obtain ⟨w, hw⟩ : ∃ w, found (readWorkflow false) misplacedWorkflow = some w := ⟨_, rfl⟩
  have hitems : itemsAt [.entry "workflows"] misplacedTree = [.ofInt 7, misplacedWorkflow] := rfl
  have hseven : found (readWorkflow false) (.ofInt 7) = none := rfl
  have hworkflows : d.workflows = [w] := by
    rw [(document_lists hread).2, hitems, List.filterMap_cons_none hseven,
      List.filterMap_cons_some hw]
    rfl
  have root : Stands false d misplacedTree (.document d) [] none [] misplacedTree :=
    .root ⟨none, hread⟩
  have list : ([.entry "workflows"], PartKind.workflow, listed .workflow [w]) ∈
      (Part.document d).lists := by
    simp [Part.lists, hworkflows]
  have stands : Stands false d misplacedTree (.workflow [] w) [.entry "workflows"] (some (.item 0))
      [.entry "workflows", .item 1] misplacedWorkflow := by
    have get : [Json.ofInt 7, misplacedWorkflow][1]? = some misplacedWorkflow := rfl
    exact .item root list rfl get rfl hw
  have hid : w.workflowId = "not an id" := by
    cases hw
    rfl
  refine ⟨misplacedTree_sound, d, hread, hfound, by decide, w, stands, ?_, rfl, rfl⟩
  have hinvalid : isIdText "not an id" = false := by decide
  simp [Part.own, idText, hid, hinvalid, require, invalidAt, invalid, misplaced]

theorem findings_located_misplaced :
    ∃ d, (read? false none misplacedTree).value = some d ∧ misplaced ∈ d.validate ∧
      (misplaced ∈ d.own ∨ ∃ part location key place value,
        Stands false d misplacedTree part location key place value ∧
        misplaced ∈ part.own d location key ∧ location ++ key.toList <+: misplaced.place ∧
        Place.follow? place misplacedTree = some value ∧ part.ReadFrom false value ∧
        (Skips false d misplacedTree place ∨ location ++ key.toList = place ∨
          Numbered (location ++ key.toList) place)) := by
  obtain ⟨d, hread, hfound⟩ := exists_misplaced
  exact ⟨d, hread, hfound, findings_located misplacedTree_sound hread hfound⟩

end Document
end Arazzo
