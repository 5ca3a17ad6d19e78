import Arazzo.Proofs.Document.Placeless
import Arazzo.Validation.Document

/-! Where the parts of a document stand in the tree that it was read from, and where the rules tell of
them. The rules count the parts that there are; the tree has those as well that could not be read. -/

namespace Arazzo

namespace Document

open ObjectReader Validation

inductive PartKind where
  | source
  | workflow
  | step
  | parameter
  | successAction
  | failureAction
  | criterion
  | replacement
  | schema

/-- A part that rules are about, with the earlier ones of its list that it may repeat. -/
inductive Part where
  | document (d : Document)
  | source (earlier : List SourceDescription) (s : SourceDescription)
  | workflow (earlier : List Workflow) (w : Workflow)
  | step (w : Workflow) (earlier : List Step) (s : Step)
  | parameter (ofWorkflowStep : Bool) (earlier : List (Entry Parameter)) (entry : Entry Parameter)
  | successAction (stepIds : StepIds) (earlier : List (Entry SuccessAction))
    (entry : Entry SuccessAction)
  | failureAction (stepIds : StepIds) (earlier : List (Entry FailureAction))
    (entry : Entry FailureAction)
  | criterion (c : Criterion)
  | replacement (r : Replacement)
  | component (kind : PartKind) (name : String)

variable {α : Type}

def listed (part : List α → α → Part) (xs : List α) : List Part :=
  xs.mapIdx fun i x => part (xs.take i) x

namespace Part

def lists : Part → List (Place × PartKind × List Part)
  | .document d =>
    [([.entry "sourceDescriptions"], .source, listed .source d.sourceDescriptions),
      ([.entry "workflows"], .workflow, listed .workflow d.workflows)]
  | .workflow _ w =>
    let stepIds := some (w.steps.map (·.stepId))
    [([.entry "parameters"], .parameter, listed (.parameter false) w.parameters),
      ([.entry "successActions"], .successAction, listed (.successAction stepIds) w.successActions),
      ([.entry "failureActions"], .failureAction, listed (.failureAction stepIds) w.failureActions),
      ([.entry "steps"], .step, listed (.step w) w.steps)]
  | .step w _ s =>
    let stepIds := some (w.steps.map (·.stepId))
    [([.entry "parameters"], .parameter, listed (.parameter s.workflowId.isSome) s.parameters),
      ([.entry "requestBody", .entry "replacements"], .replacement,
        listed (fun _ => .replacement) ((s.requestBody.map (·.replacements)).getD [])),
      ([.entry "successCriteria"], .criterion, listed (fun _ => .criterion) s.successCriteria),
      ([.entry "onSuccess"], .successAction, listed (.successAction stepIds) s.onSuccess),
      ([.entry "onFailure"], .failureAction, listed (.failureAction stepIds) s.onFailure)]
  | .successAction _ _ (.concrete a) =>
    [([.entry "criteria"], .criterion, listed (fun _ => .criterion) a.criteria)]
  | .failureAction _ _ (.concrete a) =>
    [([.entry "criteria"], .criterion, listed (fun _ => .criterion) a.criteria)]
  | _ => []

end Part

def tabled (part : α → Option Part) (table : Table α) : List (String × Option Part) :=
  table.map fun (name, x) => (name, part x)

def pools (d : Document) : List (String × PartKind × List (String × Option Part)) :=
  match d.components with
  | none => []
  | some c =>
    [("inputs", .schema, tabled (fun _ => none) c.inputs),
      ("parameters", .parameter,
        tabled (fun entry => some (.parameter false [] entry)) c.parameters),
      ("successActions", .successAction,
        tabled (fun entry => some (.successAction none [] entry)) c.successActions),
      ("failureActions", .failureAction,
        tabled (fun entry => some (.failureAction none [] entry)) c.failureActions)]

variable (permitReserved : Bool)

def PartKind.reads : PartKind → Json → Bool
  | .source, value => (found (readSource permitReserved) value).isSome
  | .workflow, value => (found (readWorkflow permitReserved) value).isSome
  | .step, value => (found (readStep permitReserved) value).isSome
  | .parameter, value =>
    (found (readEntry permitReserved (readParameter permitReserved)) value).isSome
  | .successAction, value =>
    (found (readEntry permitReserved (readSuccessAction permitReserved)) value).isSome
  | .failureAction, value =>
    (found (readEntry permitReserved (readFailureAction permitReserved)) value).isSome
  | .criterion, value => (found (readCriterion permitReserved) value).isSome
  | .replacement, value => (found (readReplacement permitReserved) value).isSome
  | .schema, value => (found readSchema value).isSome

/-- The part is what was read of the value. -/
def Part.ReadFrom : Part → Json → Prop
  | .document d, value => ∃ path, (read? permitReserved path value).value = some d
  | .source _ s, value => found (readSource permitReserved) value = some s
  | .workflow _ w, value => found (readWorkflow permitReserved) value = some w
  | .step _ _ s, value => found (readStep permitReserved) value = some s
  | .parameter _ _ entry, value =>
    found (readEntry permitReserved (readParameter permitReserved)) value = some entry
  | .successAction _ _ entry, value =>
    found (readEntry permitReserved (readSuccessAction permitReserved)) value = some entry
  | .failureAction _ _ entry, value =>
    found (readEntry permitReserved (readFailureAction permitReserved)) value = some entry
  | .criterion c, value => found (readCriterion permitReserved) value = some c
  | .replacement r, value => found (readReplacement permitReserved) value = some r
  | .component kind _, value => kind.reads permitReserved value = true

/--
The rules tell of the part at `key` in `location`, and it was read of the value that stands at
`place`. A part of a list is told of by its number among those that could be read, one of a pool as
if it were the only item of a list.
-/
inductive Stands (d : Document) (tree : Json) :
    Part → Place → Option PlaceStep → Place → Json → Prop where
  | root (read : (Part.document d).ReadFrom permitReserved tree) :
    Stands d tree (.document d) [] none [] tree
  | item {owner part : Part} {location place suffix : Place} {key : Option PlaceStep}
    {value item : Json} {kind : PartKind} {parts : List Part} {items : List Json} {j : Nat}
    (stands : Stands d tree owner location key place value)
    (list : (suffix, kind, parts) ∈ owner.lists)
    (follow : Place.follow? suffix value = some (.arr items)) (get : items[j]? = some item)
    (told : parts[(items.take j).countP (kind.reads permitReserved)]? = some part)
    (read : part.ReadFrom permitReserved item) :
    Stands d tree part (location ++ key.toList ++ suffix)
      (some (.item ((items.take j).countP (kind.reads permitReserved))))
      (place ++ suffix ++ [.item j]) item
  | component {pool name : String} {kind : PartKind} {entries : List (String × Option Part)}
    {part : Option Part} {value : Json} (list : (pool, kind, entries) ∈ d.pools)
    (entry : (name, part) ∈ entries)
    (follow : Place.follow? [.entry "components", .entry pool, .member name] tree = some value)
    (read : (Part.component kind name).ReadFrom permitReserved value) :
    Stands d tree (.component kind name) [.entry "components", .entry pool] (some (.member name))
      [.entry "components", .entry pool, .member name] value
  | pooled {pool name : String} {kind : PartKind} {entries : List (String × Option Part)}
    {part : Part} {value : Json} (list : (pool, kind, entries) ∈ d.pools)
    (entry : (name, some part) ∈ entries)
    (follow : Place.follow? [.entry "components", .entry pool, .entry name] tree = some value)
    (read : part.ReadFrom permitReserved value) :
    Stands d tree part [.entry "components", .entry pool, .entry name] (some (.item 0))
      [.entry "components", .entry pool, .entry name] value

/-- On the way to the place a list has an earlier item that nothing could be read of. -/
inductive Skips (d : Document) (tree : Json) (place : Place) : Prop where
  | mk {owner : Part} {location before suffix : Place} {key : Option PlaceStep} {value item : Json}
    {kind : PartKind} {parts : List Part} {items : List Json} {i j : Nat}
    (stands : Stands permitReserved d tree owner location key before value)
    (list : (suffix, kind, parts) ∈ owner.lists)
    (follow : Place.follow? suffix value = some (.arr items))
    (onWay : before ++ suffix ++ [.item j] <+: place) (earlier : i < j)
    (get : items[i]? = some item) (unread : kind.reads permitReserved item = false) :
    Skips d tree place

/-- The place, with the number of an only item put in after the name of a pool's entry. -/
def Numbered (told place : Place) : Prop :=
  ∃ pool name rest, place = [.entry "components", .entry pool, .entry name] ++ rest ∧
    told = [.entry "components", .entry pool, .entry name, .item 0] ++ rest

variable {permitReserved : Bool} {d : Document} {tree value : Json} {part : Part}
  {location place : Place} {key : Option PlaceStep}

theorem Stands.readFrom (h : Stands permitReserved d tree part location key place value) :
    part.ReadFrom permitReserved value := by
  cases h <;> assumption

theorem Place.follow?_append (first rest : Place) (tree : Json) :
    Place.follow? (first ++ rest) tree = (Place.follow? first tree).bind (Place.follow? rest) :=
  List.foldlM_append

theorem Stands.follow? (h : Stands permitReserved d tree part location key place value) :
    Place.follow? place tree = some value := by
  induction h with
  | root => rfl
  | item stands list follow get told read ih =>
    rw [Place.follow?_append, Place.follow?_append, ih, Option.bind_some, follow, Option.bind_some]
    simpa [Place.follow?, PlaceStep.follow?, Json.asArr?] using get
  | component list entry follow read => exact follow
  | pooled list entry follow read => exact follow

/-- A part is told of at its place, unless an item on the way was skipped; in pools there is one
more number. -/
theorem Stands.told (h : Stands permitReserved d tree part location key place value) :
    Skips permitReserved d tree place ∨ location ++ key.toList = place ∨
      Numbered (location ++ key.toList) place := by
  induction h with
  | root => exact .inr (.inl rfl)
  | component list entry follow read => exact .inr (.inl rfl)
  | pooled list entry follow read => exact .inr (.inr ⟨_, _, [], rfl, rfl⟩)
  | @item owner part location place suffix key value item kind parts items j stands list follow get
      told read ih =>
    -- The two numbers of the item differ only if an item before it was skipped.
    by_cases hall : ∀ other ∈ items.take j, kind.reads permitReserved other = true
    · have hlength : j ≤ items.length := by
        obtain ⟨hlt, -⟩ := List.getElem?_eq_some_iff.1 get
        exact Nat.le_of_lt hlt
      have hcount : (items.take j).countP (kind.reads permitReserved) = j := by
        rw [List.countP_eq_length.2 hall, List.length_take, Nat.min_eq_left hlength]
      rw [hcount]
      rcases ih with skips | hsame | ⟨pool, name, rest, hplace, htold⟩
      · obtain ⟨stands', list', follow', onWay, earlier, get', unread⟩ := skips
        refine .inl ⟨stands', list', follow', onWay.trans ?_, earlier, get', unread⟩
        exact ⟨suffix ++ [.item j], by simp⟩
      · refine .inr (.inl ?_)
        rw [hsame]
        rfl
      · refine .inr (.inr ⟨pool, name, rest ++ suffix ++ [.item j], ?_, ?_⟩)
        · rw [hplace]
          simp
        · rw [htold]
          simp
    · obtain ⟨other, hother, hunread⟩ : ∃ other ∈ items.take j,
          ¬ kind.reads permitReserved other = true := by
        simpa using hall
      obtain ⟨i, hi, hget⟩ := List.getElem_of_mem hother
      have hij : i < j := by
        rw [List.length_take] at hi
        omega
      have hitem : items[i]? = some other := by
        rw [← List.getElem?_take_of_lt hij, List.getElem?_eq_getElem hi, hget]
      exact .inl ⟨stands, list, follow, List.prefix_refl _, hij, hitem, by simpa using hunread⟩

/-! What was read of a list -/

def itemsAt (place : Place) (value : Json) : List Json :=
  ((Place.follow? place value).bind Json.asArr?).getD []

theorem itemsAt_entry (name : String) (members : Table Json) :
    itemsAt [.entry name] (.obj members) =
      ((Table.get? name members).bind Json.asArr?).getD [] := by
  simp [itemsAt, Place.follow?, PlaceStep.follow?, Json.get?]

theorem follow?_of_itemsAt {item : Json} (h : item ∈ itemsAt place value) :
    Place.follow? place value = some (.arr (itemsAt place value)) := by
  unfold itemsAt at h ⊢
  cases hvalue : Place.follow? place value with
  | none =>
    rw [hvalue] at h
    cases h
  | some inner =>
    rw [hvalue] at h
    cases inner with
    | arr items => rfl
    | _ => cases h

theorem exists_of_filterMap {β : Type} {f : α → Option β} {xs : List α} {k : Nat} {y : β}
    (h : (xs.filterMap f)[k]? = some y) :
    ∃ j x, xs[j]? = some x ∧ f x = some y ∧ (xs.take j).countP (fun x => (f x).isSome) = k := by
  induction xs generalizing k with
  | nil => cases h
  | cons x xs ih =>
    rw [List.filterMap_cons] at h
    cases hx : f x with
    | none =>
      rw [hx] at h
      obtain ⟨j, x', hget, hfound, hcount⟩ := ih h
      exact ⟨j + 1, x', hget, hfound, by simpa [hx] using hcount⟩
    | some z =>
      rw [hx] at h
      cases k with
      | zero => exact ⟨0, x, rfl, hx.trans h, rfl⟩
      | succ k =>
        obtain ⟨j, x', hget, hfound, hcount⟩ := ih h
        exact ⟨j + 1, x', hget, hfound, by simpa [hx] using hcount⟩

def Comes (permitReserved : Bool) (value : Json) (place : Place) (kind : PartKind) (k : Nat)
    (part : Part) : Prop :=
  ∃ items j item, Place.follow? place value = some (.arr items) ∧ items[j]? = some item ∧
    part.ReadFrom permitReserved item ∧ (items.take j).countP (kind.reads permitReserved) = k

variable {read : ItemReader α} {sub : List α → α → Part} {kind : PartKind} {k : Nat}

theorem comes_of_listed {xs : List α} (hxs : xs = (itemsAt place value).filterMap (found read))
    (hget : (listed sub xs)[k]? = some part)
    (hsub : ∀ earlier x item, found read item = some x →
      (sub earlier x).ReadFrom permitReserved item)
    (hkind : ∀ item, kind.reads permitReserved item = (found read item).isSome) :
    Comes permitReserved value place kind k part := by
  rw [listed, List.getElem?_mapIdx] at hget
  obtain ⟨x, hx, rfl⟩ := Option.map_eq_some_iff.1 hget
  rw [hxs] at hx
  obtain ⟨j, item, hitem, hfound, hcount⟩ := exists_of_filterMap hx
  have hreads : (kind.reads permitReserved) = fun item => (found read item).isSome := funext hkind
  refine ⟨itemsAt place value, j, item, follow?_of_itemsAt (List.mem_of_getElem? hitem), hitem,
    hsub _ x item hfound, ?_⟩
  rw [hreads]
  exact hcount

theorem optionalList_items (h : Placeless read) (members : Table Json) (location : Place)
    (name : String) : (optionalList read ⟨members, location⟩ name).value =
      (itemsAt [.entry name] (.obj members)).filterMap (found read) := by
  rw [h.optionalList_value, itemsAt_entry, raw?]

theorem requiredList_items (h : Placeless read) (members : Table Json) (location : Place)
    (name : String) : (requiredList read ⟨members, location⟩ name).value =
      (itemsAt [.entry name] (.obj members)).filterMap (found read) := by
  rw [h.requiredList_value, itemsAt_entry, raw?]

theorem document_lists {path : Option String}
    (h : (read? permitReserved path value).value = some d) :
    d.sourceDescriptions = (itemsAt [.entry "sourceDescriptions"] value).filterMap
        (found (readSource permitReserved)) ∧
      d.workflows = (itemsAt [.entry "workflows"] value).filterMap
        (found (readWorkflow permitReserved)) := by
  cases value with
  | obj members =>
    cases h
    exact ⟨requiredList_items placeless_source members _ _,
      requiredList_items placeless_workflow members _ _⟩
  | _ => cases h

theorem workflow_lists {w : Workflow} (h : found (readWorkflow permitReserved) value = some w) :
    w.parameters = (itemsAt [.entry "parameters"] value).filterMap
        (found (readEntry permitReserved (readParameter permitReserved))) ∧
      w.successActions = (itemsAt [.entry "successActions"] value).filterMap
        (found (readEntry permitReserved (readSuccessAction permitReserved))) ∧
      w.failureActions = (itemsAt [.entry "failureActions"] value).filterMap
        (found (readEntry permitReserved (readFailureAction permitReserved))) ∧
      w.steps = (itemsAt [.entry "steps"] value).filterMap (found (readStep permitReserved)) := by
  cases value with
  | obj members =>
    cases h
    exact ⟨optionalList_items (placeless_entry placeless_parameter) members _ _,
      optionalList_items (placeless_entry placeless_successAction) members _ _,
      optionalList_items (placeless_entry placeless_failureAction) members _ _,
      requiredList_items placeless_step members _ _⟩
  | _ => cases h

theorem replacements_read {body : RequestBody}
    (h : (readRequestBody permitReserved value []).value = some body) :
    body.replacements = (itemsAt [.entry "replacements"] value).filterMap
      (found (readReplacement permitReserved)) := by
  cases value with
  | obj members =>
    cases h
    exact optionalList_items placeless_replacement members _ _
  | _ => cases h

theorem itemsAt_cons (step : PlaceStep) (rest : Place) (value : Json) :
    itemsAt (step :: rest) value = ((step.follow? value).map (itemsAt rest)).getD [] := by
  rw [itemsAt, Place.follow?, List.foldlM_cons]
  cases step.follow? value <;> rfl

theorem step_lists {s : Step} (h : found (readStep permitReserved) value = some s) :
    s.parameters = (itemsAt [.entry "parameters"] value).filterMap
        (found (readEntry permitReserved (readParameter permitReserved))) ∧
      (s.requestBody.map (·.replacements)).getD [] =
        (itemsAt [.entry "requestBody", .entry "replacements"] value).filterMap
          (found (readReplacement permitReserved)) ∧
      s.successCriteria = (itemsAt [.entry "successCriteria"] value).filterMap
        (found (readCriterion permitReserved)) ∧
      s.onSuccess = (itemsAt [.entry "onSuccess"] value).filterMap
        (found (readEntry permitReserved (readSuccessAction permitReserved))) ∧
      s.onFailure = (itemsAt [.entry "onFailure"] value).filterMap
        (found (readEntry permitReserved (readFailureAction permitReserved))) := by
  cases value with
  | obj members =>
    cases h
    refine ⟨optionalList_items (placeless_entry placeless_parameter) members _ _, ?_,
      optionalList_items placeless_criterion members _ _,
      optionalList_items (placeless_entry placeless_successAction) members _ _,
      optionalList_items (placeless_entry placeless_failureAction) members _ _⟩
    dsimp only
    rw [optionalPart_value readRequestBody_value, itemsAt_cons]
    show _ = (((Table.get? "requestBody" members).map _).getD []).filterMap _
    rw [raw?]
    cases Table.get? "requestBody" members with
    | none => rfl
    | some inner =>
      rw [Option.bind_some, Option.map_some, Option.getD_some]
      cases hbody : (readRequestBody permitReserved inner []).value with
      | some body => exact replacements_read hbody
      | none =>
        -- Only what is no object cannot be read, and then it has no list either.
        cases inner with
        | obj members => cases hbody
        | _ => rfl
  | _ => cases h

theorem concrete_of_entry {x : α}
    (h : found (readEntry permitReserved read) value = some (.concrete x)) :
    found read value = some x := by
  unfold found readEntry at h
  split at h
  · obtain ⟨r, -, hr⟩ := Option.map_eq_some_iff.1 h
    cases hr
  · obtain ⟨x', hx', hsame⟩ := Option.map_eq_some_iff.1 h
    cases hsame
    exact hx'

theorem successAction_criteria {a : SuccessAction}
    (h : found (readSuccessAction permitReserved) value = some a) :
    a.criteria = (itemsAt [.entry "criteria"] value).filterMap
      (found (readCriterion permitReserved)) := by
  cases value with
  | obj members =>
    obtain ⟨kind, -, rfl⟩ := Option.map_eq_some_iff.1 h
    exact optionalList_items placeless_criterion members _ _
  | _ => cases h

theorem failureAction_criteria {a : FailureAction}
    (h : found (readFailureAction permitReserved) value = some a) :
    a.criteria = (itemsAt [.entry "criteria"] value).filterMap
      (found (readCriterion permitReserved)) := by
  cases value with
  | obj members =>
    obtain ⟨kind, -, rfl⟩ := Option.map_eq_some_iff.1 h
    exact optionalList_items placeless_criterion members _ _
  | _ => cases h

theorem comes_of_lists {owner : Part} {parts : List Part}
    (hread : owner.ReadFrom permitReserved value) (hlist : (place, kind, parts) ∈ owner.lists)
    (hget : parts[k]? = some part) : Comes permitReserved value place kind k part := by
  cases owner with
  | document d =>
    obtain ⟨path, hread⟩ := hread
    obtain ⟨hsources, hworkflows⟩ := document_lists hread
    simp only [Part.lists, List.mem_cons, List.not_mem_nil, or_false, Prod.mk.injEq] at hlist
    rcases hlist with ⟨rfl, rfl, rfl⟩ | ⟨rfl, rfl, rfl⟩
    · exact comes_of_listed hsources hget (fun _ _ _ h => h) fun _ => rfl
    · exact comes_of_listed hworkflows hget (fun _ _ _ h => h) fun _ => rfl
  | workflow earlier w =>
    obtain ⟨hparameters, hsuccesses, hfailures, hsteps⟩ := workflow_lists hread
    simp only [Part.lists, List.mem_cons, List.not_mem_nil, or_false, Prod.mk.injEq] at hlist
    rcases hlist with ⟨rfl, rfl, rfl⟩ | ⟨rfl, rfl, rfl⟩ | ⟨rfl, rfl, rfl⟩ | ⟨rfl, rfl, rfl⟩
    · exact comes_of_listed hparameters hget (fun _ _ _ h => h) fun _ => rfl
    · exact comes_of_listed hsuccesses hget (fun _ _ _ h => h) fun _ => rfl
    · exact comes_of_listed hfailures hget (fun _ _ _ h => h) fun _ => rfl
    · exact comes_of_listed hsteps hget (fun _ _ _ h => h) fun _ => rfl
  | step w earlier s =>
    obtain ⟨hparameters, hreplacements, hcriteria, hsuccesses, hfailures⟩ := step_lists hread
    simp only [Part.lists, List.mem_cons, List.not_mem_nil, or_false, Prod.mk.injEq] at hlist
    rcases hlist with ⟨rfl, rfl, rfl⟩ | ⟨rfl, rfl, rfl⟩ | ⟨rfl, rfl, rfl⟩ | ⟨rfl, rfl, rfl⟩ |
      ⟨rfl, rfl, rfl⟩
    · exact comes_of_listed hparameters hget (fun _ _ _ h => h) fun _ => rfl
    · exact comes_of_listed hreplacements hget (fun _ _ _ h => h) fun _ => rfl
    · exact comes_of_listed hcriteria hget (fun _ _ _ h => h) fun _ => rfl
    · exact comes_of_listed hsuccesses hget (fun _ _ _ h => h) fun _ => rfl
    · exact comes_of_listed hfailures hget (fun _ _ _ h => h) fun _ => rfl
  | successAction stepIds earlier entry =>
    cases entry with
    | concrete a =>
      have hcriteria := successAction_criteria (concrete_of_entry hread)
      simp only [Part.lists, List.mem_cons, List.not_mem_nil, or_false, Prod.mk.injEq] at hlist
      obtain ⟨rfl, rfl, rfl⟩ := hlist
      exact comes_of_listed hcriteria hget (fun _ _ _ h => h) fun _ => rfl
    | reusable r => cases hlist
  | failureAction stepIds earlier entry =>
    cases entry with
    | concrete a =>
      have hcriteria := failureAction_criteria (concrete_of_entry hread)
      simp only [Part.lists, List.mem_cons, List.not_mem_nil, or_false, Prod.mk.injEq] at hlist
      obtain ⟨rfl, rfl, rfl⟩ := hlist
      exact comes_of_listed hcriteria hget (fun _ _ _ h => h) fun _ => rfl
    | reusable r => cases hlist
  | _ => cases hlist

theorem Stands.exists_item {owner : Part} {suffix : Place} {parts : List Part}
    (stands : Stands permitReserved d tree owner location key place value)
    (list : (suffix, kind, parts) ∈ owner.lists) (hget : parts[k]? = some part) :
    ∃ j item, Stands permitReserved d tree part (location ++ key.toList ++ suffix) (some (.item k))
      (place ++ suffix ++ [.item j]) item := by
  obtain ⟨items, j, item, follow, get, read, rfl⟩ := comes_of_lists stands.readFrom list hget
  exact ⟨j, item, .item stands list follow get hget read⟩

/-! What was read of a pool -/

theorem readComponents_value (value : Json) (location : Place) :
    (readComponents permitReserved value location).value =
      (readComponents permitReserved value []).value := by
  cases value with
  | obj members =>
    simp only [readComponents, open?, Checked.value_bind, Checked.value_pure,
      placeless_schema.optionalTable_value,
      (placeless_entry placeless_parameter).optionalTable_value,
      (placeless_entry placeless_successAction).optionalTable_value,
      (placeless_entry placeless_failureAction).optionalTable_value, extensions_value, raw?]
  | _ => rfl

theorem exists_of_optionalTable (h : Placeless read) {members : Table Json}
    (hsound : Json.Sound (.obj members)) {pool name : String} {x : α}
    (hmem : (name, x) ∈ (optionalTable read ⟨members, location⟩ pool).value) :
    ∃ value, Place.follow? [.entry pool, .entry name] (.obj members) = some value ∧
      found read value = some x := by
  rw [h.optionalTable_value, raw?] at hmem
  dsimp only at hmem
  cases hpool : Table.get? pool members with
  | none =>
    rw [hpool] at hmem
    cases hmem
  | some inner =>
    rw [hpool, Option.bind_some] at hmem
    cases inner with
    | obj entries =>
      obtain ⟨⟨name', value⟩, hentry, hfound⟩ := List.mem_filterMap.1 hmem
      obtain ⟨x', hx', hsame⟩ := Option.map_eq_some_iff.1 hfound
      obtain ⟨rfl, rfl⟩ := Prod.mk.inj hsame
      -- Names of members are unique, so the entry is the one that its name finds.
      have hascending : Table.Ascending entries := (Json.Sound.get? hsound hpool).ascending
      have hget : Table.get? name' entries = some value := hascending.get?_of_mem hentry
      refine ⟨value, ?_, hx'⟩
      simp [Place.follow?, PlaceStep.follow?, Json.get?, hpool, hget]
    | _ => cases hmem

theorem exists_of_tabled (h : Placeless read) {members : Table Json}
    (hsound : Json.Sound (.obj members)) {sub : α → Option Part} {pool name : String}
    {part : Option Part}
    (hentry : (name, part) ∈ tabled sub (optionalTable read ⟨members, location⟩ pool).value)
    (hkind : ∀ item, kind.reads permitReserved item = (found read item).isSome)
    (hsub : ∀ x item, found read item = some x →
      ∀ part ∈ sub x, part.ReadFrom permitReserved item) :
    ∃ value, Place.follow? [.entry pool, .entry name] (.obj members) = some value ∧
      kind.reads permitReserved value = true ∧
      ∀ found ∈ part, found.ReadFrom permitReserved value := by
  obtain ⟨⟨name', x⟩, hmem, hsame⟩ := List.mem_map.1 hentry
  obtain ⟨rfl, rfl⟩ := Prod.mk.inj hsame
  obtain ⟨value, follow, hfound⟩ := exists_of_optionalTable h hsound hmem
  have reads : kind.reads permitReserved value = true := by
    rw [hkind, hfound]
    rfl
  exact ⟨value, follow, reads, hsub x value hfound⟩

theorem exists_of_pools {c : Components} {members : Table Json}
    (hsound : Json.Sound (.obj members)) (hc : d.components = some c)
    (hread : (readComponents permitReserved (.obj members) []).value = some c) {pool name : String}
    {entries : List (String × Option Part)} {part : Option Part}
    (hpool : (pool, kind, entries) ∈ d.pools) (hentry : (name, part) ∈ entries) :
    ∃ value, Place.follow? [.entry pool, .entry name] (.obj members) = some value ∧
      kind.reads permitReserved value = true ∧
      ∀ found ∈ part, found.ReadFrom permitReserved value := by
  cases hread
  simp only [pools, hc, List.mem_cons, List.not_mem_nil, or_false, Prod.mk.injEq] at hpool
  rcases hpool with ⟨rfl, rfl, rfl⟩ | ⟨rfl, rfl, rfl⟩ | ⟨rfl, rfl, rfl⟩ | ⟨rfl, rfl, rfl⟩
  · exact exists_of_tabled placeless_schema hsound hentry (fun _ => rfl) fun _ _ _ _ h => by cases h
  · refine exists_of_tabled (placeless_entry placeless_parameter) hsound hentry (fun _ => rfl) ?_
    rintro entry item hfound _ ⟨⟩
    exact hfound
  · refine exists_of_tabled (placeless_entry placeless_successAction) hsound hentry (fun _ => rfl) ?_
    rintro entry item hfound _ ⟨⟩
    exact hfound
  · refine exists_of_tabled (placeless_entry placeless_failureAction) hsound hentry (fun _ => rfl) ?_
    rintro entry item hfound _ ⟨⟩
    exact hfound

theorem exists_stands_of_pools (hsound : tree.Sound)
    (hread : (Part.document d).ReadFrom permitReserved tree) {pool name : String}
    {entries : List (String × Option Part)} {part : Option Part}
    (hpool : (pool, kind, entries) ∈ d.pools) (hentry : (name, part) ∈ entries) :
    ∃ value, Stands permitReserved d tree (.component kind name)
        [.entry "components", .entry pool] (some (.member name))
        [.entry "components", .entry pool, .member name] value ∧
      ∀ found ∈ part, Stands permitReserved d tree found
        [.entry "components", .entry pool, .entry name] (some (.item 0))
        [.entry "components", .entry pool, .entry name] value := by
  obtain ⟨path, hread⟩ := hread
  cases tree with
  | obj members =>
    have hcomponents : d.components =
        (Table.get? "components" members).bind
          fun value => (readComponents permitReserved value []).value := by
      cases hread
      exact optionalPart_value readComponents_value
    cases hc : d.components with
    | none =>
      rw [pools, hc] at hpool
      cases hpool
    | some c =>
      rw [hc] at hcomponents
      obtain ⟨inner, hinner, hread'⟩ := Option.bind_eq_some_iff.1 hcomponents.symm
      cases inner with
      | obj entries' =>
        obtain ⟨value, follow, reads, hparts⟩ :=
          exists_of_pools (hsound.get? hinner) hc hread' hpool hentry
        have follow' : Place.follow? [.entry "components", .entry pool, .entry name]
            (.obj members) = some value := by
          rw [Place.follow?, List.foldlM_cons]
          show (Table.get? "components" members).bind _ = _
          rw [hinner]
          exact follow
        refine ⟨value, .component hpool hentry follow' reads, fun found hfound => ?_⟩
        rw [Option.mem_def] at hfound
        subst hfound
        exact .pooled hpool hentry follow' (hparts found rfl)
      | _ => cases hread'
  | _ => cases hread

end Document
end Arazzo
