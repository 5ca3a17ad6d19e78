import Arazzo.Document.Reader
import Arazzo.Proofs.Json.Sound

/-! The objects of a document's tree: the members that an object of each kind may have, where in a
tree an object of each kind is read, and the tree with another value put at a place. -/

namespace Arazzo

def PlaceStep.put (part value : Json) : PlaceStep → Json
  | .member name | .entry name =>
    match value with
    | .obj members => .obj (Table.insert name part members)
    | _ => value
  | .item index =>
    match value with
    | .arr items => .arr (items.set index part)
    | _ => value

def Place.put (part : Json) : Place → Json → Json
  | [], _ => part
  | step :: rest, tree =>
    match step.follow? tree with
    | some inner => step.put (Place.put part rest inner) tree
    | none => tree

theorem Place.follow?_cons (step : PlaceStep) (rest : Place) (tree : Json) :
    Place.follow? (step :: rest) tree = (step.follow? tree).bind (Place.follow? rest) := by
  rw [Place.follow?, List.foldlM_cons]
  rfl

theorem Place.follow?_onward {first rest : Place} {tree value : Json}
    (h : Place.follow? first tree = some value) :
    Place.follow? (first ++ rest) tree = Place.follow? rest value := by
  have hfirst : List.foldlM PlaceStep.follow? tree first = some value := h
  rw [Place.follow?, List.foldlM_append, hfirst]
  rfl

theorem Place.put_onward {first rest : Place} {part tree value : Json}
    (h : Place.follow? first tree = some value) :
    Place.put part (first ++ rest) tree = Place.put (Place.put part rest value) first tree := by
  induction first generalizing tree with
  | nil =>
    rw [← Option.some.inj h]
    rfl
  | cons step first ih =>
    rw [Place.follow?_cons] at h
    obtain ⟨inner, hstep, hinner⟩ := Option.bind_eq_some_iff.1 h
    simp only [List.cons_append, Place.put, hstep]
    rw [ih hinner]

theorem Place.put_item {items : List Json} {i : Nat} {item : Json} (h : items[i]? = some item)
    (part : Json) : Place.put part [.item i] (.arr items) = .arr (items.set i part) := by
  simp [Place.put, PlaceStep.put, PlaceStep.follow?, Json.asArr?, h]

theorem Place.put_member {members : Table Json} {name : String} {value : Json}
    (h : Table.get? name members = some value) (rest : Place) (part : Json) :
    Place.put part (.member name :: rest) (.obj members) =
      .obj (Table.insert name (Place.put part rest value) members) := by
  simp [Place.put, PlaceStep.put, PlaceStep.follow?, Json.get?, h]

namespace Document

inductive ObjectKind where
  | document
  | info
  | source
  | workflow
  | step
  | parameter
  | reusable
  | requestBody
  | replacement
  | criterion
  | dialect
  | successAction
  | failureAction
  | components
deriving DecidableEq, Repr

inductive Form where
  | text
  | version
  | number
  | smallNat
  | items
  | members
  | textOrMembers
  | any
deriving DecidableEq, Repr

namespace Form

def name : Form → String
  | .text | .version | .textOrMembers => "string"
  | .number => "number"
  | .smallNat => "integer"
  | .items => "array"
  | .members => "object"
  | .any => ""

def admits : Form → Json → Bool
  | .text, value => value.asStr?.isSome
  | .version, value => value.asStr?.isSome || value.asNum?.isSome
  | .number, value => value.asNum?.isSome
  | .smallNat, value => value.asNat?.any (· < Nat.pow 2 32)
  | .items, value => value.isArr
  | .members, value => value.isObj
  | .textOrMembers, value => value.asStr?.isSome || value.isObj
  | .any, _ => true

end Form

inductive Need where
  | required
  | optional
deriving DecidableEq, Repr

inductive Content where
  | plain
  | part (kind : ObjectKind)
  | items (kind : ObjectKind)
  | entries (kind : ObjectKind)
deriving DecidableEq, Repr

structure Field where
  key : String
  form : Form
  need : Need
  content : Content
deriving DecidableEq, Repr

namespace ObjectKind

def fields : ObjectKind → List Field
  | .document =>
    [⟨"arazzo", .version, .required, .plain⟩,
      ⟨"info", .members, .required, .part .info⟩,
      ⟨"sourceDescriptions", .items, .required, .items .source⟩,
      ⟨"workflows", .items, .required, .items .workflow⟩,
      ⟨"components", .members, .optional, .part .components⟩]
  | .info =>
    [⟨"title", .text, .required, .plain⟩,
      ⟨"summary", .text, .optional, .plain⟩,
      ⟨"description", .text, .optional, .plain⟩,
      ⟨"version", .version, .required, .plain⟩]
  | .source =>
    [⟨"name", .text, .required, .plain⟩,
      ⟨"url", .text, .required, .plain⟩,
      ⟨"type", .text, .optional, .plain⟩]
  | .workflow =>
    [⟨"workflowId", .text, .required, .plain⟩,
      ⟨"summary", .text, .optional, .plain⟩,
      ⟨"description", .text, .optional, .plain⟩,
      ⟨"inputs", .members, .optional, .plain⟩,
      ⟨"dependsOn", .items, .optional, .plain⟩,
      ⟨"steps", .items, .required, .items .step⟩,
      ⟨"successActions", .items, .optional, .items .successAction⟩,
      ⟨"failureActions", .items, .optional, .items .failureAction⟩,
      ⟨"outputs", .members, .optional, .plain⟩,
      ⟨"parameters", .items, .optional, .items .parameter⟩]
  | .step =>
    [⟨"stepId", .text, .required, .plain⟩,
      ⟨"description", .text, .optional, .plain⟩,
      ⟨"operationId", .text, .optional, .plain⟩,
      ⟨"operationPath", .text, .optional, .plain⟩,
      ⟨"workflowId", .text, .optional, .plain⟩,
      ⟨"parameters", .items, .optional, .items .parameter⟩,
      ⟨"requestBody", .members, .optional, .part .requestBody⟩,
      ⟨"successCriteria", .items, .optional, .items .criterion⟩,
      ⟨"onSuccess", .items, .optional, .items .successAction⟩,
      ⟨"onFailure", .items, .optional, .items .failureAction⟩,
      ⟨"outputs", .members, .optional, .plain⟩]
  | .parameter =>
    [⟨"name", .text, .required, .plain⟩,
      ⟨"in", .text, .optional, .plain⟩,
      ⟨"value", .any, .required, .plain⟩]
  | .reusable =>
    [⟨"reference", .text, .required, .plain⟩,
      ⟨"value", .any, .optional, .plain⟩]
  | .requestBody =>
    [⟨"contentType", .text, .optional, .plain⟩,
      ⟨"replacements", .items, .optional, .items .replacement⟩,
      ⟨"payload", .any, .optional, .plain⟩]
  | .replacement =>
    [⟨"target", .text, .required, .plain⟩,
      ⟨"value", .any, .required, .plain⟩]
  | .criterion =>
    [⟨"context", .text, .optional, .plain⟩,
      ⟨"condition", .text, .required, .plain⟩,
      ⟨"type", .textOrMembers, .optional, .part .dialect⟩]
  | .dialect =>
    [⟨"type", .text, .required, .plain⟩,
      ⟨"version", .version, .required, .plain⟩]
  | .successAction =>
    [⟨"name", .text, .required, .plain⟩,
      ⟨"type", .text, .required, .plain⟩,
      ⟨"workflowId", .text, .optional, .plain⟩,
      ⟨"stepId", .text, .optional, .plain⟩,
      ⟨"criteria", .items, .optional, .items .criterion⟩]
  | .failureAction =>
    [⟨"name", .text, .required, .plain⟩,
      ⟨"type", .text, .required, .plain⟩,
      ⟨"workflowId", .text, .optional, .plain⟩,
      ⟨"stepId", .text, .optional, .plain⟩,
      ⟨"retryAfter", .number, .optional, .plain⟩,
      ⟨"retryLimit", .smallNat, .optional, .plain⟩,
      ⟨"criteria", .items, .optional, .items .criterion⟩]
  | .components =>
    [⟨"inputs", .members, .optional, .plain⟩,
      ⟨"parameters", .members, .optional, .entries .parameter⟩,
      ⟨"successActions", .members, .optional, .entries .successAction⟩,
      ⟨"failureActions", .members, .optional, .entries .failureAction⟩]

def keys (kind : ObjectKind) : List String := kind.fields.map (·.key)

def isReferable : ObjectKind → Bool
  | .parameter | .successAction | .failureAction => true
  | _ => false

def openedAs (kind : ObjectKind) (members : Table Json) : ObjectKind :=
  if kind.isReferable && Table.contains "reference" members then .reusable else kind

/-- The one name that a part of the kind can have in its owner. -/
def seat? : ObjectKind → Option String
  | .info => some "info"
  | .components => some "components"
  | .requestBody => some "requestBody"
  | .dialect => some "type"
  | _ => none

end ObjectKind

/-- An object that is read of a value, and how to come to it. -/
inductive Content.Holds : Content → Json → Place → ObjectKind → Table Json → Prop where
  | part {kind : ObjectKind} {members : Table Json} :
    Holds (.part kind) (.obj members) [] kind members
  | item {kind : ObjectKind} {items : List Json} {i : Nat} {members : Table Json}
    (get : items[i]? = some (.obj members)) :
    Holds (.items kind) (.arr items) [.item i] (kind.openedAs members) members
  | entry {kind : ObjectKind} {table : Table Json} {name : String} {members : Table Json}
    (get : Table.get? name table = some (.obj members)) :
    Holds (.entries kind) (.obj table) [.member name] (kind.openedAs members) members

/-- An object of the tree that is read as one of the kind, its place and its members. -/
inductive Opened (tree : Json) : Place → ObjectKind → Table Json → Prop where
  | root {members : Table Json} (is : tree = .obj members) : Opened tree [] .document members
  | within {place suffix : Place} {owner kind : ObjectKind} {members inner : Table Json}
    {field : Field} {value : Json} (opened : Opened tree place owner members)
    (mem : field ∈ owner.fields) (get : Table.get? field.key members = some value)
    (holds : field.content.Holds value suffix kind inner) :
    Opened tree (place ++ .member field.key :: suffix) kind inner

variable {tree value : Json} {place suffix : Place} {kind owner : ObjectKind}
  {members : Table Json} {field : Field} {content : Content}

theorem Content.Holds.follow? (h : content.Holds value suffix kind members) :
    Place.follow? suffix value = some (.obj members) := by
  cases h with
  | part => rfl
  | item get => simpa [Place.follow?, PlaceStep.follow?, Json.asArr?] using get
  | entry get => simpa [Place.follow?, PlaceStep.follow?, Json.get?] using get

theorem Opened.follow? (h : Opened tree place kind members) :
    Place.follow? place tree = some (.obj members) := by
  induction h with
  | root is => exact congrArg some is
  | within opened mem get holds ih =>
    rw [Place.follow?_onward ih, Place.follow?_cons, PlaceStep.follow?, Json.get?, get,
      Option.bind_some, holds.follow?]

theorem Content.Holds.sound (h : content.Holds value suffix kind members) (hsound : value.Sound) :
    Json.Sound (.obj members) := by
  cases h with
  | part => exact hsound
  | item get => exact hsound.items _ (List.mem_of_getElem? get)
  | entry get => exact hsound.get? get

theorem Opened.sound (h : Opened tree place kind members) (hsound : tree.Sound) :
    Json.Sound (.obj members) := by
  induction h with
  | root is => exact is ▸ hsound
  | within opened mem get holds ih => exact holds.sound (ih.get? get)

namespace ObjectKind

theorem nodup_keys (kind : ObjectKind) : kind.keys.Nodup := by
  cases kind <;> decide

theorem extensions_notMem_keys (kind : ObjectKind) : "extensions" ∉ kind.keys := by
  cases kind <;> decide

/-- Only an object that is itself a reference has a member of that name, and nothing is read of
it. -/
theorem plain_of_reference (kind : ObjectKind) : ∀ field ∈ kind.fields,
    field.key = "reference" → field.need = .required ∧ field.content = .plain := by
  cases kind <;> decide

/-- Where an object of the kind can be told to stand: its place and its name there. -/
def Seated (kind : ObjectKind) (location : Place) (key : Option PlaceStep) : Prop :=
  (∀ name ∈ kind.seat?, key = some (.member name)) ∧
    (kind = .document → location = [] ∧ key = none)

theorem seat_of_content (owner : ObjectKind) : ∀ field ∈ owner.fields,
    match field.content with
    | .plain => True
    | .part kind => kind.seat? = some field.key ∧ kind ≠ .document
    | .items kind | .entries kind => kind.seat? = none ∧ kind ≠ .document := by
  cases owner <;> simp [fields, seat?]

theorem openedAs_cases (kind : ObjectKind) (members : Table Json) :
    kind.openedAs members = .reusable ∨ kind.openedAs members = kind := by
  rw [openedAs]
  split
  · exact .inl rfl
  · exact .inr rfl

end ObjectKind

theorem Opened.seated (h : Opened tree place kind members) :
    kind.Seated place.dropLast place.getLast? := by
  cases h with
  | root => exact ⟨by simp [ObjectKind.seat?], fun _ => ⟨rfl, rfl⟩⟩
  | within opened mem get holds =>
    have hseat := ObjectKind.seat_of_content _ _ mem
    have hlisted {listed : ObjectKind} (hfree : listed.seat? = none ∧ listed ≠ .document) :
        (listed.openedAs members).seat? = none ∧ listed.openedAs members ≠ .document := by
      rcases listed.openedAs_cases members with hopened | hopened
      · rw [hopened]
        decide
      · rwa [hopened]
    rename_i field _
    generalize hcontent : field.content = content at hseat holds
    cases holds with
    | part =>
      refine ⟨fun name hname => ?_, fun hdocument => absurd hdocument hseat.2⟩
      rw [hseat.1] at hname
      obtain rfl := Option.some.inj hname
      rw [List.getLast?_concat]
    | item | entry =>
      obtain ⟨hnone, hother⟩ := hlisted hseat
      refine ⟨fun name hname => ?_, fun hdocument => absurd hdocument hother⟩
      rw [hnone] at hname
      cases hname

end Document
end Arazzo
