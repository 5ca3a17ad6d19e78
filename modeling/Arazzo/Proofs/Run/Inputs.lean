import Arazzo.Proofs.Run.Goto

/-! The inputs that a workflow is run with. Of inputs that are an object, or null, every property that
has a default and is not given gets it, nothing else is added, and the inputs that are required are
there. Any other inputs are taken as they are, whatever is required. -/

namespace Arazzo.Run

variable {d : Document} {workflow : Workflow} {written schema property value inputs result : Json}
  {given filled props members : Table Json} {name : String}

/-- The schema is the one that is written, or the document's component that it refers to. -/
inductive SchemaOf (d : Document) (written : Json) : Json → Prop where
  | inPlace (h : (written.get? "$ref").bind Json.asStr? = none) : SchemaOf d written written
  | component {reference name : String} {c : Components} {schema : Json}
    (href : (written.get? "$ref").bind Json.asStr? = some reference)
    (hparse : ComponentRef.parse reference = .ok ⟨.inputs, name⟩)
    (hcomponents : d.components = some c) (hget : Table.get? name c.inputs = some schema) :
    SchemaOf d written schema

theorem inputSchema_eq_ok_iff :
    inputSchema d written = .ok schema ↔ SchemaOf d written schema := by
  constructor
  · intro h
    unfold inputSchema at h
    split at h
    · rename_i hnone
      obtain rfl := Except.ok.inj h
      exact .inPlace hnone
    rename_i reference href
    split at h
    · cases h
    rename_i target hparse
    split at h
    · cases h
    rename_i hpool
    have hpool : target.pool = .inputs := not_not.1 hpool
    split at h
    · rename_i found hfound
      obtain rfl := Except.ok.inj h
      obtain ⟨c, hc, hget⟩ := Option.bind_eq_some_iff.1 hfound
      have hsame : target = ⟨.inputs, target.name⟩ := by rw [← hpool]
      rw [hsame] at hparse
      exact .component href hparse hc hget
    · cases h
  · intro h
    cases h with
    | inPlace hnone => rw [inputSchema, hnone]
    | component href hparse hcomponents hget =>
      rw [inputSchema, href]
      simp [hparse, hcomponents, hget]

def propertiesOf (schema : Json) : Table Json :=
  ((schema.get? "properties").bind Json.asObj?).getD []

def requiredOf (schema : Json) : List Json :=
  ((schema.get? "required").bind Json.asArr?).getD []

/-- Whatever is no text among what is required does not count. -/
def requiredNames (schema : Json) : List String := (requiredOf schema).filterMap Json.asStr?

def Defaults (schema : Json) (name : String) : Prop :=
  ∃ property value, (name, property) ∈ propertiesOf schema ∧ property.get? "default" = some value

/-- The first default among the properties of that name. -/
def firstDefault? (props : Table Json) (name : String) : Option Json :=
  props.findSome? fun entry => if entry.1 = name then entry.2.get? "default" else none

def withDefault (inputs : Table Json) (entry : String × Json) : Table Json :=
  match Table.contains entry.1 inputs, entry.2.get? "default" with
  | false, some value => Table.insert entry.1 value inputs
  | _, _ => inputs

theorem withDefaults_cons (entry : String × Json) (props inputs : Table Json) :
    withDefaults (entry :: props) inputs = withDefaults props (withDefault inputs entry) := rfl

theorem get?_withDefault (inputs : Table Json) (entry : String × Json) (name : String) :
    Table.get? name (withDefault inputs entry) = (Table.get? name inputs).or
      (if entry.1 = name then entry.2.get? "default" else none) := by
  obtain ⟨key, property⟩ := entry
  unfold withDefault
  dsimp only
  by_cases hkey : key = name
  · subst hkey
    rw [if_pos rfl]
    cases hgiven : Table.get? key inputs with
    | some value => simp [Table.contains, hgiven]
    | none =>
      have habsent : Table.contains key inputs = false := by rw [Table.contains, hgiven]; rfl
      cases hdefault : property.get? "default" with
      | none => simp [hgiven]
      | some value => simp [habsent, Table.get?_insert]
  · rw [if_neg hkey, Option.or_none]
    split
    · rw [Table.get?_insert, if_neg hkey]
    · rfl

theorem get?_withDefaults (props inputs : Table Json) (name : String) :
    Table.get? name (withDefaults props inputs) =
      (Table.get? name inputs).or (firstDefault? props name) := by
  induction props generalizing inputs with
  | nil => exact (Option.or_none).symm
  | cons entry props ih =>
    rw [withDefaults_cons, ih, get?_withDefault, Option.or_assoc, firstDefault?, firstDefault?,
      List.findSome?_cons]
    congr 1
    cases (if entry.1 = name then entry.2.get? "default" else none) <;> rfl

theorem firstDefault?_isSome_iff : (firstDefault? props name).isSome = true ↔
    ∃ property value, (name, property) ∈ props ∧ property.get? "default" = some value := by
  rw [firstDefault?, List.findSome?_isSome_iff]
  constructor
  · rintro ⟨⟨key, property⟩, hmem, hsome⟩
    obtain ⟨value, hvalue⟩ := Option.isSome_iff_exists.1 hsome
    split at hvalue
    · rename_i hkey
      subst hkey
      exact ⟨property, value, hmem, hvalue⟩
    · cases hvalue
  · rintro ⟨property, value, hmem, hvalue⟩
    refine ⟨(name, property), hmem, ?_⟩
    rw [if_pos rfl, hvalue]
    rfl

theorem firstDefault?_of_get? (hget : Table.get? name props = some property)
    (hdefault : property.get? "default" = some value) : firstDefault? props name = some value := by
  induction props with
  | nil => cases hget
  | cons entry props ih =>
    obtain ⟨key, other⟩ := entry
    rw [Table.get?_cons] at hget
    rw [firstDefault?, List.findSome?_cons]
    dsimp only
    split at hget
    · rename_i hkey
      obtain rfl := Option.some.inj hget
      rw [if_pos hkey, hdefault]
    · rename_i hkey
      rw [if_neg hkey]
      exact ih hget

theorem withDefaults_eq_self
    (h : ∀ entry ∈ props, ∀ value, entry.2.get? "default" = some value → entry.1 ∈ Table.keys members) :
    withDefaults props members = members := by
  induction props with
  | nil => rfl
  | cons entry props ih =>
    have hsame : withDefault members entry = members := by
      unfold withDefault
      split
      · rename_i value habsent hdefault
        have hpresent := Table.contains_iff.2 (h entry (List.mem_cons_self ..) value hdefault)
        rw [habsent] at hpresent
        cases hpresent
      · rfl
    rw [withDefaults_cons, hsame]
    exact ih fun other hother => h other (List.mem_cons_of_mem _ hother)

/-- The inputs that are given, and the defaults of those that are not. -/
structure Fills (schema : Json) (given filled : Table Json) : Prop where
  required : ∀ name ∈ requiredNames schema, name ∈ Table.keys filled
  kept : ∀ name value, Table.get? name given = some value → Table.get? name filled = some value
  defaulted : ∀ name property value, name ∉ Table.keys given →
    Table.get? name (propertiesOf schema) = some property → property.get? "default" = some value →
    Table.get? name filled = some value
  nothingElse : ∀ name ∈ Table.keys filled, name ∈ Table.keys given ∨ Defaults schema name

theorem mem_keys_withDefaults : name ∈ Table.keys (withDefaults (propertiesOf schema) given) ↔
    name ∈ Table.keys given ∨ Defaults schema name := by
  rw [← Table.contains_iff, ← Table.contains_iff, Table.contains, get?_withDefaults,
    Option.isSome_or, Bool.or_eq_true, firstDefault?_isSome_iff]
  rfl

theorem missing?_eq_none_iff :
    missing? (requiredOf schema) members = none ↔ ∀ name ∈ requiredNames schema, name ∈ Table.keys members := by
  rw [missing?, List.find?_eq_none]
  refine forall₂_congr fun name _ => ?_
  rw [← Table.contains_iff]
  simp

theorem applySchema_eq (schema : Json) (given : Table Json) :
    applySchema schema given =
      match missing? (requiredOf schema) (withDefaults (propertiesOf schema) given) with
      | some name => .error (.missingInput name)
      | none => .ok (.obj (withDefaults (propertiesOf schema) given)) := rfl

theorem applySchema_eq_ok_iff : applySchema schema given = .ok result ↔
    result = .obj (withDefaults (propertiesOf schema) given) ∧
      ∀ name ∈ requiredNames schema, name ∈ Table.keys given ∨ Defaults schema name := by
  have hrequired : (∀ name ∈ requiredNames schema, name ∈ Table.keys given ∨ Defaults schema name) ↔
      missing? (requiredOf schema) (withDefaults (propertiesOf schema) given) = none := by
    rw [missing?_eq_none_iff]
    exact forall₂_congr fun name _ => mem_keys_withDefaults.symm
  rw [hrequired, applySchema_eq]
  cases missing? (requiredOf schema) (withDefaults (propertiesOf schema) given) with
  | some missing => simp
  | none => simp [eq_comm]

theorem fills_of_applySchema (h : applySchema schema given = .ok result) :
    ∃ filled, result = .obj filled ∧ Fills schema given filled ∧
      applySchema schema filled = .ok result := by
  obtain ⟨rfl, hrequired⟩ := applySchema_eq_ok_iff.1 h
  refine ⟨_, rfl, ⟨fun name hname => ?_, fun name value hgiven => ?_, ?_, fun name => ?_⟩, ?_⟩
  · exact mem_keys_withDefaults.2 (hrequired name hname)
  · rw [get?_withDefaults, hgiven, Option.some_or]
  · intro name property value habsent hget hdefault
    rw [get?_withDefaults, Table.get?_eq_none habsent, Option.none_or]
    exact firstDefault?_of_get? hget hdefault
  · exact mem_keys_withDefaults.1
  · -- A second time every property with a default is there.
    have hsame : withDefaults (propertiesOf schema) (withDefaults (propertiesOf schema) given) =
        withDefaults (propertiesOf schema) given := by
      apply withDefaults_eq_self
      intro entry hentry value hdefault
      exact mem_keys_withDefaults.2 (.inr ⟨entry.2, value, hentry, hdefault⟩)
    refine applySchema_eq_ok_iff.2 ⟨by rw [hsame], fun name hname => .inl ?_⟩
    exact mem_keys_withDefaults.2 (hrequired name hname)

def given? : Json → Option (Table Json)
  | .obj members => some members
  | .null => some []
  | _ => none

theorem prepareInputs_eq (hwritten : workflow.inputs = some written) (inputs : Json) :
    prepareInputs d workflow inputs = (inputSchema d written).bind fun schema =>
      match given? inputs with
      | some given => applySchema schema given
      | none => .ok inputs := by
  rw [prepareInputs, hwritten]
  dsimp only
  cases inputSchema d written with
  | error fault => rfl
  | ok schema => cases inputs <;> rfl

/--
Inputs that are an object, or null, come out with what was given, the defaults of what was not, and
nothing else, and all that is required is there; preparing them again changes nothing. They are refused
only for a required name that is neither given nor has a default. Inputs of any other kind are handed on
as they are, whatever is required.
-/
theorem prepareInputs_fills (hwritten : workflow.inputs = some written) (inputs : Json) :
    (∀ result, prepareInputs d workflow inputs = .ok result →
      prepareInputs d workflow result = .ok result ∧
      ∃ schema, SchemaOf d written schema ∧
        ((∃ given filled, given? inputs = some given ∧ result = .obj filled ∧
            Fills schema given filled) ∨
          given? inputs = none ∧ result = inputs)) ∧
    ∀ schema, SchemaOf d written schema →
      ((∃ result, prepareInputs d workflow inputs = .ok result) ↔
        ∀ given, given? inputs = some given → ∀ name ∈ requiredNames schema,
          name ∈ Table.keys given ∨ Defaults schema name) := by
  constructor
  · intro result h
    have hprepared := h
    rw [prepareInputs_eq hwritten] at h
    obtain ⟨schema, hschema, h⟩ := exists_of_bind_ok h
    cases hgiven : given? inputs with
    | some given =>
      rw [hgiven] at h
      -- What is filled has all its defaults, so that filling it again changes nothing.
      obtain ⟨filled, rfl, fills, hagain⟩ := fills_of_applySchema h
      refine ⟨?_, schema, inputSchema_eq_ok_iff.1 hschema, .inl ⟨given, filled, rfl, rfl, fills⟩⟩
      rw [prepareInputs_eq hwritten, hschema]
      exact hagain
    | none =>
      rw [hgiven] at h
      obtain rfl := Except.ok.inj h
      exact ⟨hprepared, schema, inputSchema_eq_ok_iff.1 hschema, .inr ⟨rfl, rfl⟩⟩
  · intro schema hschema
    rw [prepareInputs_eq hwritten, inputSchema_eq_ok_iff.2 hschema, Except.bind]
    cases hgiven : given? inputs with
    | some given =>
      constructor
      · rintro ⟨result, h⟩ _ ⟨⟩
        exact (applySchema_eq_ok_iff.1 h).2
      · intro hall
        exact ⟨_, applySchema_eq_ok_iff.2 ⟨rfl, hall given rfl⟩⟩
    | none => exact iff_of_true ⟨inputs, rfl⟩ fun given hsome => nomatch hsome

def searchTree : Json :=
  .obj [("arazzo", .str "1.0.1"),
    ("components", .obj [("inputs", .obj [("search", .obj
      [("properties", .obj
        [("limit", .obj [("default", .ofInt 10)]), ("q", .obj [("type", .str "string")])]),
        ("required", .arr [.str "q"])])])]),
    ("info", .obj [("title", .str "t"), ("version", .str "1")]),
    ("sourceDescriptions", .arr [.obj [("name", .str "api"), ("url", .str "api.json")]]),
    ("workflows", .arr [.obj
      [("inputs", .obj [("$ref", .str "#/components/inputs/search")]),
        ("steps", .arr [.obj [("operationId", .str "get"), ("stepId", .str "s")]]),
        ("workflowId", .str "w")]])]

def askedOf (d : Document) : Option (Workflow × Json × Json) :=
  (d.workflow? "w").bind fun w => w.inputs.bind fun written =>
    (inputSchema d written).toOption.map fun schema => (w, written, schema)

theorem asked_of_askedOf {d : Document} {w : Workflow} (h : askedOf d = some (w, written, schema)) :
    d.workflow? "w" = some w ∧ w.inputs = some written ∧ SchemaOf d written schema := by
  obtain ⟨found, hw, h⟩ := Option.bind_eq_some_iff.1 h
  obtain ⟨asked, hwritten, h⟩ := Option.bind_eq_some_iff.1 h
  obtain ⟨found', hschema, h⟩ := Option.map_eq_some_iff.1 h
  cases h
  exact ⟨hw, hwritten, inputSchema_eq_ok_iff.1 (eq_ok_of_toOption hschema)⟩

def isTen : Json → Bool
  | .num (.int n) => n == 10
  | _ => false

theorem eq_of_isTen (h : isTen value = true) : value = .ofInt 10 := by
  unfold isTen at h
  split at h
  · rw [beq_iff_eq.1 h]
    rfl
  · cases h

theorem prepareInputs_fills_search :
    ∃ d w written schema filled, (Document.parse false none searchTree).usable? = some d ∧
      d.workflow? "w" = some w ∧ w.inputs = some written ∧ SchemaOf d written schema ∧
      prepareInputs d w (.obj [("q", .str "cats")]) = .ok (.obj filled) ∧
      "q" ∈ requiredNames schema ∧ "q" ∈ Table.keys filled ∧
      Table.get? "limit" filled = some (.ofInt 10) := by
  have hchecked : (Document.parse false none searchTree).usable?.any (fun d =>
      (askedOf d).any fun (_, _, schema) => requiredNames schema == ["q"] &&
        ((Table.get? "limit" (propertiesOf schema)).bind (·.get? "default")).any isTen) = true := by
    decide +kernel
  obtain ⟨d, hd, hchecked⟩ := (Option.any_eq_true _ _).1 hchecked
  obtain ⟨⟨w, written, schema⟩, hasked, hchecked⟩ := (Option.any_eq_true _ _).1 hchecked
  obtain ⟨hrequired, hlimit⟩ := Bool.and_eq_true_iff.1 hchecked
  obtain ⟨hw, hwritten, hschema⟩ := asked_of_askedOf hasked
  have hrequired : requiredNames schema = ["q"] := beq_iff_eq.1 hrequired
  obtain ⟨value, hvalue, hten⟩ := (Option.any_eq_true _ _).1 hlimit
  obtain ⟨property, hproperty, hdefault⟩ := Option.bind_eq_some_iff.1 hvalue
  obtain ⟨hprepared, haccepted⟩ :=
    prepareInputs_fills (d := d) hwritten (.obj [("q", .str "cats")])
  have hgiven : ∀ given, given? (.obj [("q", .str "cats")]) = some given →
      ∀ name ∈ requiredNames schema, name ∈ Table.keys given ∨ Defaults schema name := by
    rintro _ ⟨⟩ name hname
    rw [hrequired] at hname
    exact .inl hname
  obtain ⟨result, hresult⟩ := (haccepted schema hschema).2 hgiven
  obtain ⟨-, found, hfound, ⟨given, filled, hsome, rfl, fills⟩ | ⟨hnone, -⟩⟩ := hprepared _ hresult
  · obtain rfl := Option.some.inj hsome
    obtain rfl : schema = found := Except.ok.inj
      ((inputSchema_eq_ok_iff.2 hschema).symm.trans (inputSchema_eq_ok_iff.2 hfound))
    have hq : "q" ∈ requiredNames schema := hrequired ▸ List.mem_singleton_self _
    refine ⟨d, w, written, schema, filled, hd, hw, hwritten, hschema, hresult, hq,
      fills.required _ hq, ?_⟩
    rw [← eq_of_isTen hten]
    exact fills.defaulted "limit" property value (by decide) hproperty hdefault
  · cases hnone

def petTree : Json :=
  .obj [("arazzo", .str "1.0.1"),
    ("info", .obj [("title", .str "t"), ("version", .str "1")]),
    ("sourceDescriptions", .arr [.obj [("name", .str "api"), ("url", .str "api.json")]]),
    ("workflows", .arr [.obj
      [("inputs", .obj [("required", .arr [.str "petId"])]),
        ("steps", .arr [.obj [("operationId", .str "get"), ("stepId", .str "s")]]),
        ("workflowId", .str "w")]])]

def runsOnce : Except RunError Report → Bool
  | .ok report => report.steps.length == 1
  | .error _ => false

theorem eq_of_runsOnce {outcome : Except RunError Report} (h : runsOnce outcome = true) :
    ∃ report, outcome = .ok report ∧ report.steps.length = 1 := by
  unfold runsOnce at h
  split at h
  · exact ⟨_, rfl, beq_iff_eq.1 h⟩
  · cases h

/-- A number has no members at all, and yet the step is run. -/
theorem prepareInputs_unchecked :
    (Document.parse false none petTree).diagnostics = [] ∧
      ∃ d w written schema report, (Document.parse false none petTree).usable? = some d ∧
        d.workflow? "w" = some w ∧ w.inputs = some written ∧ SchemaOf d written schema ∧
        "petId" ∈ requiredNames schema ∧
        prepareInputs d w (.ofInt 5) = .ok (.ofInt 5) ∧
        (document { client := promptClient } givenLoader d "w" (.ofInt 5) {}).1 = .ok report ∧
        report.steps.length = 1 := by
  have hquiet : (Document.parse false none petTree).diagnostics.isEmpty = true := by
    decide +kernel
  have hchecked : (Document.parse false none petTree).usable?.any (fun d =>
      ((askedOf d).any fun (_, _, schema) => (requiredNames schema).contains "petId") &&
        runsOnce (document { client := promptClient } givenLoader d "w" (.ofInt 5) {}).1) =
          true := by
    decide +kernel
  obtain ⟨d, hd, hchecked⟩ := (Option.any_eq_true _ _).1 hchecked
  obtain ⟨hasks, hruns⟩ := Bool.and_eq_true_iff.1 hchecked
  obtain ⟨⟨w, written, schema⟩, hasked, hrequired⟩ := (Option.any_eq_true _ _).1 hasks
  obtain ⟨hw, hwritten, hschema⟩ := asked_of_askedOf hasked
  obtain ⟨report, hreport, honce⟩ := eq_of_runsOnce hruns
  refine ⟨List.isEmpty_iff.1 hquiet, d, w, written, schema, report, hd, hw, hwritten, hschema,
    List.contains_iff_mem.1 hrequired, ?_, hreport, honce⟩
  rw [prepareInputs_eq hwritten, inputSchema_eq_ok_iff.2 hschema]
  rfl

end Arazzo.Run
