import Arazzo.Proofs.Document.Exchange

/-! The readers of objects, field by field: each reads its fields one after another and then, once,
the extensions. -/

namespace Arazzo

namespace Document

open ObjectReader
open Checked (Exchanges)

variable (permitReserved : Bool) (sourcePath : Option String)

namespace ObjectKind

abbrev Result : ObjectKind → Type
  | .document => Document
  | .info => Info
  | .source => SourceDescription
  | .workflow => Workflow
  | .step => Step
  | .parameter => Parameter
  | .reusable => Reusable
  | .requestBody => RequestBody
  | .replacement => Replacement
  | .criterion => Criterion
  | .dialect => QueryDialect
  | .successAction => SuccessAction
  | .failureAction => FailureAction
  | .components => Components

def read : (kind : ObjectKind) → ItemReader kind.Result
  | .document => fun value _ _ => read? permitReserved sourcePath value
  | .info => fun value location _ => readInfo permitReserved value location
  | .source => readSource permitReserved
  | .workflow => readWorkflow permitReserved
  | .step => readStep permitReserved
  | .parameter => readParameter permitReserved
  | .reusable => readReusable permitReserved
  | .requestBody => fun value location _ => readRequestBody permitReserved value location
  | .replacement => readReplacement permitReserved
  | .criterion => readCriterion permitReserved
  | .dialect => fun value location _ => readDialect permitReserved value location
  | .successAction => readSuccessAction permitReserved
  | .failureAction => readFailureAction permitReserved
  | .components => fun value location _ => readComponents permitReserved value location

def readAt (kind : ObjectKind) (place : Place) (members : Table Json) :
    Checked (Option kind.Result) :=
  kind.read permitReserved sourcePath (.obj members) place.dropLast place.getLast?

theorem readAt_concat (kind : ObjectKind) (place : Place) (step : PlaceStep)
    (members : Table Json) : kind.readAt permitReserved sourcePath (place ++ [step]) members =
      kind.read permitReserved sourcePath (.obj members) place (some step) := by
  rw [readAt, List.dropLast_concat, List.getLast?_concat]

end ObjectKind

/--
What is read of one field of an object at the location. It depends on that member alone. A value of
the wrong kind is reported and otherwise counts as none. What changes inside an object that is read
of the field changes here.
-/
structure Fits (location : Place) (field : Field) {α : Type} (work : Table Json → Checked α) :
    Prop where
  only : ∀ {members members' : Table Json},
    Table.get? field.key members = Table.get? field.key members' → work members = work members'
  refuses : ∀ {members members' : Table Json} {value : Json}, field.need = .optional →
    Table.get? field.key members = some value → field.form.admits value = false →
    Table.get? field.key members' = none →
    Exchanges [⟨.wrongKind field.form.name false, location, some (.member field.key)⟩] []
      (work members) (work members')
  passes : ∀ {members members' : Table Json} {value : Json} {suffix : Place} {kind : ObjectKind}
    {inner inner' : Table Json} {old new : List Diagnostic},
    value.Sound → Table.get? field.key members = some value →
    field.content.Holds value suffix kind inner →
    Table.get? field.key members' = some (Place.put (.obj inner') suffix value) →
    Table.contains "reference" inner = Table.contains "reference" inner' →
    Exchanges old new
      (kind.readAt permitReserved sourcePath (location ++ .member field.key :: suffix) inner)
      (kind.readAt permitReserved sourcePath (location ++ .member field.key :: suffix) inner') →
    Exchanges old new (work members) (work members')

variable {permitReserved : Bool} {sourcePath : Option String} {location : Place} {α β : Type}
  {field : Field} {key : String} {form : Form} {need : Need} {kind : ObjectKind}

theorem Fits.bind {first : Table Json → Checked β}
    (h : Fits permitReserved sourcePath location field first) (next : β → Checked α) :
    Fits permitReserved sourcePath location field fun members => first members >>= next where
  only := fun hget => by rw [h.only hget]
  refuses := fun hneed hget hform hnone => (h.refuses hneed hget hform hnone).bind_left next
  passes := fun hsound hget hholds hget' hsame hinner =>
    (h.passes hsound hget hholds hget' hsame hinner).bind_left next

theorem member?_congr {kind? : Json → Option α} {expected : String} {required : Bool}
    {members members' : Table Json} (h : Table.get? key members = Table.get? key members') :
    member? kind? expected required ⟨members, location⟩ key =
      member? kind? expected required ⟨members', location⟩ key := by
  simp only [member?, raw?, h, ObjectReader.report]

theorem fits_member {kind? : Json → Option α} {expected : String} {required : Bool} (key : String)
    (hform : ∀ value, form.admits value = (kind? value).isSome)
    (hneed : need = .optional → required = false ∧ expected = form.name) :
    Fits permitReserved sourcePath location ⟨key, form, need, .plain⟩ fun members =>
      member? kind? expected required ⟨members, location⟩ key where
  only := member?_congr
  refuses := fun {members members' value} hoptional hget hwrong hnone => by
    obtain ⟨rfl, rfl⟩ := hneed hoptional
    have hkind : kind? value = none := by
      rw [← Option.not_isSome_iff_eq_none, ← hform value]
      exact Bool.eq_false_iff.1 hwrong
    have hraw : raw? ⟨members, location⟩ key = some value := hget
    have habsent : raw? ⟨members', location⟩ key = none := hnone
    rw [member?_eq_none habsent, member?, hraw]
    simp only [hkind]
    exact ⟨rfl, [], [], rfl, rfl⟩
  passes := fun _ _ hholds => nomatch hholds

theorem fits_demandedText (key : String) :
    Fits permitReserved sourcePath location ⟨key, .text, .required, .plain⟩ fun members =>
      member? Json.asStr? "string" true ⟨members, location⟩ key :=
  fits_member key (fun _ => rfl) nofun

theorem fits_requiredText (key : String) :
    Fits permitReserved sourcePath location ⟨key, .text, .required, .plain⟩ fun members =>
      requiredText ⟨members, location⟩ key :=
  (fits_demandedText key).bind _

theorem fits_optionalText (key : String) :
    Fits permitReserved sourcePath location ⟨key, .text, .optional, .plain⟩ fun members =>
      optionalText ⟨members, location⟩ key :=
  fits_member key (fun _ => rfl) fun _ => ⟨rfl, rfl⟩

theorem fits_version (key : String) :
    Fits permitReserved sourcePath location ⟨key, .version, .required, .plain⟩ fun members =>
      ObjectReader.version ⟨members, location⟩ key := by
  have hform (value : Json) : Form.version.admits value = (versionText? value).isSome := by
    cases value <;> rfl
  exact (fits_member key hform (by nofun)).bind _

theorem fits_required (key : String) :
    Fits permitReserved sourcePath location ⟨key, .any, .required, .plain⟩ fun members =>
      required? ⟨members, location⟩ key :=
  fits_member key (fun _ => rfl) (by nofun)

theorem fits_optionalNumber (key : String) :
    Fits permitReserved sourcePath location ⟨key, .number, .optional, .plain⟩ fun members =>
      optionalNumber ⟨members, location⟩ key :=
  fits_member key (fun _ => (Option.isSome_map).symm) fun _ => ⟨rfl, rfl⟩

theorem fits_optionalNat (key : String) :
    Fits permitReserved sourcePath location ⟨key, .smallNat, .optional, .plain⟩ fun members =>
      optionalNat ⟨members, location⟩ key := by
  have hform (value : Json) : Form.smallNat.admits value = (smallNat? value).isSome := by
    rw [Form.admits, smallNat?]
    cases value.asNat? with
    | none => rfl
    | some n => by_cases hn : n < Nat.pow 2 32 <;> simp [hn]
  exact fits_member key hform fun _ => ⟨rfl, rfl⟩

theorem fits_optionalMembers (key : String) :
    Fits permitReserved sourcePath location ⟨key, .members, .optional, .plain⟩ fun members =>
      optionalMembers ⟨members, location⟩ key :=
  fits_member key (fun _ => rfl) fun _ => ⟨rfl, rfl⟩

theorem fits_optionalKeyword (key : String) (ofKeyword? : String → Option α)
    (reason : String → String) :
    Fits permitReserved sourcePath location ⟨key, .text, .optional, .plain⟩ fun members =>
      optionalKeyword ⟨members, location⟩ key ofKeyword? reason := by
  -- Once the text is there, the other members play no part.
  have hbind (members : Table Json) : optionalKeyword ⟨members, location⟩ key ofKeyword? reason =
      optionalText ⟨members, location⟩ key >>= fun found =>
        found.elim (pure none) (readKeyword ⟨[], location⟩ key ofKeyword? reason) := by
    unfold optionalKeyword
    exact congrArg _ (funext fun found => by cases found <;> rfl)
  simp only [hbind]
  exact (fits_optionalText key).bind _

variable (permitReserved sourcePath kind) in
def ReadsItems (read : ItemReader α) : Prop :=
  ∀ {place : Place} {step : PlaceStep} {inner inner' : Table Json} {old new : List Diagnostic},
    Table.contains "reference" inner = Table.contains "reference" inner' →
    Exchanges old new
      ((kind.openedAs inner).readAt permitReserved sourcePath (place ++ [step]) inner)
      ((kind.openedAs inner).readAt permitReserved sourcePath (place ++ [step]) inner') →
    Exchanges old new (read (.obj inner) place (some step)) (read (.obj inner') place (some step))

theorem readsItems_self (h : kind.isReferable = false) :
    ReadsItems permitReserved sourcePath kind (kind.read permitReserved sourcePath) := by
  intro place step inner inner' old new hsame hinner
  have hopened : kind.openedAs inner = kind := by
    rw [ObjectKind.openedAs, h]
    rfl
  rwa [hopened, ObjectKind.readAt_concat, ObjectKind.readAt_concat] at hinner

theorem readsItems_entry (h : kind.isReferable = true) : ReadsItems permitReserved sourcePath kind
    (readEntry permitReserved (kind.read permitReserved sourcePath)) := by
  intro place step inner inner' old new hsame hinner
  have hreusable (members : Table Json) :
      isReusable (.obj members) = Table.contains "reference" members := rfl
  rw [readEntry, readEntry, hreusable, hreusable, ← hsame]
  split
  · rename_i hreference
    have hopened : kind.openedAs inner = .reusable := by
      rw [ObjectKind.openedAs, h, hreference]
      rfl
    rw [hopened, ObjectKind.readAt_concat, ObjectKind.readAt_concat] at hinner
    exact hinner.bind_left _
  · rename_i hreference
    have hopened : kind.openedAs inner = kind := by
      rw [ObjectKind.openedAs, h, Bool.eq_false_iff.2 hreference]
      rfl
    rw [hopened, ObjectKind.readAt_concat, ObjectKind.readAt_concat] at hinner
    exact hinner.bind_left _

def readItems? (read : ItemReader α) (place : Place) : Option (List Json) → Checked (List α)
  | some items => readItems read place 0 items
  | none => pure []

def readEntries? (read : ItemReader α) (place : Place) : Option (Table Json) → Checked (Table α)
  | some members => readEntries read place members
  | none => pure []

variable {content : Content}

theorem fits_items {read : ItemReader α} {required : Bool} (key : String)
    (hneed : need = .optional → required = false)
    (hread : ∀ kind, content = .items kind → ReadsItems permitReserved sourcePath kind read)
    (hcontent : content = .plain ∨ ∃ kind, content = .items kind) :
    Fits permitReserved sourcePath location ⟨key, .items, need, content⟩ fun members =>
      member? Json.asArr? "array" required ⟨members, location⟩ key >>=
        readItems? read (location ++ [.member key]) := by
  have hplain : Fits permitReserved sourcePath location ⟨key, .items, need, .plain⟩ fun members =>
      member? Json.asArr? "array" required ⟨members, location⟩ key >>=
        readItems? read (location ++ [.member key]) :=
    (fits_member key (fun _ => rfl) fun hoptional => ⟨hneed hoptional, rfl⟩).bind _
  refine ⟨hplain.only, hplain.refuses, ?_⟩
  intro members members' value suffix kind inner inner' old new hsound hget hholds hget' hsame hinner
  obtain rfl | ⟨listed, rfl⟩ := hcontent
  · cases hholds
  · cases hholds with
    | @item _ items i _ hitem =>
      rw [Place.put_item hitem] at hget'
      have hfirst : member? Json.asArr? "array" required ⟨members, location⟩ key =
          ⟨some items, []⟩ := member?_eq_some rfl hget
      have hsecond : member? Json.asArr? "array" required ⟨members', location⟩ key =
          ⟨some (items.set i (.obj inner')), []⟩ := member?_eq_some rfl hget'
      have hplace : location ++ [.member key, .item i] = location ++ [.member key] ++ [.item i] := by
        simp
      rw [hplace] at hinner
      rw [hfirst, hsecond, Checked.clean_bind, Checked.clean_bind]
      refine exchanges_readItems hitem 0 ?_
      rw [Nat.zero_add]
      exact hread listed rfl hsame hinner

theorem fits_entries {read : ItemReader α} (key : String)
    (hread : ∀ kind, content = .entries kind → ReadsItems permitReserved sourcePath kind read)
    (hcontent : content = .plain ∨ ∃ kind, content = .entries kind) :
    Fits permitReserved sourcePath location ⟨key, .members, .optional, content⟩ fun members =>
      optionalTable read ⟨members, location⟩ key := by
  have hplain : Fits permitReserved sourcePath location ⟨key, .members, .optional, .plain⟩
      fun members => optionalTable read ⟨members, location⟩ key :=
    (fits_optionalMembers key).bind (readEntries? read (location ++ [.member key]))
  refine ⟨hplain.only, hplain.refuses, ?_⟩
  intro members members' value suffix kind inner inner' old new hsound hget hholds hget' hsame hinner
  obtain rfl | ⟨listed, rfl⟩ := hcontent
  · cases hholds
  · cases hholds with
    | @entry _ table name _ hentry =>
      rw [Place.put_member hentry] at hget'
      obtain ⟨before, after, htable, hinsert⟩ := hsound.ascending.insert_present hentry
      rw [hinsert, Place.put] at hget'
      have hfirst : optionalMembers ⟨members, location⟩ key =
          ⟨some (before ++ (name, .obj inner) :: after), []⟩ :=
        member?_eq_some rfl (htable ▸ hget)
      have hsecond : optionalMembers ⟨members', location⟩ key =
          ⟨some (before ++ (name, .obj inner') :: after), []⟩ := member?_eq_some rfl hget'
      have hplace : location ++ [.member key, .member name] =
          location ++ [.member key] ++ [.member name] := by
        simp
      rw [hplace] at hinner
      rw [optionalTable, optionalTable, hfirst, hsecond, Checked.clean_bind, Checked.clean_bind]
      exact exchanges_readEntries before after (hread listed rfl hsame hinner)

theorem fits_texts (key : String) :
    Fits permitReserved sourcePath location ⟨key, .items, .optional, .plain⟩ fun members =>
      optionalList readText ⟨members, location⟩ key :=
  fits_items key (fun _ => rfl) nofun (.inl rfl)

theorem fits_optionalList {read : ItemReader α} (kind : ObjectKind) (key : String)
    (hread : ReadsItems permitReserved sourcePath kind read) :
    Fits permitReserved sourcePath location ⟨key, .items, .optional, .items kind⟩ fun members =>
      optionalList read ⟨members, location⟩ key :=
  fits_items key (fun _ => rfl) (fun _ hkind => Content.items.inj hkind ▸ hread) (.inr ⟨kind, rfl⟩)

theorem fits_requiredList {read : ItemReader α} (kind : ObjectKind) (key : String)
    (hread : ReadsItems permitReserved sourcePath kind read) :
    Fits permitReserved sourcePath location ⟨key, .items, .required, .items kind⟩ fun members =>
      requiredList read ⟨members, location⟩ key :=
  fits_items key nofun (fun _ hkind => Content.items.inj hkind ▸ hread) (.inr ⟨kind, rfl⟩)

theorem fits_plainTable (read : ItemReader α) (key : String) :
    Fits permitReserved sourcePath location ⟨key, .members, .optional, .plain⟩ fun members =>
      optionalTable read ⟨members, location⟩ key :=
  fits_entries key nofun (.inl rfl)

theorem fits_optionalTable {read : ItemReader α} (kind : ObjectKind) (key : String)
    (hread : ReadsItems permitReserved sourcePath kind read) :
    Fits permitReserved sourcePath location ⟨key, .members, .optional, .entries kind⟩ fun members =>
      optionalTable read ⟨members, location⟩ key :=
  fits_entries key (fun _ hkind => Content.entries.inj hkind ▸ hread) (.inr ⟨kind, rfl⟩)

theorem exchanges_part {read : Json → Place → Checked (Option kind.Result)}
    (hread : ∀ value location key,
      kind.read permitReserved sourcePath value location key = read value location)
    {value value' : Json} {suffix : Place} {inner inner' : Table Json} {inside : ObjectKind}
    {old new : List Diagnostic} (hholds : (Content.part kind).Holds value suffix inside inner)
    (hvalue : value' = Place.put (.obj inner') suffix value)
    (hinner : Exchanges old new
      (inside.readAt permitReserved sourcePath (location ++ .member key :: suffix) inner)
      (inside.readAt permitReserved sourcePath (location ++ .member key :: suffix) inner')) :
    Exchanges old new (read value location) (read value' location) := by
  subst hvalue
  cases hholds with
  | part =>
    rwa [ObjectKind.readAt_concat, ObjectKind.readAt_concat, hread, hread] at hinner

theorem fits_optionalPart (kind : ObjectKind) {read : Json → Place → Checked (Option kind.Result)}
    (key : String)
    (hread : ∀ value location key,
      kind.read permitReserved sourcePath value location key = read value location)
    (hwrong : ∀ value, value.isObj = false →
      read value location = ⟨none, [⟨.wrongKind "object" false, location, some (.member key)⟩]⟩) :
    Fits permitReserved sourcePath location ⟨key, .members, .optional, .part kind⟩ fun members =>
      optionalPart read ⟨members, location⟩ key where
  only := fun {members members'} hget => by
    have hget : Table.get? key members = Table.get? key members' := hget
    rw [optionalPart, optionalPart, raw?, raw?, hget]
  refuses := fun {members members' value} _ hget hform hnone => by
    have hget : Table.get? key members = some value := hget
    have hnone : Table.get? key members' = none := hnone
    rw [optionalPart, optionalPart, raw?, raw?, hget, hnone]
    simp only [hwrong value hform]
    exact ⟨rfl, [], [], rfl, rfl⟩
  passes := fun {members members' value suffix _ _ inner'} _ _ hsound hget hholds hget' _ hinner => by
    have hget : Table.get? key members = some value := hget
    have hget' : Table.get? key members' = some (Place.put (.obj inner') suffix value) := hget'
    rw [optionalPart, optionalPart, raw?, raw?, hget, hget']
    exact exchanges_part hread hholds rfl hinner

theorem fits_requiredPart (kind : ObjectKind) {read : Json → Place → Checked (Option kind.Result)}
    (key : String)
    (hread : ∀ value location key,
      kind.read permitReserved sourcePath value location key = read value location) :
    Fits permitReserved sourcePath location ⟨key, .members, .required, .part kind⟩ fun members =>
      requiredPart read ⟨members, location⟩ key where
  only := fun {members members'} hget => by
    have hrequired : required? ⟨members, location⟩ key = required? ⟨members', location⟩ key :=
      member?_congr hget
    rw [requiredPart, requiredPart, hrequired]
  refuses := nofun
  passes := fun {members members' value suffix _ _ inner'} _ _ hsound hget hholds hget' _ hinner => by
    have hfirst : required? ⟨members, location⟩ key = ⟨some value, []⟩ := required?_written hget
    have hsecond : required? ⟨members', location⟩ key =
        ⟨some (Place.put (.obj inner') suffix value), []⟩ := required?_written hget'
    rw [requiredPart, requiredPart, hfirst, hsecond, Checked.clean_bind, Checked.clean_bind]
    exact exchanges_part hread hholds rfl hinner

theorem readDialect_placed (value : Json) (location : Place) (key : Option PlaceStep) :
    ObjectKind.dialect.read permitReserved sourcePath value location key =
      readDialect permitReserved value location := rfl

theorem fits_criterionType :
    Fits permitReserved sourcePath location ⟨"type", .textOrMembers, .optional, .part .dialect⟩
      fun members => readCriterionType permitReserved ⟨members, location⟩ where
  only := fun {members members'} hget => by
    have hget : Table.get? "type" members = Table.get? "type" members' := hget
    rw [readCriterionType, readCriterionType, raw?, raw?, hget]
    rfl
  refuses := fun {members members' value} _ hget hwrong hnone => by
    have hget : Table.get? "type" members = some value := hget
    have hnone : Table.get? "type" members' = none := hnone
    rw [readCriterionType, readCriterionType, raw?, raw?, hget, hnone]
    cases value with
    | str text => cases hwrong
    | obj inner => cases hwrong
    | _ => exact ⟨rfl, [], [], rfl, rfl⟩
  passes := fun {members members' value suffix _ inner inner'} _ _ hsound hget hholds hget' _
      hinner => by
    have hget : Table.get? "type" members = some value := hget
    have hget' : Table.get? "type" members' = some (Place.put (.obj inner') suffix value) := hget'
    have hdialect := exchanges_part readDialect_placed hholds rfl hinner
    cases hholds with
    | part =>
      rw [readCriterionType, readCriterionType, raw?, raw?, hget, hget']
      exact hdialect.bind_left _

/-! Whole objects -/

variable (permitReserved sourcePath location) in
/--
The reader of an object reads the fields one after another, then the extensions, once, and then uses
nothing but members of any form that need not be read. `keys` are the names that the members may
have.
-/
inductive InTurn (keys : List String) {α : Type} : List Field → (Table Json → Checked α) → Prop where
  | extensions {fields : List Field} {allowed : List String}
    {rest : Table Json → Extensions → Checked α} (perm : allowed.Perm keys)
    (free : ∀ field ∈ fields, field.form = .any ∧ field.content = .plain)
    (rest_congr : ∀ {members members' : Table Json},
      (∀ field ∈ fields, Table.get? field.key members = Table.get? field.key members') →
      rest members = rest members') :
    InTurn keys fields fun members =>
      ObjectReader.extensions permitReserved allowed ⟨members, location⟩ >>= rest members
  | field {β : Type} {field : Field} {fields : List Field} {first : Table Json → Checked β}
    {next : β → Table Json → Checked α} (fits : Fits permitReserved sourcePath location field first)
    (inTurn : ∀ found, InTurn keys fields (next found)) :
    InTurn keys (field :: fields) fun members => first members >>= fun found => next found members

variable {keys : List String} {fields : List Field} {body : Table Json → Checked α}
  {members members' : Table Json} {old new : List Diagnostic}

theorem InTurn.congr (h : InTurn permitReserved sourcePath location keys fields body)
    (hget : ∀ field ∈ fields, Table.get? field.key members = Table.get? field.key members')
    (hext : ∀ {allowed : List String}, allowed.Perm keys →
      ObjectReader.extensions permitReserved allowed ⟨members, location⟩ =
        ObjectReader.extensions permitReserved allowed ⟨members', location⟩) :
    body members = body members' := by
  induction h with
  | extensions perm free rest_congr =>
    beta_reduce
    rw [hext perm, rest_congr hget]
  | field fits inTurn ih =>
    obtain ⟨hfirst, hrest⟩ := List.forall_mem_cons.1 hget
    beta_reduce
    rw [fits.only hfirst]
    exact congrArg _ (funext fun found => ih found hrest)

theorem InTurn.exchanges_extensions (h : InTurn permitReserved sourcePath location keys fields body)
    (hget : ∀ field ∈ fields, Table.get? field.key members = Table.get? field.key members')
    (hext : ∀ {allowed : List String}, allowed.Perm keys → Exchanges old new
      (ObjectReader.extensions permitReserved allowed ⟨members, location⟩)
      (ObjectReader.extensions permitReserved allowed ⟨members', location⟩)) :
    Exchanges old new (body members) (body members') := by
  induction h with
  | extensions perm free rest_congr =>
    beta_reduce
    rw [rest_congr hget]
    exact (hext perm).bind_left _
  | field fits inTurn ih =>
    obtain ⟨hfirst, hrest⟩ := List.forall_mem_cons.1 hget
    beta_reduce
    rw [fits.only hfirst]
    exact .bind_right _ (ih _ hrest)

/-- When one field differs, the readings differ as the readings of that field do. -/
theorem InTurn.exchanges_field (h : InTurn permitReserved sourcePath location keys fields body)
    (hnodup : (fields.map (·.key)).Nodup) (hmem : field ∈ fields)
    (hbusy : ¬ (field.form = .any ∧ field.content = .plain))
    (hget : ∀ other ∈ fields, other.key ≠ field.key →
      Table.get? other.key members = Table.get? other.key members')
    (hext : ∀ {allowed : List String}, allowed.Perm keys →
      ObjectReader.extensions permitReserved allowed ⟨members, location⟩ =
        ObjectReader.extensions permitReserved allowed ⟨members', location⟩)
    (hfield : ∀ {β : Type} {work : Table Json → Checked β},
      Fits permitReserved sourcePath location field work →
      Exchanges old new (work members) (work members')) :
    Exchanges old new (body members) (body members') := by
  induction h with
  | extensions perm free rest_congr => exact absurd (free field hmem) hbusy
  | @field β first fields' work next fits inTurn ih =>
    obtain ⟨hfresh, hrest⟩ := List.nodup_cons.1 hnodup
    obtain ⟨hhead, htail⟩ := List.forall_mem_cons.1 hget
    rcases List.mem_cons.1 hmem with rfl | hlater
    · -- The other fields are the same, so the rest of the reader is.
      have hothers : ∀ other ∈ fields',
          Table.get? other.key members = Table.get? other.key members' := by
        intro other hother
        exact htail other hother fun hsame => hfresh (List.mem_map.2 ⟨other, hother, hsame⟩)
      have hnext : (fun found => next found members) = fun found => next found members' :=
        funext fun found => (inTurn found).congr hothers hext
      beta_reduce
      rw [hnext]
      exact (hfield fits).bind_left _
    · have hne : first.key ≠ field.key := fun hsame =>
        hfresh (List.mem_map.2 ⟨field, hlater, hsame.symm⟩)
      beta_reduce
      rw [fits.only (hhead hne)]
      exact .bind_right _ (ih _ hrest hlater htail)

variable (permitReserved sourcePath)

theorem inTurn_parameter (location : Place) (key : Option PlaceStep) :
    InTurn permitReserved sourcePath (location ++ key.toList) ObjectKind.parameter.keys
      ObjectKind.parameter.fields fun members =>
        readParameter permitReserved (.obj members) location key := by
  simp only [readParameter, open?, Checked.pure_eq, Checked.clean_bind]
  exact .field (fits_requiredText _) fun _ => .field (fits_optionalKeyword _ _ _) fun _ =>
    .field (fits_required _) fun _ => .extensions (by decide) (by decide) fun _ => rfl

theorem inTurn_dialect (location : Place) :
    InTurn permitReserved sourcePath (location ++ [.member "type"]) ObjectKind.dialect.keys
      ObjectKind.dialect.fields fun members =>
        readDialect permitReserved (.obj members) location := by
  simp only [readDialect, open?, Checked.pure_eq, Checked.clean_bind]
  exact .field (fits_demandedText _) fun _ => .field (fits_version _) fun _ =>
    .extensions (by decide) (by decide) fun _ => rfl

theorem inTurn_criterion (location : Place) (key : Option PlaceStep) :
    InTurn permitReserved sourcePath (location ++ key.toList) ObjectKind.criterion.keys
      ObjectKind.criterion.fields fun members =>
        readCriterion permitReserved (.obj members) location key := by
  simp only [readCriterion, open?, Checked.pure_eq, Checked.clean_bind]
  exact .field (fits_optionalText _) fun _ => .field (fits_requiredText _) fun _ =>
    .field fits_criterionType fun _ => .extensions (by decide) (by decide) fun _ => rfl

variable {permitReserved sourcePath} in
theorem fits_actionKind (ofKeyword? : String → Option α) (expected : String) :
    Fits permitReserved sourcePath location ⟨"type", .text, .required, .plain⟩ fun members =>
      readActionKind ⟨members, location⟩ ofKeyword? expected := by
  -- Once the text is there, the other members play no part.
  have hbind (members : Table Json) : readActionKind ⟨members, location⟩ ofKeyword? expected =
      member? Json.asStr? "string" true ⟨members, location⟩ "type" >>= fun found =>
        found.elim (pure none) <| readKeyword ⟨[], location⟩ "type" ofKeyword? fun text =>
          "unknown action type `" ++ text ++ "` (expected " ++ expected ++ ")" := by
    unfold readActionKind
    exact congrArg _ (funext fun found => by cases found <;> rfl)
  simp only [hbind]
  exact (fits_demandedText "type").bind _

variable {permitReserved sourcePath} in
theorem fits_criteria (key : String) :
    Fits permitReserved sourcePath location ⟨key, .items, .optional, .items .criterion⟩
      fun members => optionalList (readCriterion permitReserved) ⟨members, location⟩ key :=
  fits_optionalList _ key (readsItems_self rfl)

variable {permitReserved sourcePath} in
theorem fits_entryList (kind : ObjectKind) (key : String) (h : kind.isReferable = true) :
    Fits permitReserved sourcePath location ⟨key, .items, .optional, .items kind⟩ fun members =>
      optionalList (readEntry permitReserved (kind.read permitReserved sourcePath))
        ⟨members, location⟩ key :=
  fits_optionalList _ key (readsItems_entry h)

variable {permitReserved sourcePath} in
theorem fits_entryTable (kind : ObjectKind) (key : String) (h : kind.isReferable = true) :
    Fits permitReserved sourcePath location ⟨key, .members, .optional, .entries kind⟩ fun members =>
      optionalTable (readEntry permitReserved (kind.read permitReserved sourcePath))
        ⟨members, location⟩ key :=
  fits_optionalTable _ key (readsItems_entry h)

theorem inTurn_successAction (location : Place) (key : Option PlaceStep) :
    InTurn permitReserved sourcePath (location ++ key.toList) ObjectKind.successAction.keys
      ObjectKind.successAction.fields fun members =>
        readSuccessAction permitReserved (.obj members) location key := by
  simp only [readSuccessAction, open?, Checked.pure_eq, Checked.clean_bind]
  exact .field (fits_requiredText _) fun _ => .field (fits_actionKind _ _) fun _ =>
    .field (fits_optionalText _) fun _ => .field (fits_optionalText _) fun _ =>
    .field (fits_criteria _) fun _ => .extensions (by decide) (by decide) fun _ => rfl

theorem inTurn_failureAction (location : Place) (key : Option PlaceStep) :
    InTurn permitReserved sourcePath (location ++ key.toList) ObjectKind.failureAction.keys
      ObjectKind.failureAction.fields fun members =>
        readFailureAction permitReserved (.obj members) location key := by
  simp only [readFailureAction, open?, Checked.pure_eq, Checked.clean_bind]
  exact .field (fits_requiredText _) fun _ => .field (fits_actionKind _ _) fun _ =>
    .field (fits_optionalText _) fun _ => .field (fits_optionalText _) fun _ =>
    .field (fits_optionalNumber _) fun _ => .field (fits_optionalNat _) fun _ =>
    .field (fits_criteria _) fun _ => .extensions (by decide) (by decide) fun _ => rfl

theorem inTurn_replacement (location : Place) (key : Option PlaceStep) :
    InTurn permitReserved sourcePath (location ++ key.toList) ObjectKind.replacement.keys
      ObjectKind.replacement.fields fun members =>
        readReplacement permitReserved (.obj members) location key := by
  simp only [readReplacement, open?, Checked.pure_eq, Checked.clean_bind]
  exact .field (fits_requiredText _) fun _ => .field (fits_required _) fun _ =>
    .extensions (by decide) (by decide) fun _ => rfl

theorem inTurn_requestBody (location : Place) :
    InTurn permitReserved sourcePath (location ++ [.member "requestBody"])
      ObjectKind.requestBody.keys ObjectKind.requestBody.fields fun members =>
        readRequestBody permitReserved (.obj members) location := by
  simp only [readRequestBody, open?, Checked.pure_eq, Checked.clean_bind]
  refine .field (fits_optionalText _) fun _ =>
    .field (fits_optionalList .replacement _ (readsItems_self rfl)) fun _ =>
    .extensions (by decide) (by decide) fun hget => ?_
  have hpayload := hget _ (List.mem_singleton_self _)
  simp only [raw?, hpayload]

theorem inTurn_step (location : Place) (key : Option PlaceStep) :
    InTurn permitReserved sourcePath (location ++ key.toList) ObjectKind.step.keys
      ObjectKind.step.fields fun members =>
        readStep permitReserved (.obj members) location key := by
  simp only [readStep, open?, Checked.pure_eq, Checked.clean_bind]
  exact .field (fits_requiredText _) fun _ => .field (fits_optionalText _) fun _ =>
    .field (fits_optionalText _) fun _ => .field (fits_optionalText _) fun _ =>
    .field (fits_optionalText _) fun _ => .field (fits_entryList .parameter _ rfl) fun _ =>
    .field (fits_optionalPart .requestBody _ (fun _ _ _ => rfl) fun value hwrong => by
      cases value <;> first | rfl | cases hwrong) fun _ =>
    .field (fits_criteria _) fun _ => .field (fits_entryList .successAction _ rfl) fun _ =>
    .field (fits_entryList .failureAction _ rfl) fun _ =>
    .field (fits_plainTable _ _) fun _ => .extensions (by decide) (by decide) fun _ => rfl

theorem inTurn_workflow (location : Place) (key : Option PlaceStep) :
    InTurn permitReserved sourcePath (location ++ key.toList) ObjectKind.workflow.keys
      ObjectKind.workflow.fields fun members =>
        readWorkflow permitReserved (.obj members) location key := by
  simp only [readWorkflow, open?, Checked.pure_eq, Checked.clean_bind]
  exact .field (fits_requiredText _) fun _ => .field (fits_optionalText _) fun _ =>
    .field (fits_optionalText _) fun _ => .field (fits_optionalMembers _) fun _ =>
    .field (fits_texts _) fun _ =>
    .field (fits_requiredList .step _ (readsItems_self rfl)) fun _ =>
    .field (fits_entryList .successAction _ rfl) fun _ =>
    .field (fits_entryList .failureAction _ rfl) fun _ =>
    .field (fits_plainTable _ _) fun _ => .field (fits_entryList .parameter _ rfl) fun _ =>
    .extensions (by decide) (by decide) fun _ => rfl

theorem inTurn_info (location : Place) :
    InTurn permitReserved sourcePath (location ++ [.member "info"]) ObjectKind.info.keys
      ObjectKind.info.fields fun members => readInfo permitReserved (.obj members) location := by
  simp only [readInfo, open?, Checked.pure_eq, Checked.clean_bind]
  exact .field (fits_requiredText _) fun _ => .field (fits_optionalText _) fun _ =>
    .field (fits_optionalText _) fun _ => .field (fits_version _) fun _ =>
    .extensions (by decide) (by decide) fun _ => rfl

theorem inTurn_source (location : Place) (key : Option PlaceStep) :
    InTurn permitReserved sourcePath (location ++ key.toList) ObjectKind.source.keys
      ObjectKind.source.fields fun members =>
        readSource permitReserved (.obj members) location key := by
  simp only [readSource, open?, Checked.pure_eq, Checked.clean_bind]
  exact .field (fits_requiredText _) fun _ => .field (fits_requiredText _) fun _ =>
    .field (fits_optionalKeyword _ _ _) fun _ => .extensions (by decide) (by decide) fun _ => rfl

theorem inTurn_components (location : Place) :
    InTurn permitReserved sourcePath (location ++ [.member "components"])
      ObjectKind.components.keys ObjectKind.components.fields fun members =>
        readComponents permitReserved (.obj members) location := by
  simp only [readComponents, open?, Checked.pure_eq, Checked.clean_bind]
  exact .field (fits_plainTable _ _) fun _ =>
    .field (fits_entryTable .parameter _ rfl) fun _ =>
    .field (fits_entryTable .successAction _ rfl) fun _ =>
    .field (fits_entryTable .failureAction _ rfl) fun _ =>
    .extensions (by decide) (by decide) fun _ => rfl

theorem inTurn_document :
    InTurn permitReserved sourcePath [] ObjectKind.document.keys ObjectKind.document.fields
      fun members => read? permitReserved sourcePath (.obj members) := by
  simp only [read?, open?, Checked.pure_eq, Checked.clean_bind]
  exact .field (fits_version _) fun _ =>
    .field (fits_requiredPart .info _ fun _ _ _ => rfl) fun _ =>
    .field (fits_requiredList .source _ (readsItems_self rfl)) fun _ =>
    .field (fits_requiredList .workflow _ (readsItems_self rfl)) fun _ =>
    .field (fits_optionalPart .components _ (fun _ _ _ => rfl) fun value hwrong => by
      cases value <;> first | rfl | cases hwrong) fun _ =>
    .extensions (by decide) (by decide) fun _ => rfl

end Document

end Arazzo
