import Arazzo.Proofs.Leads
import Arazzo.Run.Step

/-! The parameters of a step's request: which of the workflow's are replaced by the step's own. That
is decided by the locations as they are written, before the operation has its say. -/

namespace Arazzo
namespace Request

variable {operation : Operation} {own shared : Parameter}

/-- The two have the same name at the same place of the request. -/
def Counterpart (operation : Operation) (own shared : Parameter) : Prop :=
  own.name = shared.name ∧ locationOf operation own = locationOf operation shared

/-- The two have the same name at different places, one of which is left to the operation. -/
def Mistaken (operation : Operation) (own shared : Parameter) : Prop :=
  own.name = shared.name ∧ (own.location = none ∨ shared.location = none) ∧
    locationOf operation own ≠ locationOf operation shared

instance : Decidable (Counterpart operation own shared) :=
  inferInstanceAs (Decidable (_ ∧ _))

instance : Decidable (Mistaken operation own shared) :=
  inferInstanceAs (Decidable (_ ∧ _ ∧ _))

def defaultLocation (operation : Operation) (name : String) : ParameterLocation :=
  (operation.parameterLocation? name).getD .query

theorem locationOf_of_some {location : ParameterLocation} (h : own.location = some location) :
    locationOf operation own = location := by
  rw [locationOf, h]
  rfl

theorem not_mistaken_of_default
    (hown : locationOf operation own = defaultLocation operation own.name)
    (hshared : locationOf operation shared = defaultLocation operation shared.name) :
    ¬ Mistaken operation own shared := by
  rintro ⟨hname, -, hother⟩
  rw [hown, hshared, hname] at hother
  exact hother rfl

theorem not_mistaken_of_written (hown : own.location.isSome) (hshared : shared.location.isSome) :
    ¬ Mistaken operation own shared := by
  rintro ⟨-, hnone | hnone, -⟩
  · simp [hnone] at hown
  · simp [hnone] at hshared

/-- The step's parameters, behind those of the workflow that have no counterpart among them. -/
def replaceCounterparts (operation : Operation) (own shared : List Parameter) : List Parameter :=
  shared.filter (fun p => ∀ o ∈ own, ¬ Counterpart operation o p) ++ own

end Request

namespace Run

open Request

variable {operation : Operation} {components : Option Components} {w : Workflow} {step : Step}
  {own shared : List Parameter}

theorem shadows_iff (operation : Operation) (o p : Parameter) :
    shadows o p = true ↔ Counterpart operation o p ∨ Mistaken operation o p := by
  have hshadows : shadows o p = true ↔
      o.name = p.name ∧ ((o.location = none ∨ p.location = none) ∨ o.location = p.location) := by
    simp [shadows]
  rw [hshadows, Counterpart, Mistaken, ← and_or_left]
  refine and_congr_right fun _ => ?_
  by_cases hopen : o.location = none ∨ p.location = none
  · simp only [hopen, true_or, true_and, true_iff]
    exact Classical.em _
  · -- Both are written, and stand where they are written to stand.
    obtain ⟨ho, hp⟩ := not_or.1 hopen
    obtain ⟨l, hl⟩ := Option.ne_none_iff_exists'.1 ho
    obtain ⟨l', hl'⟩ := Option.ne_none_iff_exists'.1 hp
    rw [locationOf_of_some hl, locationOf_of_some hl', hl, hl']
    simp

/-- The parameters of both, with every reference followed. -/
structure Resolves (components : Option Components) (w : Workflow) (step : Step)
    (own shared : List Parameter) : Prop where
  own : step.parameters.mapM (Component.resolveParameter components) = .ok own
  shared : w.parameters.mapM (Component.resolveParameter components) = .ok shared

theorem Resolves.effectiveParameters_eq (resolves : Resolves components w step own shared)
    (operation : Operation) :
    effectiveParameters components w step = .ok (shared.filter (fun p =>
      ∀ o ∈ own, ¬ Counterpart operation o p ∧ ¬ Mistaken operation o p) ++ own) := by
  have hkept : shared.filter (fun p => !own.any fun o => shadows o p) =
      shared.filter fun p => ∀ o ∈ own, ¬ Counterpart operation o p ∧ ¬ Mistaken operation o p := by
    refine List.filter_congr fun p _ => ?_
    rw [Bool.eq_iff_iff]
    simp [shadows_iff operation]
  unfold effectiveParameters
  rw [resolves.own, resolves.shared, ← hkept]
  rfl

theorem replaced_eq_iff (operation : Operation) (own shared : List Parameter) :
    shared.filter (fun p => ∀ o ∈ own, ¬ Counterpart operation o p ∧ ¬ Mistaken operation o p) ++
        own = replaceCounterparts operation own shared ↔
      ∀ p ∈ shared, (∃ o ∈ own, Mistaken operation o p) → ∃ o ∈ own, Counterpart operation o p := by
  rw [replaceCounterparts, List.append_left_inj]
  constructor
  · intro hsame p hp ⟨o, ho, hmistaken⟩
    refine Classical.byContradiction fun hnone => ?_
    have hclaimed : p ∈ shared.filter fun p => ∀ o ∈ own, ¬ Counterpart operation o p :=
      List.mem_filter.2 ⟨hp, by simpa using hnone⟩
    rw [← hsame] at hclaimed
    have hkept := of_decide_eq_true (List.mem_filter.1 hclaimed).2
    exact (hkept o ho).2 hmistaken
  · intro h
    refine List.filter_congr fun p hp => ?_
    rw [decide_eq_decide]
    refine ⟨fun hkept o ho => (hkept o ho).1, fun hkept o ho => ⟨hkept o ho, fun hmistaken => ?_⟩⟩
    obtain ⟨o', ho', hcounterpart⟩ := h p hp ⟨o, ho, hmistaken⟩
    exact hkept o' ho' hcounterpart

/--
The request is built from the step's parameters, behind those of the workflow that none of them is
taken to replace. These are the ones without a counterpart, unless one has the name of a parameter of
the step at another place and one of the two leaves its place to the operation. Then it is lost.
-/
theorem prepare_parameters (env : Environment) (registry : Registry) (w : Workflow) (step : Step)
    (operation : Operation) (own shared : List Parameter)
    (hfound : findOperation registry.openapi step = .ok operation)
    (resolves : Resolves registry.document.components w step own shared) :
    ∃ parameters, effectiveParameters registry.document.components w step = .ok parameters ∧
      prepare env registry w step = Stepping.ofResolving RunFault.request (build env.config operation
        (((registry.interface? operation.sourceName).map (·.location)).getD "") parameters
        step.requestBody) ∧
      parameters = shared.filter (fun p =>
        ∀ o ∈ own, ¬ Counterpart operation o p ∧ ¬ Mistaken operation o p) ++ own ∧
      (parameters = replaceCounterparts operation own shared ↔ ∀ p ∈ shared,
        (∃ o ∈ own, Mistaken operation o p) → ∃ o ∈ own, Counterpart operation o p) ∧
      ((∀ p ∈ own ++ shared, p.location.isSome) ∨
          (∀ p ∈ own ++ shared, locationOf operation p = defaultLocation operation p.name) →
        parameters = replaceCounterparts operation own shared) := by
  have hparameters := resolves.effectiveParameters_eq operation
  have hsame := replaced_eq_iff operation own shared
  refine ⟨_, hparameters, ?_, rfl, hsame, fun hplain => hsame.2 ?_⟩
  · unfold prepare
    rw [hfound, hparameters]
    rfl
  · rintro p hp ⟨o, ho, hmistaken⟩
    have ho' : o ∈ own ++ shared := List.mem_append_left _ ho
    have hp' : p ∈ own ++ shared := List.mem_append_right _ hp
    rcases hplain with hwritten | hdefault
    · exact absurd hmistaken (not_mistaken_of_written (hwritten o ho') (hwritten p hp'))
    · exact absurd hmistaken (not_mistaken_of_default (hdefault o ho') (hdefault p hp'))

def petShop : Registry :=
  .mk
    { version := "1.0.1", info := {}, sourceDescriptions := [], workflows := [], components := none,
      extensions := [], sourcePath := none }
    none
    [⟨"api", "api.json",
      .obj [("paths", .obj [("/p/\x7bid\x7d", .obj [("get", .obj
        [("operationId", .str "get"), ("parameters", .arr [.obj
          [("in", .str "path"), ("name", .str "id"), ("required", .bool true)]])])])])]⟩]
    []

def petById : Operation :=
  ⟨"api", none, "GET", "/p/\x7bid\x7d", some "get", [⟨"id", .path, true⟩]⟩

def tag : Parameter := ⟨"id", some .header, .str "tag", []⟩

def tagging : Workflow :=
  { workflowId := "w", summary := none, description := none, inputs := none, dependsOn := []
    steps := [], successActions := [], failureActions := [], outputs := []
    parameters := [.concrete tag], extensions := [] }

def pet (location : Option ParameterLocation) : Parameter := ⟨"id", location, .str "7", []⟩

def petting (location : Option ParameterLocation) : Step :=
  { stepId := "s", operationId := some "get", parameters := [.concrete (pet location)] }

theorem findOperation_petting (location : Option ParameterLocation) :
    findOperation petShop.openapi (petting location) = .ok petById := by
  have hfound : (OpenApi.findById petShop.openapi "get").toOption = some petById := by
    decide +kernel
  show (OpenApi.findById petShop.openapi "get").mapError RunFault.operation = _
  rcases hid : OpenApi.findById petShop.openapi "get" with error | operation
  · simp [hid, Except.toOption] at hfound
  · rw [hid] at hfound
    rw [Option.some.inj hfound]
    rfl

theorem resolves_petting (location : Option ParameterLocation) :
    Resolves petShop.document.components tagging (petting location) [pet location] [tag] :=
  ⟨rfl, rfl⟩

def sentTag (location : Option ParameterLocation) : Option (Option String) :=
  let client : HttpClient := ⟨fun _ _ => { latency := ⟨0⟩, result := .error .timeout }⟩
  let z : Session :=
    { resolver := { document := petShop.document }
      context := { workflowId := "w", inputs := .null } }
  ((prepare { client } petShop tagging (petting location)).run z).1.toOption.map fun built =>
    Table.get? "id" built.request.headers

/-- The step's parameter stands in the path, by the operation's declaration, and yet the workflow's
header is replaced. It is sent where the step writes the same place out. -/
theorem prepare_parameters_loses :
    findOperation petShop.openapi (petting none) = .ok petById ∧
      Resolves petShop.document.components tagging (petting none) [pet none] [tag] ∧
      locationOf petById (pet none) = .path ∧ locationOf petById tag = .header ∧
      ¬ Counterpart petById (pet none) tag ∧
      effectiveParameters petShop.document.components tagging (petting none) = .ok [pet none] ∧
      tag ∉ [pet none] ∧ sentTag none = some none ∧ sentTag (some .path) = some (some "tag") := by
  refine ⟨findOperation_petting none, resolves_petting none, by decide, by decide, by decide, rfl, ?_,
    by decide +kernel, by decide +kernel⟩
  simp [tag, pet]

theorem prepare_parameters_written :
    findOperation petShop.openapi (petting (some .path)) = .ok petById ∧
      Resolves petShop.document.components tagging (petting (some .path)) [pet (some .path)] [tag] ∧
      effectiveParameters petShop.document.components tagging (petting (some .path)) =
        .ok (replaceCounterparts petById [pet (some .path)] [tag]) ∧
      replaceCounterparts petById [pet (some .path)] [tag] = [tag, pet (some .path)] := by
  have hfound := findOperation_petting (some .path)
  have resolves := resolves_petting (some .path)
  let client : HttpClient := ⟨fun _ _ => { latency := ⟨0⟩, result := .error .timeout }⟩
  obtain ⟨parameters, hparameters, -, -, -, hsame⟩ :=
    prepare_parameters { client } petShop tagging (petting (some .path)) petById _ _ hfound resolves
  refine ⟨hfound, resolves, ?_, rfl⟩
  rw [hparameters, hsame (.inl ?_)]
  simp [tag, pet]

end Run
end Arazzo
