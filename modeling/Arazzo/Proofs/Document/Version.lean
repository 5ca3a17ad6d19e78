import Arazzo.Proofs.Document.Members
import Arazzo.Proofs.Validation

/-! The version of the specification that a valid document is written for. -/

namespace Arazzo

theorem Decimal.layout_ne_empty (digits : Nat) (scale : Int) : layout digits scale ≠ "" := by
  rw [layout]
  split
  · split
    · simp
    · split <;> simp
  · split <;> simp

theorem Json.Number.render_ne_empty (n : Number) : n.render ≠ "" := by
  cases n with
  | int n =>
    have hdigits (m : Nat) : Nat.repr m ≠ "" := by
      rw [Nat.repr, ne_eq, String.ofList_eq_empty_iff]
      exact Nat.toDigits_ne_nil
    cases n with
    | ofNat m => exact hdigits m
    | negSucc m => simp [render, toString, Int.repr]
  | float x =>
    rw [render, Decimal.render]
    split
    · simp
    · simp [Decimal.layout_ne_empty]

namespace ObjectReader

theorem versionText?_eq_empty {value : Json} (h : versionText? value = some "") :
    value = .str "" := by
  cases value with
  | str s => rw [Option.some.inj h]
  | num n => exact absurd (Option.some.inj h) n.render_ne_empty
  | _ => cases h

/-- A required member that is reported without an error is there, and of the right kind. -/
theorem member?_of_harmless {α : Type} {kind? : Json → Option α} {expected : String}
    {reader : ObjectReader} {key : String}
    (h : Validation.Harmless (reader.member? kind? expected true key).diagnostics) :
    ∃ value found, reader.raw? key = some value ∧ kind? value = some found ∧
      (reader.member? kind? expected true key).value = some found := by
  rw [member?] at h ⊢
  cases hraw : reader.raw? key with
  | none =>
    rw [hraw] at h
    exact absurd (h _ (List.mem_singleton_self _)) (by simp [Diagnostic.isError, Fault.isError])
  | some value =>
    rw [hraw] at h
    cases hkind : kind? value with
    | none =>
      simp only [hkind] at h
      exact absurd (h _ (List.mem_singleton_self _)) (by simp [Diagnostic.isError, Fault.isError])
    | some found => exact ⟨value, found, rfl, hkind, by simp only [hkind]; rfl⟩

end ObjectReader

namespace Document

variable {permitReserved : Bool} {path : Option String} {tree : Json} {d : Document}

open ObjectReader Validation

theorem supported_of_harmless {text : String} (h : Harmless (Validation.version text)) :
    ∃ rest, Text.splitAll '.' text.toList = ['1'] :: ['0'] :: rest := by
  rw [Validation.version] at h
  split at h
  · rename_i first second rest hparts
    have hnumbers := holds_of_harmless_require h
    simp only [Bool.and_eq_true, beq_iff_eq] at hnumbers
    exact ⟨rest, by rw [hparts, hnumbers.1, hnumbers.2]⟩
  · exact absurd (h _ (List.mem_singleton_self _)) (by simp [Diagnostic.isError, Fault.isError])

theorem read_of_valid (h : (parse permitReserved path tree).valid = true) :
    ∃ d, (read? permitReserved path tree).value = some d ∧
      Harmless (read? permitReserved path tree).diagnostics ∧ Harmless d.validate := by
  obtain ⟨hsome, hnone⟩ := Bool.and_eq_true_iff.1 h
  obtain ⟨d, hread⟩ := Option.isSome_iff_exists.1 hsome
  have hread : (read? permitReserved path tree).value = some d := hread
  simp only [parse, hread, Diagnostics.areValid, Option.map_some, Option.getD_some,
    List.any_append, Bool.not_or, Bool.and_eq_true, Bool.not_eq_true', List.any_eq_false,
    Bool.not_eq_true] at hnone
  exact ⟨d, hread, hnone⟩

theorem version_of_read (h : (read? permitReserved path tree).value = some d) :
    ∃ members, tree = .obj members ∧
      d.version = (ObjectReader.version ⟨members, []⟩ "arazzo").value ∧
      ∀ finding ∈ (ObjectReader.version ⟨members, []⟩ "arazzo").diagnostics,
        finding ∈ (read? permitReserved path tree).diagnostics := by
  cases tree with
  | obj members =>
    refine ⟨members, rfl, ?_, fun finding hfinding =>
      List.mem_append_right _ (List.mem_append_left _ hfinding)⟩
    rw [← Option.some.inj h]
    rfl
  | _ => cases h

/-- The version of a valid document is what the tree holds under `arazzo`, a text or a number, and
it is of the line that is supported, `1.0`, unless the text is empty. -/
theorem supported_of_valid (h : (parse permitReserved path tree).valid = true) :
    ∃ d written, (parse permitReserved path tree).document = some d ∧
      tree.get? "arazzo" = some written ∧ versionText? written = some d.version ∧
      (written = .str "" ∨
        ∃ rest, Text.splitAll '.' d.version.toList = ['1'] :: ['0'] :: rest) := by
  obtain ⟨d, hread, hreported, hvalid⟩ := read_of_valid h
  obtain ⟨members, rfl, hversion, hamong⟩ := version_of_read hread
  have hmember : Harmless
      (ObjectReader.member? versionText? "string" true ⟨members, []⟩ "arazzo").diagnostics :=
    fun finding hfinding => hreported finding (hamong finding (List.mem_append_left _ hfinding))
  obtain ⟨written, text, hraw, htext, hvalue⟩ := member?_of_harmless hmember
  have hsame : d.version = text := by
    rw [hversion, ObjectReader.version, Checked.value_bind, Checked.value_pure, hvalue]
    rfl
  refine ⟨d, written, hread, hraw, hsame ▸ htext, ?_⟩
  by_cases hempty : text = ""
  · exact .inl (versionText?_eq_empty (hempty ▸ htext))
  · right
    rw [validate, if_neg (by rwa [hsame, String.isEmpty_iff])] at hvalid
    simp only [harmless_append] at hvalid
    exact supported_of_harmless hvalid.1.1.1.1.1.1.1

def versionedTree (version : Json) : Json :=
  .obj [("arazzo", version),
    ("info", .obj [("title", .str "t"), ("version", .str "1")]),
    ("sourceDescriptions", .arr [.obj
      [("name", .str "api"), ("url", .str "https://api.example/openapi.json")]]),
    ("workflows", .arr [.obj
      [("steps", .arr [.obj [("operationId", .str "op"), ("stepId", .str "s")]]),
        ("workflowId", .str "w")]])]

theorem supported_of_valid_number :
    (parse false none (versionedTree (.ofFloat 1.0))).valid = true ∧
      ∃ d written, (parse false none (versionedTree (.ofFloat 1.0))).document = some d ∧
        (versionedTree (.ofFloat 1.0)).get? "arazzo" = some written ∧
        versionText? written = some d.version ∧
        (written = .str "" ∨
          ∃ rest, Text.splitAll '.' d.version.toList = ['1'] :: ['0'] :: rest) := by
  have hvalid : (parse false none (versionedTree (.ofFloat 1.0))).valid = true := by
    decide +kernel
  exact ⟨hvalid, supported_of_valid hvalid⟩

/-- An empty text is taken for a version that is missing, and nothing is said of it. -/
theorem empty_version_valid : ∃ d,
    (parse false none (versionedTree (.str ""))).document = some d ∧
      (parse false none (versionedTree (.str ""))).valid = true ∧
      (parse false none (versionedTree (.str ""))).diagnostics = [] ∧
      d.version = "" ∧ Text.splitAll '.' d.version.toList = [[]] := by
  have hquiet : (parse false none (versionedTree (.str ""))).diagnostics.isEmpty = true := by
    decide
  exact ⟨_, rfl, by decide, List.isEmpty_iff.1 hquiet, rfl, rfl⟩

end Document

end Arazzo
