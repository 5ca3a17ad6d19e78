import Arazzo.Proofs.Leads
import Arazzo.Proofs.Text
import Arazzo.Proofs.Validation
import Arazzo.Run.Step

/-! The texts that are read as paths of operations: a fragment of three names, and before it nothing or
a text that names a source. -/

namespace Arazzo
namespace OpenApi.OperationPath

def opening : List Char := "\x7b$sourceDescriptions.".toList

def closing : List Char := ".url\x7d".toList

def fragmentLead : List Char := "#/paths/".toList

/-- The source that the text before a fragment designates; a blank text designates all of them. -/
inductive Designates : List Char → Option String → Prop where
  | all {before : List Char} (blank : ∀ c ∈ before, Text.isBlank c = true) : Designates before none
  | source {lead name rest : List Char}
      (first : Text.FirstAt opening lead (lead ++ opening ++ (name ++ closing ++ rest)))
      (nonempty : name ≠ []) (undotted : '.' ∉ name) :
      Designates (lead ++ opening ++ (name ++ closing ++ rest)) (some (String.ofList name))

structure Token (token : List Char) : Prop where
  nonempty : token ≠ []
  undivided : '/' ∉ token

/-- The text is written as the path of an operation. -/
inductive Written : List Char → OperationPath → Prop where
  | intro {before path method : List Char} {sourceName : Option String}
      (unmarked : '#' ∉ before) (designates : Designates before sourceName) (hpath : Token path)
      (hmethod : Token method) :
      Written (before ++ fragmentLead ++ (path ++ '/' :: method))
        ⟨sourceName, String.ofList (Pointer.unescapeChars path),
          Text.toLower (String.ofList method)⟩

variable {before rest path method : List Char} {name text : String} {sourceName : Option String}
  {target : OperationPath}

theorem sourceName?_eq_some_iff :
    sourceName? before = some name ↔ Designates before (some name) := by
  have hopening : opening ≠ [] := by decide
  unfold sourceName?
  change (Text.afterFirst? opening before).bind _ = _ ↔ _
  constructor
  · intro h
    obtain ⟨found, hfound, hrest⟩ := Option.bind_eq_some_iff.1 h
    obtain ⟨⟨cs, rest⟩, hsplit, hread⟩ := Option.bind_eq_some_iff.1 hrest
    obtain ⟨lead, hbefore, first⟩ := (Text.afterFirst?_eq_some_iff hopening).1 hfound
    obtain ⟨hcut, undotted⟩ := Text.splitOnce?_eq_some_iff.1 hsplit
    dsimp only at hread
    split at hread
    · cases hread
    · rename_i hcs
      simp only [Bool.or_eq_true, Bool.not_eq_true', not_or, Bool.not_eq_false,
        List.isEmpty_iff] at hcs
      obtain ⟨tail, rfl⟩ := List.isPrefixOf_iff_prefix.1 hcs.2
      obtain rfl := Option.some.inj hread
      have htext : found = cs ++ closing ++ tail := by
        rw [hcut, List.append_assoc]
        rfl
      rw [htext] at hbefore
      rw [hbefore] at first ⊢
      exact .source first hcs.1 undotted
  · rintro ⟨⟩
    rename_i lead cs tail first nonempty undotted
    refine Option.bind_eq_some_iff.2 ⟨cs ++ closing ++ tail,
      (Text.afterFirst?_eq_some_iff hopening).2 ⟨lead, rfl, first⟩, ?_⟩
    refine Option.bind_eq_some_iff.2 ⟨(cs, "url\x7d".toList ++ tail),
      Text.splitOnce?_eq_some_iff.2 ⟨?_, undotted⟩, ?_⟩
    · rw [List.append_assoc]
      rfl
    · have htail : Text.startsWith "url\x7d".toList ("url\x7d".toList ++ tail) = true :=
        List.isPrefixOf_iff_prefix.2 (List.prefix_append ..)
      have hcs : cs.isEmpty = false := by simpa using nonempty
      simp only [hcs, htail, Bool.not_true, Bool.or_self, Bool.false_eq_true, if_false]

theorem not_blank_of_designates (h : Designates before (some name)) :
    ∃ c ∈ before, Text.isBlank c = false := by
  cases h with
  | source first nonempty undotted =>
    have hbrace : '\x7b' ∈ opening := by decide
    exact ⟨'\x7b', List.mem_append_left _ (List.mem_append_right _ hbrace), by decide⟩

theorem designates_iff :
    Designates before sourceName ↔
      sourceName? before = sourceName ∧
        (!(Text.trimChars before).isEmpty && sourceName.isNone) = false := by
  cases sourceName with
  | some name => simp [sourceName?_eq_some_iff]
  | none =>
    have hblank : (!(Text.trimChars before).isEmpty && (none : Option String).isNone) = false ↔
        ∀ c ∈ before, Text.isBlank c = true := by
      simp [Text.trimChars_eq_nil_iff]
    rw [hblank]
    constructor
    · rintro ⟨blank⟩
      refine ⟨Option.eq_none_iff_forall_ne_some.2 fun name hname => ?_, blank⟩
      obtain ⟨c, hc, hnot⟩ := not_blank_of_designates (sourceName?_eq_some_iff.1 hname)
      rw [blank c hc] at hnot
      cases hnot
    · exact fun h => .all h.2

theorem splitAll_fragment :
    Text.splitAll '/' rest = ["paths".toList, path, method] ↔
      rest = "paths/".toList ++ (path ++ '/' :: method) ∧ '/' ∉ path ∧ '/' ∉ method := by
  have hpaths : '/' ∉ "paths".toList := by decide
  constructor
  · intro h
    have hjoin := Text.joinWith_splitAll '/' rest
    rw [h] at hjoin
    have hpath : path ∈ Text.splitAll '/' rest := by simp [h]
    have hmethod : method ∈ Text.splitAll '/' rest := by simp [h]
    refine ⟨?_, Text.not_mem_of_mem_splitAll hpath, Text.not_mem_of_mem_splitAll hmethod⟩
    rw [← hjoin]
    simp [Text.joinWith]
  · rintro ⟨rfl, hpath, hmethod⟩
    change Text.splitAll '/' ("paths".toList ++ '/' :: (path ++ '/' :: method)) = _
    rw [Text.splitAll_append hpaths, Text.splitAll_append hpath, Text.splitAll_of_not_mem hmethod]

def faults : List String :=
  ["expected \x7b$sourceDescriptions.<name>.url\x7d before the fragment",
    "fragment must be a JSON pointer", "pointer must address /paths/<path>/<method>"]

theorem parse_cases (text : String) :
    (∃ target, parse text = .ok target ∧ Written text.toList target) ∨
      ∃ reason, parse text = .error (.badOperationPath text reason) ∧
        ('#' ∈ text.toList → reason ∈ faults) := by
  unfold parse
  dsimp only
  -- Each check of the reader adds a part of `Written`, or ends with its own fault.
  split
  · rename_i hnone
    exact .inr ⟨_, rfl, fun hmark => absurd hmark (Text.splitOnce?_eq_none_iff.1 hnone)⟩
  · rename_i before fragment hsplit
    obtain ⟨htext, unmarked⟩ := Text.splitOnce?_eq_some_iff.1 hsplit
    split
    · exact .inr ⟨_, rfl, fun _ => List.mem_cons_self ..⟩
    · rename_i hsource
      have designates : Designates before (sourceName? before) :=
        designates_iff.2 ⟨rfl, Bool.eq_false_iff.2 hsource⟩
      split
      · split
        · rename_i rest paths path method hparts
          split
          · rename_i hnames
            obtain ⟨rfl, hpath, hmethod⟩ := hnames
            obtain ⟨rfl, hpath', hmethod'⟩ := splitAll_fragment.1 hparts
            have written := Written.intro unmarked designates ⟨by simpa using hpath, hpath'⟩
              ⟨by simpa using hmethod, hmethod'⟩
            have hwhole : text.toList = before ++ fragmentLead ++ (path ++ '/' :: method) := by
              rw [htext, List.append_assoc]
              rfl
            rw [← hwhole] at written
            exact .inl ⟨_, rfl, written⟩
          · exact .inr ⟨_, rfl, fun _ => by simp [faults]⟩
        · exact .inr ⟨_, rfl, fun _ => by simp [faults]⟩
      · exact .inr ⟨_, rfl, fun _ => by simp [faults]⟩

theorem parse_written (h : Written text.toList target) : parse text = .ok target := by
  generalize htext : text.toList = cs at h
  cases h with
  | @intro before path method sourceName unmarked designates hpath hmethod =>
    have hsplit : Text.splitOnce? '#' text.toList =
        some (before, '/' :: ("paths/".toList ++ (path ++ '/' :: method))) := by
      refine Text.splitOnce?_eq_some_iff.2 ⟨?_, unmarked⟩
      rw [htext, List.append_assoc]
      rfl
    obtain ⟨rfl, hsource⟩ := designates_iff.1 designates
    have hparts := splitAll_fragment.2 ⟨rfl, hpath.undivided, hmethod.undivided⟩
    have hnames : (!path.isEmpty) = true ∧ (!method.isEmpty) = true :=
      ⟨by simpa using hpath.nonempty, by simpa using hmethod.nonempty⟩
    unfold parse
    simp only [hsplit, hsource, hparts, true_and, if_pos hnames, Bool.false_eq_true, if_false]
    rfl

theorem parse_eq_ok_iff : parse text = .ok target ↔ Written text.toList target := by
  refine ⟨fun h => ?_, parse_written⟩
  obtain ⟨other, hok, written⟩ | ⟨reason, herror, -⟩ := parse_cases text
  · rw [hok] at h
    exact Except.ok.inj h ▸ written
  · rw [herror] at h
    cases h

theorem parse_of_unwritten (hmark : '#' ∈ text.toList)
    (h : ∀ target, ¬ Written text.toList target) :
    ∃ reason ∈ faults, parse text = .error (.badOperationPath text reason) := by
  obtain ⟨target, -, written⟩ | ⟨reason, herror, hreason⟩ := parse_cases text
  · exact absurd written (h target)
  · exact ⟨reason, hreason hmark, herror⟩

end OpenApi.OperationPath

namespace OpenApi

/-- What is wrong when the operation that is meant cannot be found. -/
inductive Missing (target : OperationPath) : LookupError → Prop where
  | noSources : Missing target .noSources
  | source {name : String} (h : target.sourceName = some name) :
    Missing target (.unknownSource name)
  | path (sourceName : String) :
    Missing target (.pathNotFound sourceName target.path target.method)

theorem findByPath_missing {documents : List InterfaceDocument} {text : String}
    {target : OperationPath} {error : LookupError} (hparse : OperationPath.parse text = .ok target)
    (h : findByPath documents text = .error error) : Missing target error := by
  unfold findByPath at h
  rw [hparse] at h
  dsimp only [bind, Except.bind] at h
  split at h
  · rename_i name hname
    rcases hsource : inSource documents name with reason | document
    · rw [hsource] at h
      have hreason : reason = .unknownSource name := by
        unfold inSource at hsource
        split at hsource <;> cases hsource
        rfl
      cases h
      exact hreason ▸ .source hname
    · rw [hsource] at h
      dsimp only at h
      split at h <;> cases h
      exact .path name
  · split at h
    · cases h
      exact .noSources
    · split at h <;> cases h
      exact .path "*"

end OpenApi

namespace Validation

theorem fragment_of_operationPath {place : Place} {text : String}
    (h : Harmless (operationPath place text)) : '#' ∈ text.toList := by
  have hcontains := holds_of_harmless_require (harmless_append.1 h).2
  have hinfix := Text.infix_of_contains (by decide) hcontains
  exact hinfix.subset (by decide)

theorem target_of_targetCount {s : Step} {text : String} (h : targetCount s = 1)
    (hpath : s.operationPath = some text) : s.target? = some (.operationPath text) := by
  cases hid : s.operationId <;> simp [targetCount, hid, hpath, Step.target?] at h ⊢

end Validation

namespace Run

open OpenApi

variable {env : Environment} {registry : Registry} {workflow : Workflow} {step : Step} {z : Session}

theorem execute_of_fault {fault : RunFault} (h : findOperation registry.openapi step = .error fault) :
    (execute env registry workflow step).run z = (.error (.failed fault), z) := by
  have hprepare : (prepare env registry workflow step).run z = (.error (.failed fault), z) := by
    unfold prepare
    refine run_bind_error ?_
    rw [h]
    rfl
  exact run_bind_error hprepare

/--
In a document found valid, the path of an operation is read when it is written as one, and then at
worst there is no such operation. Any other is refused for its form, before anything else of the
step is done.
-/
theorem usable_operationPath {permitReserved : Bool} {path : Option String} {tree : Json}
    {d : Document} (h : (Document.parse permitReserved path tree).usable? = some d) :
    ∀ w ∈ d.workflows, ∀ step ∈ w.steps, ∀ text, step.operationPath = some text →
      (∀ target, OperationPath.parse text = .ok target ↔
        OperationPath.Written text.toList target) ∧
      (∀ target, OperationPath.Written text.toList target → ∀ documents fault,
        findOperation documents step = .error fault →
        ∃ error, fault = .operation error ∧ Missing target error) ∧
      ((∀ target, ¬ OperationPath.Written text.toList target) → ∃ reason ∈ OperationPath.faults,
        OperationPath.parse text = .error (.badOperationPath text reason) ∧
        ∀ env registry workflow z, (execute env registry workflow step).run z =
          (.error (.failed (.operation (.badOperationPath text reason))), z)) := by
  intro w hw step hstep text htext
  obtain ⟨place, hworkflow⟩ := Document.harmless_workflow_of_usable h hw
  obtain ⟨place, hvalid⟩ := Document.harmless_step_own hworkflow hstep
  simp only [Validation.step, Validation.harmless_append, htext, Option.map_some,
    Option.getD_some] at hvalid
  obtain ⟨⟨⟨⟨⟨⟨⟨⟨hcount, hpath⟩, -⟩, -⟩, -⟩, -⟩, -⟩, -⟩, -⟩ := hvalid
  -- The step has this target alone, so that no other one is looked for in its place.
  have hone : Validation.targetCount step = 1 := by
    simpa using Validation.holds_of_harmless_require hcount
  have htarget := Validation.target_of_targetCount hone htext
  have hlook : ∀ documents, findOperation documents step =
      (findByPath documents text).mapError .operation := by
    intro documents
    rw [findOperation, htarget]
  refine ⟨fun target => OperationPath.parse_eq_ok_iff, fun target written documents fault hfault => ?_,
    fun unwritten => ?_⟩
  · rw [hlook] at hfault
    rcases hfound : findByPath documents text with error | operation
    · rw [hfound] at hfault
      cases hfault
      exact ⟨error, rfl, findByPath_missing (OperationPath.parse_written written) hfound⟩
    · rw [hfound] at hfault
      cases hfault
  · obtain ⟨reason, hreason, hparse⟩ :=
      OperationPath.parse_of_unwritten (Validation.fragment_of_operationPath hpath) unwritten
    refine ⟨reason, hreason, hparse, fun env registry workflow z => execute_of_fault ?_⟩
    rw [hlook, findByPath, hparse]
    rfl

def pathTree (text : String) : Json :=
  .obj [("arazzo", .str "1.0.1"), ("info", .obj [("title", .str "t"), ("version", .str "1")]),
    ("sourceDescriptions", .arr [.obj [("name", .str "api"), ("url", .str "api.json")]]),
    ("workflows", .arr [.obj
      [("steps", .arr [.obj [("operationPath", .str text), ("stepId", .str "s")]]),
        ("workflowId", .str "w")]])]

def hasPath (text : String) : Bool :=
  (Document.parse false none (pathTree text)).diagnostics.isEmpty &&
    (Document.parse false none (pathTree text)).usable?.any fun d =>
      d.workflows.any fun w => w.steps.any (·.operationPath == some text)

theorem exists_of_hasPath {text : String} (h : hasPath text = true) :
    (Document.parse false none (pathTree text)).diagnostics = [] ∧
      ∃ d w step, (Document.parse false none (pathTree text)).usable? = some d ∧
        w ∈ d.workflows ∧ step ∈ w.steps ∧ step.operationPath = some text := by
  obtain ⟨hquiet, hstep⟩ := Bool.and_eq_true_iff.1 h
  obtain ⟨d, hd, hstep⟩ := Option.any_eq_true _ _ |>.1 hstep
  obtain ⟨w, hw, hstep⟩ := List.any_eq_true.1 hstep
  obtain ⟨step, hmem, htext⟩ := List.any_eq_true.1 hstep
  exact ⟨List.isEmpty_iff.1 hquiet, d, w, step, hd, hw, hmem, by simpa using htext⟩

def bracedPath : String := "\x7b$sourceDescriptions.api.url\x7d#/paths/~1p/get"

theorem usable_operationPath_braced :
    ∃ d w step, (Document.parse false none (pathTree bracedPath)).usable? = some d ∧
      w ∈ d.workflows ∧ step ∈ w.steps ∧ step.operationPath = some bracedPath ∧
      OperationPath.Written bracedPath.toList ⟨some "api", "/p", "get"⟩ := by
  have hpath : hasPath bracedPath = true := by decide +kernel
  obtain ⟨-, d, w, step, hd, hw, hstep, htext⟩ := exists_of_hasPath hpath
  obtain ⟨hread, -, -⟩ := usable_operationPath hd w hw step hstep bracedPath htext
  exact ⟨d, w, step, hd, hw, hstep, htext, (hread _).1 (by decide +kernel)⟩

def unbracedPath : String := "$sourceDescriptions.api.url#/paths/~1p/get"

/-- An expression by itself keeps the rules of documents, and yet is no path of an operation. -/
theorem operationPath_unbraced :
    (Document.parse false none (pathTree unbracedPath)).diagnostics = [] ∧
      ∃ d w step, (Document.parse false none (pathTree unbracedPath)).usable? = some d ∧
        w ∈ d.workflows ∧ step ∈ w.steps ∧ step.operationPath = some unbracedPath ∧
        OperationPath.parse unbracedPath = .error (.badOperationPath unbracedPath
          "expected \x7b$sourceDescriptions.<name>.url\x7d before the fragment") := by
  have hpath : hasPath unbracedPath = true := by decide +kernel
  obtain ⟨hquiet, d, w, step, hd, hw, hstep, htext⟩ := exists_of_hasPath hpath
  exact ⟨hquiet, d, w, step, hd, hw, hstep, htext, by decide +kernel⟩

end Run
end Arazzo
