import Arazzo.Proofs.Sources.Chain

/-! What is told of a source that is no valid document: how many errors it has, and the first fault
that was found in it, which need not be an error. -/

namespace Arazzo

namespace Diagnostics

variable {ds : List Diagnostic}

theorem errorCount_pos : 0 < errorCount ds ↔ areValid ds = false := by
  rw [errorCount, List.countP_pos_iff, areValid, Bool.not_eq_false', List.any_eq_true]

theorem exists_first_error (h : areValid ds = false) :
    ∃ before error after, ds = before ++ error :: after ∧ error.isError = true ∧
      ∀ passed ∈ before, passed.isError = false := by
  rw [areValid, Bool.not_eq_false', List.any_eq_true] at h
  obtain ⟨error, hfind⟩ := Option.isSome_iff_exists.1 (List.find?_isSome.2 h)
  obtain ⟨herror, before, after, hsplit, hpassed⟩ := List.find?_eq_some_iff_append.1 hfind
  refine ⟨before, error, after, hsplit, herror, fun passed hmem => ?_⟩
  simpa using hpassed passed hmem

end Diagnostics

/-- What is told of these faults: how many errors there are among them, and the message of the first
one. It is the first error's unless lesser faults, such as an unknown member, come before that. -/
structure Reported (ds : List Diagnostic) (count : Nat) (first : String) : Prop where
  counted : count = Diagnostics.errorCount ds
  pos : 1 ≤ count
  told : ∃ before error after, ds = before ++ error :: after ∧ error.isError = true ∧
    (∀ passed ∈ before, passed.isError = false) ∧ first = (before.head?.getD error).message

theorem Reported.of_invalid {ds : List Diagnostic} (h : Diagnostics.areValid ds = false) :
    Reported ds (Diagnostics.errorCount ds) ((ds.head?.map Diagnostic.message).getD "") := by
  refine ⟨rfl, Diagnostics.errorCount_pos.2 h, ?_⟩
  obtain ⟨before, error, after, rfl, herror, hpassed⟩ := Diagnostics.exists_first_error h
  refine ⟨before, error, after, rfl, herror, hpassed, ?_⟩
  cases before <;> rfl

theorem Document.invalid_of_parse {permitReserved : Bool} {path : Option String} {tree : Json}
    (h : (parse permitReserved path tree).valid = false) :
    Diagnostics.areValid (parse permitReserved path tree).diagnostics = false := by
  cases tree with
  | obj members =>
    have hread : (parse permitReserved path (.obj members)).document.isSome = true := rfl
    rwa [ParseOutcome.valid, hread, Bool.true_and] at h
  | _ => rfl

namespace Loader

variable {loader : Loader} {depth : Nat} {d inner : Document} {base : Option Location}
  {visiting : List String} {source : SourceDescription} {tree : Json} {location : Location}
  {contents : Contents} {registry : Registry} {t t' t'' : Trace} {name first : String} {count : Nat}
  {e : SourceError}

theorem nestedDocument_cases (loader : Loader) (name : String) (location : Location) (tree : Json) :
    let outcome := Document.parse loader.permitReserved none tree
    (outcome.valid = true ∧ ∃ inner, loader.nestedDocument name location tree = .ok inner) ∨
      (outcome.valid = false ∧ ∃ count first, Reported outcome.diagnostics count first ∧
        loader.nestedDocument name location tree = .error (.badNested name count first)) := by
  intro outcome
  unfold nestedDocument
  extract_lets path opened
  have hvalid : opened.valid = outcome.valid := valid_parse ..
  have hsame : opened.diagnostics = outcome.diagnostics := diagnostics_parse ..
  cases h : outcome.valid with
  | true =>
    obtain ⟨inner, hinner⟩ := Option.isSome_iff_exists.1 (Bool.and_eq_true_iff.1 (hvalid.trans h)).1
    have husable : opened.usable? = some inner := by
      rw [ParseOutcome.usable?, if_pos (hvalid.trans h), hinner]
    exact .inl ⟨rfl, inner, by rw [husable]⟩
  | false =>
    have hnone : opened.usable? = none := by
      rw [ParseOutcome.usable?, if_neg (Bool.eq_false_iff.1 (hvalid.trans h))]
    refine .inr ⟨rfl, _, _, .of_invalid (Document.invalid_of_parse h), ?_⟩
    rw [hnone, hsame]

def inside (loader : Loader) (depth : Nat) (inner : Document) (location : Location)
    (visiting : List String) : Loading Registry :=
  loader.loadFrom depth inner (some location) visiting

def enter (loader : Loader) (depth : Nat) (base : Option Location) (visiting : List String)
    (source : SourceDescription) (tree : Json) : Loading Registry := do
  let inner ← loader.nestedDocument source.name (loader.place base source) tree
  loader.inside depth inner (loader.place base source)
    (visiting ++ [(loader.place base source).text])

/-- All sources of the document before this one are loaded, and this one's tree is found. -/
def Meets (loader : Loader) (depth : Nat) (d : Document) (base : Option Location)
    (visiting : List String) (t : Trace) (source : SourceDescription) (tree : Json) (t' : Trace) :
    Prop :=
  ∃ before after contents t₁, d.sourceDescriptions = before ++ source :: after ∧
    (before.foldlM (loader.addSource base visiting (loader.inside depth)) {}).run t =
      (.ok contents, t₁) ∧
    (loader.tree visiting source (loader.place base source)).run t₁ = (.ok tree, t')

/-- Loading the document comes to this source with this tree, in the document itself or inside it. -/
inductive Comes (loader : Loader) : Nat → Document → Option Location → List String → Trace →
    SourceDescription → Json → Trace → Prop where
  | here {depth : Nat} {d : Document} {base : Option Location} {visiting : List String}
    {t t' : Trace} {source : SourceDescription} {tree : Json}
    (meets : Meets loader depth d base visiting t source tree t') :
    Comes loader (depth + 1) d base visiting t source tree t'
  | inside {depth : Nat} {d inner : Document} {base : Option Location} {visiting : List String}
    {t t' t'' : Trace} {outer source : SourceDescription} {own tree : Json}
    (meets : Meets loader depth d base visiting t outer own t') (kind : outer.kind = .arazzo)
    (opens : loader.nestedDocument outer.name (loader.place base outer) own = .ok inner)
    (rest : Comes loader depth inner (some (loader.place base outer))
      (visiting ++ [(loader.place base outer).text]) t' source tree t'') :
    Comes loader (depth + 1) d base visiting t source tree t''

theorem addSource_eq (hkind : source.kind = .arazzo) (contents : Contents) :
    loader.addSource base visiting (loader.inside depth) contents source =
      (do
        let tree ← loader.tree visiting source (loader.place base source)
        let nested ← loader.enter depth base visiting source tree
        return { contents with nested := Table.insert source.name nested contents.nested }) := by
  unfold addSource enter
  rw [hkind]
  simp only [bind_assoc]

theorem loadFrom_succ (loader : Loader) (depth : Nat) (d : Document) (base : Option Location)
    (visiting : List String) :
    loader.loadFrom (depth + 1) d base visiting =
      (do
        let contents ← d.sourceDescriptions.foldlM
          (loader.addSource base visiting (loader.inside depth)) {}
        return .mk d base contents.openapi contents.nested) := rfl

theorem Meets.loadFrom_error (h : Meets loader depth d base visiting t source tree t')
    (hkind : source.kind = .arazzo)
    (henter : (loader.enter depth base visiting source tree).run t' = (.error e, t'')) :
    (loader.loadFrom (depth + 1) d base visiting).run t = (.error e, t'') := by
  obtain ⟨before, after, contents, t₁, hsources, hbefore, htree⟩ := h
  have hadd : (loader.addSource base visiting (loader.inside depth) contents source).run t₁ =
      (.error e, t'') := by
    rw [addSource_eq hkind, run_bind_ok htree]
    exact run_bind_error henter
  rw [loadFrom_succ, hsources]
  exact run_bind_error (run_foldlM_error hbefore hadd)

theorem Comes.loadFrom_error (h : Comes loader depth d base visiting t source tree t')
    (hkind : source.kind = .arazzo)
    (hinvalid : (Document.parse loader.permitReserved none tree).valid = false) :
    ∃ count first,
      Reported (Document.parse loader.permitReserved none tree).diagnostics count first ∧
      (loader.loadFrom depth d base visiting).run t =
        (.error (.badNested source.name count first), t') := by
  induction h with
  | @here depth d base visiting t t' source tree meets =>
    rcases loader.nestedDocument_cases source.name (loader.place base source) tree with
      ⟨hvalid, -⟩ | ⟨-, count, first, reported, hrefused⟩
    · exact absurd hvalid (Bool.eq_false_iff.1 hinvalid)
    · refine ⟨count, first, reported, meets.loadFrom_error hkind ?_⟩
      unfold enter
      rw [hrefused]
      rfl
  | @inside depth d inner base visiting t t' t'' outer source own tree meets houter opens rest ih =>
    obtain ⟨count, first, reported, hrest⟩ := ih hkind hinvalid
    refine ⟨count, first, reported, meets.loadFrom_error houter ?_⟩
    unfold enter
    rw [opens]
    exact hrest

theorem tree_stops (loader : Loader) (visiting : List String) (source : SourceDescription)
    (location : Location) :
    StopsOnly (fun e => ∀ name count first, e ≠ .badNested name count first)
      (loader.tree visiting source location) := by
  intro t
  unfold tree
  split
  · exact .of_pure trivial
  · dsimp only
    split
    · exact .of_throw nofun
    · refine .bind_lift ?_
      split
      · exact .of_pure trivial
      · exact .of_throw nofun

theorem exists_tree_of_addSource
    (h : (loader.addSource base visiting (loader.inside depth) contents source).run t =
      (.error (.badNested name count first), t'')) :
    ∃ tree t', (loader.tree visiting source (loader.place base source)).run t = (.ok tree, t') ∧
      source.kind = .arazzo ∧ (loader.enter depth base visiting source tree).run t' =
        (.error (.badNested name count first), t'') := by
  -- A tree that is not found is told of in other ways, and an interface is not read any further.
  cases hkind : source.kind with
  | openapi =>
    unfold addSource at h
    rw [hkind] at h
    rcases cases_of_run_bind_error h with htree | ⟨tree, t', -, hadd⟩
    · exact absurd rfl ((loader.tree_stops visiting source _ t).of_error htree name count first)
    · cases hadd
  | arazzo =>
    rw [addSource_eq hkind] at h
    rcases cases_of_run_bind_error h with htree | ⟨tree, t', htree, hadd⟩
    · exact absurd rfl ((loader.tree_stops visiting source _ t).of_error htree name count first)
    · rcases cases_of_run_bind_error hadd with henter | ⟨nested, t₂, -, hdone⟩
      · exact ⟨tree, t', htree, rfl, henter⟩
      · cases hdone

theorem exists_meets_of_loadFrom_error
    (h : (loader.loadFrom (depth + 1) d base visiting).run t =
      (.error (.badNested name count first), t'')) :
    ∃ source tree t', Meets loader depth d base visiting t source tree t' ∧ source.kind = .arazzo ∧
      (loader.enter depth base visiting source tree).run t' =
        (.error (.badNested name count first), t'') := by
  rw [loadFrom_succ] at h
  rcases cases_of_run_bind_error h with hfold | ⟨contents, t', -, hdone⟩
  · obtain ⟨before, source, after, contents, t₁, hsources, hbefore, hadd⟩ :=
      exists_of_run_foldlM_error hfold
    obtain ⟨tree, t', htree, hkind, henter⟩ := exists_tree_of_addSource hadd
    exact ⟨source, tree, t', ⟨before, after, contents, t₁, hsources, hbefore, htree⟩, hkind, henter⟩
  · cases hdone

theorem exists_comes_of_loadFrom_error
    (h : (loader.loadFrom depth d base visiting).run t =
      (.error (.badNested name count first), t'')) :
    ∃ source tree, Comes loader depth d base visiting t source tree t'' ∧ source.kind = .arazzo ∧
      source.name = name ∧ (Document.parse loader.permitReserved none tree).valid = false ∧
      Reported (Document.parse loader.permitReserved none tree).diagnostics count first := by
  induction depth generalizing d base visiting t with
  | zero =>
    unfold loadFrom at h
    cases h
  | succ depth ih =>
    obtain ⟨source, tree, t', meets, hkind, henter⟩ := exists_meets_of_loadFrom_error h
    unfold enter at henter
    -- What is refused is the source's own document, or one inside it.
    rcases loader.nestedDocument_cases source.name (loader.place base source) tree with
      ⟨-, inner, hinner⟩ | ⟨hinvalid, count', first', reported, hrefused⟩
    · rw [hinner] at henter
      obtain ⟨further, own, comes, hown⟩ := ih henter
      exact ⟨further, own, .inside meets hkind hinner comes, hown⟩
    · rw [hrefused] at henter
      cases henter
      exact ⟨source, tree, .here meets, hkind, rfl, hinvalid, reported⟩

theorem exists_comes_of_loadFrom_ok
    (h : (loader.loadFrom depth d base visiting).run t = (.ok registry, t''))
    (listed : source ∈ d.sourceDescriptions) :
    ∃ tree t', Comes loader depth d base visiting t source tree t' := by
  cases depth with
  | zero =>
    unfold loadFrom at h
    cases h
  | succ depth =>
    -- All went well, so it went well up to this source.
    obtain ⟨before, after, hsources⟩ := List.append_of_mem listed
    rw [loadFrom_succ, hsources] at h
    obtain ⟨contents, t₁, hfold, -⟩ := exists_run_of_bind_ok h
    obtain ⟨b, t₂, b', t₃, hbefore, hadd⟩ := exists_of_run_foldlM_ok hfold
    unfold addSource at hadd
    obtain ⟨tree, t', htree, -⟩ := exists_run_of_bind_ok hadd
    exact ⟨tree, t', .here ⟨before, after, b, t₂, hsources, hbefore, htree⟩⟩

/--
A tree of a workflow document that loading comes to and that is not valid, whatever is wrong with it,
stops loading, and it is told how many errors it has and the message of the first fault found in it:
of the first error, if no lesser fault comes before it. Nothing else is told of in this way, and where
loading goes well, it has come to all sources and their documents are valid.
-/
theorem invalid_source_reported (loader : Loader) (depth : Nat) (d : Document)
    (base : Option Location) (visiting : List String) (t : Trace) :
    (∀ source tree t', Comes loader depth d base visiting t source tree t' → source.kind = .arazzo →
      (Document.parse loader.permitReserved none tree).valid = false →
      ∃ count first,
        Reported (Document.parse loader.permitReserved none tree).diagnostics count first ∧
        (loader.loadFrom depth d base visiting).run t =
          (.error (.badNested source.name count first), t')) ∧
    (∀ name count first t', (loader.loadFrom depth d base visiting).run t =
        (.error (.badNested name count first), t') →
      ∃ source tree, Comes loader depth d base visiting t source tree t' ∧ source.kind = .arazzo ∧
        source.name = name ∧ (Document.parse loader.permitReserved none tree).valid = false ∧
        Reported (Document.parse loader.permitReserved none tree).diagnostics count first) ∧
    ∀ registry t', (loader.loadFrom depth d base visiting).run t = (.ok registry, t') →
      ∀ source ∈ d.sourceDescriptions, ∃ tree t₁,
        Comes loader depth d base visiting t source tree t₁ ∧
        (source.kind = .arazzo →
          (Document.parse loader.permitReserved none tree).valid = true) := by
  refine ⟨fun source tree t' comes hkind hinvalid => comes.loadFrom_error hkind hinvalid,
    fun name count first t' => exists_comes_of_loadFrom_error, ?_⟩
  intro registry t' hrun source listed
  obtain ⟨tree, t₁, comes⟩ := exists_comes_of_loadFrom_ok hrun listed
  refine ⟨tree, t₁, comes, fun hkind => ?_⟩
  by_contra hinvalid
  obtain ⟨count, first, -, hrefused⟩ := comes.loadFrom_error hkind (Bool.eq_false_iff.2 hinvalid)
  exact nomatch hrefused.symm.trans hrun

def oddTree : Json :=
  .obj [("arazzo", .str "1.0.1"),
    ("info", .obj [("foo", .str "bar"), ("title", .str "t"), ("version", .str "1")])]

def oddLoader : Loader := { circleLoader with documents := [("flows", oddTree)] }

theorem invalid_odd : (Document.parse false none oddTree).valid = false := by decide +kernel

theorem invalid_source_reported_odd :
    ∃ d source, d.sourceDescriptions = [source] ∧ source.kind = .arazzo ∧
      (Document.parse false none oddTree).valid = false ∧ ∃ count first,
        Reported (Document.parse false none oddTree).diagnostics count first ∧
        (oddLoader.load d).run {} = (.error (.badNested source.name count first), {}) := by
  obtain ⟨d, -, hnames⟩ := usable_naming_flows
  obtain ⟨source, hsources, hname, hkind⟩ := exists_source_of_names hnames
  have hgiven : Table.get? source.name oddLoader.documents = some oddTree := by
    rw [hname]
    rfl
  let base := d.sourcePath.map Location.file
  let visiting := (base.map Location.text).toList
  have comes : Comes oddLoader depthLimit d base visiting {} source oddTree {} := by
    refine .here ⟨[], [], {}, {}, hsources, rfl, ?_⟩
    rw [tree_given hgiven]
    rfl
  obtain ⟨refused, -⟩ := invalid_source_reported oddLoader depthLimit d base visiting {}
  exact ⟨d, source, hsources, hkind, invalid_odd, refused source oddTree {} comes hkind invalid_odd⟩

def refusedWith (name : String) (count : Nat) (first : String) (d : Document) : Bool :=
  match ((oddLoader.load d).run {}).1 with
  | .error (.badNested name' count' first') => name' == name && count' == count && first' == first
  | _ => false

/-- The first fault found is the unknown member, and the first error is another one. -/
theorem first_error_untold :
    (∃ d, (Document.parse false none (namingTree "flows" "flows.json")).usable? = some d ∧
      ((oddLoader.load d).run {}).1 =
        .error (.badNested "flows" 4 "attribute $.info.foo is unexpected")) ∧
    (Document.parse false none oddTree).valid = false ∧
    ((Document.parse false none oddTree).diagnostics.find? Diagnostic.isError).map
      Diagnostic.message = some "attribute $.sourceDescriptions is missing" := by
  have hrefused : (Document.parse false none (namingTree "flows" "flows.json")).usable?.any
      (refusedWith "flows" 4 "attribute $.info.foo is unexpected") = true := by
    decide +kernel
  refine ⟨?_, invalid_odd, by decide +kernel⟩
  obtain ⟨d, hd, hrefused⟩ := (Option.any_eq_true _ _).1 hrefused
  refine ⟨d, hd, ?_⟩
  unfold refusedWith at hrefused
  split at hrefused
  · rename_i name count first hrun
    simp only [Bool.and_eq_true, beq_iff_eq] at hrefused
    obtain ⟨⟨rfl, rfl⟩, rfl⟩ := hrefused
    exact hrun
  · cases hrefused

end Loader
end Arazzo
