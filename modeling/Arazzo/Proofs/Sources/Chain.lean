import Arazzo.Proofs.Leads
import Arazzo.Proofs.Table
import Arazzo.Sources.Loader
import Mathlib.Data.Fintype.Card
import Mathlib.Data.Set.Card
import Mathlib.Data.Set.Finite.List
import Mathlib.Logic.Relation

/-! Chains of documents that name each other as sources: where nothing comes from far away, they end,
unless documents that are given in place of sources go around in a circle. -/

namespace Arazzo

def SourceError.IsUnending : SourceError → Prop
  | .unending _ => True
  | _ => False

namespace Loader

variable {loader : Loader} {base : Option Location} {visiting : List String}
  {source : SourceDescription} {location : Location} {inner : Document} {tree : Json}

abbrev Ends {α : Type} (work : Loading α) : Prop := StopsOnly (fun e => ¬ e.IsUnending) work

/-- Without a document in place of it, a source is read from a file that no document on the way was
read from. -/
inductive HasTree (loader : Loader) (visiting : List String) (source : SourceDescription)
    (location : Location) : Json → Prop where
  | given {tree : Json} (h : Table.get? source.name loader.documents = some tree) :
    HasTree loader visiting source location tree
  | read {path text : String} {tree : Json} (hnone : Table.get? source.name loader.documents = none)
    (hfresh : source.kind = .arazzo → location.text ∉ visiting) (hfile : location = .file path)
    (hread : loader.files.read path = .ok text) (hparse : parseTree location text = .ok tree) :
    HasTree loader visiting source location tree

structure Opens (loader : Loader) (base : Option Location) (visiting : List String)
    (source : SourceDescription) (inner : Document) : Prop where
  kind : source.kind = .arazzo
  leads : ∃ tree, HasTree loader visiting source (loader.place base source) tree ∧
    loader.nestedDocument source.name (loader.place base source) tree = .ok inner

theorem tree_given (h : Table.get? source.name loader.documents = some tree) :
    loader.tree visiting source location = pure tree := by
  unfold Loader.tree
  rw [h]

theorem HasTree.unique {other : Json} (h : HasTree loader visiting source location tree)
    (h' : HasTree loader visiting source location other) : tree = other := by
  cases h with
  | given hgiven =>
    cases h' with
    | given hgiven' => exact Option.some.inj (hgiven.symm.trans hgiven')
    | read hnone =>
      rw [hgiven] at hnone
      cases hnone
  | read hnone hfresh hfile hread hparse =>
    cases h' with
    | given hgiven' =>
      rw [hgiven'] at hnone
      cases hnone
    | read hnone' hfresh' hfile' hread' hparse' =>
      subst hfile
      obtain rfl := Location.file.inj hfile'
      rw [hread] at hread'
      obtain rfl := Except.ok.inj hread'
      exact Except.ok.inj (hparse.symm.trans hparse')

theorem Opens.unique {other : Document} (h : Opens loader base visiting source inner)
    (h' : Opens loader base visiting source other) : inner = other := by
  obtain ⟨tree, htree, hinner⟩ := h.leads
  obtain ⟨tree', htree', hother⟩ := h'.leads
  obtain rfl := htree.unique htree'
  exact Except.ok.inj (hinner.symm.trans hother)

def Offline (loader : Loader) : Prop :=
  ∀ requests request, ∃ e, (loader.client.answer requests request).result = .error e

theorem run_fetch (loader : Loader) (request : HttpRequest) (t : Trace) :
    ∃ result clock, (loader.fetch request).run t = (result, { t.request request with clock }) :=
  ⟨_, _, rfl⟩

theorem readText_eq_ok (h : loader.Offline) {t : Trace} {text : String}
    (hread : ((loader.readText location).run t).1 = .ok text) :
    ∃ path, location = .file path ∧ loader.files.read path = .ok text := by
  cases location with
  | remote url =>
    let request : HttpRequest := ⟨"GET", url, [], [], loader.timeout, loader.maxBytes⟩
    obtain ⟨e, he⟩ := h t.requests request
    have hfetch : ∃ t', (loader.fetch request).run t = (.error e, t') := ⟨_, Prod.ext he rfl⟩
    obtain ⟨t', hfetch⟩ := hfetch
    unfold readText readRemote at hread
    dsimp only at hread
    rw [StateT.run_bind, hfetch] at hread
    cases hread
  | file path =>
    refine ⟨path, rfl, ?_⟩
    have hrun : ((loader.readText (.file path)).run t).1 =
        (loader.files.read path).mapError (.read path) := by
      cases hfile : loader.files.read path <;> simp only [readText, readFile, hfile] <;> rfl
    rw [hrun] at hread
    cases hfile : loader.files.read path with
    | ok found =>
      rw [hfile] at hread
      exact congrArg Except.ok (Except.ok.inj hread)
    | error fault =>
      rw [hfile] at hread
      cases hread

theorem tree_leads (h : loader.Offline) (location : Location) (t : Trace) :
    Leads (loader.tree visiting source location) t
      (fun tree _ => HasTree loader visiting source location tree) fun e _ => ¬ e.IsUnending := by
  unfold tree
  split
  · rename_i tree hgiven
    exact .of_pure (.given hgiven)
  · rename_i hnone
    dsimp only
    split
    · exact .of_throw id
    · rename_i hcycle
      have hfresh (hkind : source.kind = .arazzo) : location.text ∉ visiting :=
        fun hopen => hcycle ⟨hkind, hopen⟩
      refine .bind_lift ?_
      split
      · rename_i tree hloaded
        cases hread : ((loader.readText location).run t).1 with
        | error e =>
          rw [hread] at hloaded
          cases hloaded
        | ok text =>
          rw [hread] at hloaded
          obtain ⟨path, hfile, hpath⟩ := readText_eq_ok h hread
          exact .of_pure (.read hnone hfresh hfile hpath hloaded)
      · exact .of_throw id

theorem addSource_ends (h : loader.Offline)
    {load : Document → Location → List String → Loading Registry}
    (hload : ∀ inner, Opens loader base visiting source inner →
      Ends (load inner (loader.place base source)
        (visiting ++ [(loader.place base source).text])))
    (contents : Contents) : Ends (loader.addSource base visiting load contents source) := by
  intro t
  unfold addSource
  dsimp only
  refine (tree_leads h _ t).bind fun tree t₁ htree => ?_
  cases hkind : source.kind with
  | openapi => exact .of_pure trivial
  | arazzo =>
    dsimp only
    cases hinner : loader.nestedDocument source.name (loader.place base source) tree with
    | error e =>
      refine .of_throw ?_
      unfold nestedDocument at hinner
      dsimp only at hinner
      split at hinner <;> cases hinner
      exact id
    | ok inner =>
      have opens : Opens loader base visiting source inner := ⟨hkind, tree, htree, hinner⟩
      exact (hload inner opens t₁).bind fun registry t₂ _ => .of_pure trivial

theorem agrees_addSource {load more : Document → Location → List String → Loading Registry}
    (h : ∀ inner location visiting, AgreesUnless SourceError.IsUnending
      (load inner location visiting) (more inner location visiting))
    (contents : Contents) (source : SourceDescription) :
    AgreesUnless SourceError.IsUnending (loader.addSource base visiting load contents source)
      (loader.addSource base visiting more contents source) := by
  unfold addSource
  dsimp only
  refine .after _ fun tree => ?_
  cases source.kind with
  | openapi => exact .refl _
  | arazzo => exact .after _ fun inner => .bind (h inner _ _) fun registry => .refl _

theorem agrees_loadFrom (depth : Nat) (d : Document) (base : Option Location)
    (visiting : List String) :
    AgreesUnless SourceError.IsUnending (loader.loadFrom depth d base visiting)
      (loader.loadFrom (depth + 1) d base visiting) := by
  induction depth generalizing d base visiting with
  | zero =>
    rw [loadFrom]
    exact .cut_off trivial _
  | succ depth ih =>
    rw [loadFrom, loadFrom]
    refine .bind (.foldlM (fun contents source => ?_) _ _) fun contents => .refl _
    exact agrees_addSource (fun inner location visiting => ih inner (some location) visiting)
      contents source

theorem agrees_of_le {depth more : Nat} (h : depth ≤ more) (d : Document) (base : Option Location)
    (visiting : List String) :
    AgreesUnless SourceError.IsUnending (loader.loadFrom depth d base visiting)
      (loader.loadFrom more d base visiting) := by
  induction h with
  | refl => exact .refl _
  | step _ ih => exact ih.trans (agrees_loadFrom _ d base visiting)

/-! Chains of documents -/

def Ending (loader : Loader) (d : Document) (base : Option Location) (visiting : List String) :
    Prop :=
  ∃ depth, Ends (loader.loadFrom depth d base visiting)

theorem exists_depth {sources : List SourceDescription}
    (h : ∀ source ∈ sources, ∀ inner, Opens loader base visiting source inner →
      Ending loader inner (some (loader.place base source))
        (visiting ++ [(loader.place base source).text])) :
    ∃ depth, ∀ source ∈ sources, ∀ inner, Opens loader base visiting source inner →
      Ends (loader.loadFrom depth inner (some (loader.place base source))
        (visiting ++ [(loader.place base source).text])) := by
  induction sources with
  | nil => exact ⟨0, fun source hsource => absurd hsource List.not_mem_nil⟩
  | cons first rest ih =>
    obtain ⟨depth, hdepth⟩ := ih fun source hsource => h source (List.mem_cons_of_mem _ hsource)
    -- A source leads to one document at most, so its depth is one number.
    have hfirst : ∃ own, ∀ inner, Opens loader base visiting first inner →
        Ends (loader.loadFrom own inner (some (loader.place base first))
          (visiting ++ [(loader.place base first).text])) := by
      by_cases hopens : ∃ inner, Opens loader base visiting first inner
      · obtain ⟨inner, opens⟩ := hopens
        obtain ⟨own, hown⟩ := h first (List.mem_cons_self ..) inner opens
        refine ⟨own, fun other opens' => ?_⟩
        rwa [← opens.unique opens']
      · exact ⟨0, fun inner opens => absurd ⟨inner, opens⟩ hopens⟩
    obtain ⟨own, hown⟩ := hfirst
    refine ⟨max own depth, fun source hsource inner opens => ?_⟩
    rcases List.mem_cons.1 hsource with rfl | hrest
    · exact (agrees_of_le (Nat.le_max_left ..) _ _ _).stopsOnly (hown inner opens)
    · exact (agrees_of_le (Nat.le_max_right ..) _ _ _).stopsOnly (hdepth source hrest inner opens)

theorem ending_of_sources (offline : loader.Offline) {d : Document}
    (h : ∀ source ∈ d.sourceDescriptions, ∀ inner, Opens loader base visiting source inner →
      Ending loader inner (some (loader.place base source))
        (visiting ++ [(loader.place base source).text])) :
    Ending loader d base visiting := by
  obtain ⟨depth, hdepth⟩ := exists_depth h
  refine ⟨depth + 1, ?_⟩
  rw [loadFrom]
  refine StopsOnly.bind (.foldlM (fun contents source hsource => ?_) _) fun contents => .of_pure _
  exact addSource_ends offline (fun inner opens => hdepth source hsource inner opens) contents

theorem finite_chars : Finite Char := by
  have hbound (c : Char) : c.toNat < 1114112 := by
    have hvalid := c.valid
    simp only [UInt32.isValidChar, Nat.isValidChar] at hvalid
    change c.val.toNat < 1114112
    omega
  refine Finite.of_injective (fun c : Char => (⟨c.toNat, hbound c⟩ : Fin 1114112)) ?_
  intro c c' h
  exact Char.ext (UInt32.toNat.inj (Fin.mk.inj h))

def unread (limit : Nat) (visiting : List String) : Set String :=
  {text | text.length ≤ limit ∧ text ∉ visiting}

variable {limit : Nat} {text : String}

theorem finite_unread (limit : Nat) (visiting : List String) : (unread limit visiting).Finite := by
  have := finite_chars
  have hlists : {cs : List Char | cs.length ≤ limit}.Finite := List.finite_length_le Char limit
  refine (hlists.preimage (f := String.toList) ?_).subset ?_
  · exact fun s _ s' _ h => String.toList_inj.1 h
  · exact fun text htext => htext.1

theorem unread_append_subset (limit : Nat) (visiting : List String) (text : String) :
    unread limit (visiting ++ [text]) ⊆ unread limit visiting :=
  fun _ h => ⟨h.1, fun hmem => h.2 (List.mem_append_left _ hmem)⟩

theorem ncard_unread_append_le (limit : Nat) (visiting : List String) (text : String) :
    (unread limit (visiting ++ [text])).ncard ≤ (unread limit visiting).ncard :=
  Set.ncard_le_ncard (unread_append_subset limit visiting text) (finite_unread limit visiting)

theorem ncard_unread_append_lt (hlength : text.length ≤ limit) (hfresh : text ∉ visiting) :
    (unread limit (visiting ++ [text])).ncard < (unread limit visiting).ncard := by
  refine Set.ncard_lt_ncard ?_ (finite_unread limit visiting)
  refine (Set.ssubset_iff_of_subset (unread_append_subset limit visiting text)).2 ?_
  exact ⟨text, ⟨hlength, hfresh⟩, fun h => h.2 (List.mem_append_right _ (List.mem_singleton_self _))⟩

/-! Documents in place of sources -/

def Given (loader : Loader) (name : String) : Prop :=
  ∃ tree, Table.get? name loader.documents = some tree

theorem finite_given (loader : Loader) : {name | loader.Given name}.Finite := by
  refine Set.Finite.subset (List.finite_toSet (Table.keys loader.documents)) ?_
  rintro name ⟨tree, htree⟩
  exact Table.mem_keys_of_mem (Table.mem_of_get? htree)

/-- Inside the document that is given for the one name there is a source of the other name, for which
a document is given as well. -/
structure Nests (loader : Loader) (inner outer : String) : Prop where
  given : loader.Given inner
  source : ∃ tree place d, ∃ source ∈ d.sourceDescriptions,
    Table.get? outer loader.documents = some tree ∧
    loader.nestedDocument outer place tree = .ok d ∧ source.kind = .arazzo ∧ source.name = inner

/-- Without a circle no chain of such documents is endless, as there are finitely many. -/
theorem nests_wellFounded (h : ∀ name, ¬ Relation.TransGen loader.Nests name name) :
    WellFounded loader.Nests := by
  have hfinite : Finite {name // loader.Given name} := loader.finite_given
  have wellFounded : WellFounded fun inner outer : {name // loader.Given name} =>
      Relation.TransGen loader.Nests inner outer := by
    have htrans : IsTrans {name // loader.Given name} fun inner outer =>
        Relation.TransGen loader.Nests inner outer := ⟨fun _ _ _ => Relation.TransGen.trans⟩
    have hirrefl : Std.Irrefl fun inner outer : {name // loader.Given name} =>
        Relation.TransGen loader.Nests inner outer := ⟨fun name => h name⟩
    exact Finite.wellFounded_of_trans_of_irrefl _
  have accessible (name : {name // loader.Given name}) : Acc loader.Nests name := by
    induction name using wellFounded.induction with
    | _ name ih => exact ⟨_, fun inner nests => ih ⟨inner, nests.given⟩ (.single nests)⟩
  exact ⟨fun name => ⟨_, fun inner nests => accessible ⟨inner, nests.given⟩⟩⟩

/-- Every file that is read uses up one of finitely many places, and in between the documents that are
given come to an end by themselves. -/
theorem ending (offline : loader.Offline) (wellFounded : WellFounded loader.Nests)
    (hshort : ∀ path text, loader.files.read path = .ok text → path.length ≤ limit) (d : Document)
    (base : Option Location) (visiting : List String) : Ending loader d base visiting := by
  induction hn : (unread limit visiting).ncard using Nat.strong_induction_on
    generalizing d base visiting with
  | _ n places =>
    subst hn
    have read {visiting' : List String} {location : Location} {path text : String}
        (hle : (unread limit visiting').ncard ≤ (unread limit visiting).ncard)
        (hfresh : location.text ∉ visiting') (hfile : location = .file path)
        (hread : loader.files.read path = .ok text) (inner : Document) (base : Option Location) :
        Ending loader inner base (visiting' ++ [location.text]) := by
      have hlength : location.text.length ≤ limit := by
        subst hfile
        exact hshort path text hread
      exact places _ ((ncard_unread_append_lt hlength hfresh).trans_le hle) inner base _ rfl
    -- The induction on names stays within the places that are left.
    have given (name : String) : ∀ tree place inner base visiting',
        Table.get? name loader.documents = some tree →
        loader.nestedDocument name place tree = .ok inner →
        (unread limit visiting').ncard ≤ (unread limit visiting).ncard →
        Ending loader inner base visiting' := by
      induction name using wellFounded.induction with
      | _ name names =>
        intro tree place inner base visiting' htree hinner hle
        refine ending_of_sources offline fun source hsource inner' opens => ?_
        obtain ⟨tree', htree', hinner'⟩ := opens.leads
        cases htree' with
        | given hgiven =>
          have nests : loader.Nests source.name name :=
            ⟨⟨tree', hgiven⟩, tree, place, inner, source, hsource, htree, hinner, opens.kind, rfl⟩
          exact names source.name nests _ _ _ _ _ hgiven hinner'
            ((ncard_unread_append_le limit visiting' _).trans hle)
        | read hnone hfresh hfile hread => exact read hle (hfresh opens.kind) hfile hread _ _
    refine ending_of_sources offline fun source hsource inner opens => ?_
    obtain ⟨tree, htree, hinner⟩ := opens.leads
    cases htree with
    | given hgiven =>
      exact given source.name _ _ _ _ _ hgiven hinner (ncard_unread_append_le limit visiting _)
    | read hnone hfresh hfile hread => exact read le_rfl (hfresh opens.kind) hfile hread _ _

theorem parse_path (permitReserved : Bool) (path : Option String) (tree : Json) :
    Document.parse permitReserved path tree =
      ⟨(Document.parse permitReserved none tree).document.map fun d => { d with sourcePath := path },
        (Document.parse permitReserved none tree).diagnostics⟩ := by
  have hread : Document.read? permitReserved path tree =
      ⟨(Document.read? permitReserved none tree).value.map fun d => { d with sourcePath := path },
        (Document.read? permitReserved none tree).diagnostics⟩ := by
    cases tree <;> rfl
  unfold Document.parse
  rw [hread]
  obtain ⟨value, diagnostics⟩ := Document.read? permitReserved none tree
  cases value <;> rfl

theorem diagnostics_parse (permitReserved : Bool) (path : Option String) (tree : Json) :
    (Document.parse permitReserved path tree).diagnostics =
      (Document.parse permitReserved none tree).diagnostics := by
  rw [parse_path]

theorem valid_parse (permitReserved : Bool) (path : Option String) (tree : Json) :
    (Document.parse permitReserved path tree).valid =
      (Document.parse permitReserved none tree).valid := by
  rw [parse_path]
  unfold ParseOutcome.valid
  rw [Option.isSome_map]

theorem usable?_parse (permitReserved : Bool) (path : Option String) (tree : Json) :
    (Document.parse permitReserved path tree).usable? =
      (Document.parse permitReserved none tree).usable?.map fun d => { d with sourcePath := path } := by
  unfold ParseOutcome.usable?
  rw [valid_parse permitReserved path tree, parse_path permitReserved path tree]
  split <;> rfl

theorem nestedDocument_of_usable {name : String} {location : Location}
    (h : (Document.parse loader.permitReserved none tree).usable? = some inner) :
    ∃ path, loader.nestedDocument name location tree = .ok { inner with sourcePath := path } := by
  have opened (path : Option String) :
      (Document.parse loader.permitReserved path tree).usable? =
        some { inner with sourcePath := path } := by
    rw [usable?_parse, h]
    rfl
  cases location with
  | remote url =>
    refine ⟨none, ?_⟩
    unfold nestedDocument
    dsimp only
    rw [opened none]
  | file path =>
    refine ⟨some path, ?_⟩
    unfold nestedDocument
    dsimp only
    rw [opened (some path)]

def namingTree (name url : String) : Json :=
  .obj [("arazzo", .str "1.0.1"), ("info", .obj [("title", .str "t"), ("version", .str "1")]),
    ("sourceDescriptions", .arr [.obj
      [("name", .str name), ("type", .str "arazzo"), ("url", .str url)]]),
    ("workflows", .arr [.obj
      [("steps", .arr [.obj [("operationId", .str "get"), ("stepId", .str "s")]]),
        ("workflowId", .str "w")]])]

def namingLoader (name url : String) (files : Table String) : Loader :=
  { client := .offline
    files := Files.ofTable "/" files
    documents := [("flows", namingTree name url)]
    timeout := ⟨0⟩
    maxBytes := 0 }

def circleLoader : Loader := namingLoader "flows" "flows.json" []

def names (d : Document) : List (String × SourceKind) :=
  d.sourceDescriptions.map fun source => (source.name, source.kind)

theorem exists_source_of_names {d : Document} {name : String} {kind : SourceKind}
    (h : names d = [(name, kind)]) :
    ∃ source, d.sourceDescriptions = [source] ∧ source.name = name ∧ source.kind = kind := by
  obtain ⟨source, rest, hsources, hsource, hrest⟩ := List.map_eq_cons_iff.1 h
  obtain rfl := List.map_eq_nil_iff.1 hrest
  obtain ⟨hname, hkind⟩ := Prod.mk.inj hsource
  exact ⟨source, hsources, hname, hkind⟩

theorem offline_naming {name url : String} {files : Table String} :
    (namingLoader name url files).Offline :=
  fun _ _ => ⟨_, rfl⟩

theorem usable_naming {name url : String}
    (h : (Document.parse false none (namingTree name url)).usable?.any
      (fun d => names d == [(name, .arazzo)]) = true) :
    ∃ d, (Document.parse false none (namingTree name url)).usable? = some d ∧
      names d = [(name, .arazzo)] := by
  obtain ⟨d, hd, hnames⟩ := (Option.any_eq_true _ _).1 h
  exact ⟨d, hd, beq_iff_eq.1 hnames⟩

theorem usable_naming_flows :
    ∃ d, (Document.parse false none (namingTree "flows" "flows.json")).usable? = some d ∧
      names d = [("flows", .arazzo)] :=
  usable_naming (by decide +kernel)

theorem usable_naming_away :
    ∃ d, (Document.parse false none (namingTree "away" "away.json")).usable? = some d ∧
      names d = [("away", .arazzo)] :=
  usable_naming (by decide +kernel)

def loadWithin (loader : Loader) (depth : Nat) (d : Document) : Loading Registry :=
  let location := d.sourcePath.map Location.file
  loader.loadFrom depth d location (location.map Location.text).toList

theorem load_eq_loadWithin (d : Document) : loader.load d = loader.loadWithin depthLimit d := rfl

theorem length_le_utf8ByteSize (s : String) : s.length ≤ s.utf8ByteSize := by
  induction s using String.push_induction with
  | empty => exact le_rfl
  | push s c ih =>
    rw [String.length_push, String.utf8ByteSize_push]
    have hpos := c.utf8Size_pos
    omega

theorem length_le_of_ofTable {directory path : String} {files : Table String}
    (h : (Files.ofTable directory files).read path = .ok text) : path.length ≤ 4095 := by
  refine (length_le_utf8ByteSize path).trans ?_
  by_contra hlong
  simp only [Files.ofTable] at h
  split at h
  · cases h
  · split at h
    · cases h
    · rw [if_pos (by simp; omega)] at h
      cases h

end Loader
end Arazzo
