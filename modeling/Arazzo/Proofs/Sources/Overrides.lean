import Arazzo.Proofs.Run.Goto
import Arazzo.Proofs.Sources.Chain
import Arazzo.Proofs.Url.Authority

/-! Places that are used instead of the sources' own. A rooted path names its file in every document
but one at a URL: there it is a reference to the server that the document came from. -/

namespace Arazzo

namespace Url

variable {s : String} {base : Url} {names : List String}

theorem cutScheme?_rooted (cs : List Char) : cutScheme? ('/' :: cs) = none := by
  unfold cutScheme?
  split
  · rename_i c name rest hsplit
    obtain ⟨hcs, -⟩ := Text.splitOnce?_eq_some_iff.1 hsplit
    obtain rfl : '/' = c := (List.cons.inj hcs).1
    have hslash : '/'.isAlpha = false := by decide
    rw [hslash, Bool.false_and, if_neg Bool.false_ne_true]
  · rfl

/-- A slash is no padding, so the text still begins with it. -/
theorem cleaned_rooted (h : FilePath.isAbsolute s = true) : ∃ cs, cleaned s = '/' :: cs := by
  obtain ⟨cs, hs⟩ := List.head?_eq_some_iff.1 (beq_iff_eq.1 h)
  have hstart : s.toList.dropWhile isPadding = '/' :: cs := by
    rw [hs, List.dropWhile_cons_of_neg (by decide)]
  obtain ⟨kept, hkept⟩ : ∃ kept, ('/' :: cs).reverse.dropWhile isPadding = kept ++ ['/'] := by
    rw [List.reverse_cons, List.dropWhile_append]
    split
    · exact ⟨[], by decide⟩
    · exact ⟨_, rfl⟩
  refine ⟨withoutBreaks kept.reverse, ?_⟩
  show withoutBreaks ((s.toList.dropWhile isPadding).reverse.dropWhile isPadding).reverse = _
  rw [hstart, hkept, List.reverse_append]
  rfl

theorem parse?_rooted (naming : Naming) (h : FilePath.isAbsolute s = true) : parse? naming s = none := by
  obtain ⟨cs, hcs⟩ := cleaned_rooted h
  have hparse : parse naming s = .error .relativeWithoutBase := by
    unfold parse readWith
    dsimp only
    rw [hcs, cutScheme?_rooted]
  rw [parse?, hparse]
  rfl

theorem join_rooted (naming : Naming) (h : FilePath.isAbsolute s = true)
    (hbase : base.path = .segments names) (hone : startsWithSlashes true (cleaned s) = false) :
    ∃ u, base.join naming s = .ok u ∧ u.scheme = base.scheme ∧ u.host = base.host ∧
      u.port = base.port := by
  obtain ⟨cs, hcs⟩ := cleaned_rooted h
  have hhead : (cut ('/' :: cs)).head = '/' :: cs.takeWhile inHead := by
    rw [cut_head, List.takeWhile_cons_of_pos (by decide)]
  have hslashes : startsWithSlashes true ('/' :: cs.takeWhile inHead) = false := by
    rw [hcs] at hone
    cases cs with
    | nil => rfl
    | cons c rest =>
      rw [List.takeWhile_cons]
      split
      · exact hone
      · rfl
  have hslash : isSlash (isSpecial base.scheme) '/' = true := Bool.or_eq_true_iff.2 (.inl rfl)
  unfold join readWith
  dsimp only
  rw [hcs, cutScheme?_rooted]
  dsimp only
  rw [hbase]
  dsimp only
  unfold readRelative
  dsimp only
  rw [hhead, hslashes, if_neg Bool.false_ne_true, hbase]
  dsimp only
  rw [if_pos hslash]
  exact ⟨_, rfl, rfl, rfl, rfl⟩

end Url

namespace Location

variable {path : String} {base : Option Location} {url : Url} {names : List String}

theorem resolve_rooted (naming : Naming) (h : FilePath.isAbsolute path = true)
    (hbase : ∀ url, base ≠ some (.remote url)) : resolve naming path base = .file path := by
  have hnone : absolute? naming path = none := by
    rw [absolute?, Url.parse?_rooted naming h, Option.bind_none]
  unfold resolve
  rw [hnone]
  match base with
  | none => rfl
  | some (.file document) =>
    dsimp only
    rw [FilePath.join, h, Bool.true_or, if_pos rfl]
  | some (.remote url) => exact absurd rfl (hbase url)

theorem resolve_rooted_remote (naming : Naming) (h : FilePath.isAbsolute path = true)
    (hpath : url.path = .segments names)
    (hone : Url.startsWithSlashes true (Url.cleaned path) = false) :
    ∃ u, resolve naming path (some (.remote url)) = .remote u ∧ u.scheme = url.scheme ∧
      u.host = url.host ∧ u.port = url.port := by
  have hnone : absolute? naming path = none := by
    rw [absolute?, Url.parse?_rooted naming h, Option.bind_none]
  obtain ⟨u, hjoin, hserver⟩ := Url.join_rooted naming h hpath hone
  refine ⟨u, ?_, hserver⟩
  unfold resolve
  rw [hnone]
  dsimp only
  rw [hjoin]

end Location

/-- A source description that is looked for, and where its document lies. -/
structure Look where
  source : SourceDescription
  base : Option Location

namespace Loader

variable {loader : Loader} {d inner : Document} {base : Option Location} {visiting : List String}
  {source : SourceDescription} {location : Location} {tree : Json} {t t' t'' : Trace}
  {looks looks' : List Look} {registry : Registry} {contents : Contents}

def placeOf (loader : Loader) (look : Look) : Location := loader.place look.base look.source

def request? (loader : Loader) (look : Look) : Option HttpRequest :=
  match loader.placeOf look with
  | .remote url => some ⟨"GET", url, [], [], loader.timeout, loader.maxBytes⟩
  | .file _ => none

def file? (loader : Loader) (look : Look) : Option String :=
  match loader.placeOf look with
  | .remote _ => none
  | .file path => some path

/-- All that is sent and read in between is for these looks, one after the other. -/
structure Follows (loader : Loader) (t : Trace) (looks : List Look) (t' : Trace) : Prop where
  requests : t'.requests = t.requests ++ looks.filterMap loader.request?
  reads : t'.reads = t.reads ++ looks.filterMap loader.file?

namespace Follows

theorem nil (t : Trace) : Follows loader t [] t :=
  ⟨(List.append_nil _).symm, (List.append_nil _).symm⟩

theorem append (h : Follows loader t looks t') (h' : Follows loader t' looks' t'') :
    Follows loader t (looks ++ looks') t'' where
  requests := by rw [h'.requests, h.requests, List.filterMap_append, List.append_assoc]
  reads := by rw [h'.reads, h.reads, List.filterMap_append, List.append_assoc]

theorem readText (look : Look) (t : Trace) :
    Follows loader t [look] ((loader.readText (loader.placeOf look)).run t).2 := by
  cases hplace : loader.placeOf look with
  | file path =>
    have hfile : loader.file? look = some path := by rw [file?, hplace]
    have hnone : loader.request? look = none := by rw [request?, hplace]
    refine ⟨?_, ?_⟩
    · rw [List.filterMap_cons_none hnone, List.filterMap_nil, List.append_nil]
      rfl
    · rw [List.filterMap_cons_some hfile, List.filterMap_nil]
      rfl
  | remote url =>
    let request : HttpRequest := ⟨"GET", url, [], [], loader.timeout, loader.maxBytes⟩
    have hrequest : loader.request? look = some request := by rw [request?, hplace]
    have hnone : loader.file? look = none := by rw [file?, hplace]
    obtain ⟨result, clock, hfetch⟩ := loader.run_fetch request t
    have fetched : Follows loader t [look] { t.request request with clock } := by
      refine ⟨?_, ?_⟩
      · rw [List.filterMap_cons_some hrequest, List.filterMap_nil]
        rfl
      · rw [List.filterMap_cons_none hnone, List.filterMap_nil, List.append_nil]
        rfl
    show Follows loader t [look] ((loader.readRemote url).run t).2
    unfold readRemote
    rw [StateT.run_bind, hfetch]
    cases result with
    | error error => exact fetched
    | ok response =>
      change Follows loader t [look] (StateT.run (σ := Trace) (m := Id) (ite _ _ _) _).2
      split
      · exact fetched
      · exact fetched

end Follows

inductive Reaches (loader : Loader) :
    Document → Option Location → Document → Option Location → Prop where
  | here (d : Document) (base : Option Location) : Reaches loader d base d base
  | inside {d inner further : Document} {base last : Option Location} {source : SourceDescription}
    {tree : Json} (listed : source ∈ d.sourceDescriptions) (kind : source.kind = .arazzo)
    (opens : loader.nestedDocument source.name (loader.place base source) tree = .ok inner)
    (rest : Reaches loader inner (some (loader.place base source)) further last) :
    Reaches loader d base further last

/-- The look is for a source of the document or of one inside it, without a document in place of it. -/
def Met (loader : Loader) (d : Document) (base : Option Location) (look : Look) : Prop :=
  Table.get? look.source.name loader.documents = none ∧ ∃ further,
    Reaches loader d base further look.base ∧ look.source ∈ further.sourceDescriptions

theorem Met.inside {look : Look} (h : Met loader inner (some (loader.place base source)) look)
    (listed : source ∈ d.sourceDescriptions) (kind : source.kind = .arazzo)
    (opens : loader.nestedDocument source.name (loader.place base source) tree = .ok inner) :
    Met loader d base look := by
  obtain ⟨hnone, further, rest, hlook⟩ := h
  exact ⟨hnone, further, .inside listed kind opens rest, hlook⟩

structure Looked (loader : Loader) (d : Document) (base : Option Location) (t : Trace)
    (looks : List Look) (t' : Trace) : Prop where
  follows : Follows loader t looks t'
  met : ∀ look ∈ looks, Met loader d base look

namespace Looked

theorem nil (t : Trace) : Looked loader d base t [] t :=
  ⟨.nil t, fun _ h => absurd h List.not_mem_nil⟩

theorem append (h : Looked loader d base t looks t') (h' : Looked loader d base t' looks' t'') :
    Looked loader d base t (looks ++ looks') t'' := by
  refine ⟨h.follows.append h'.follows, fun look hlook => ?_⟩
  rcases List.mem_append.1 hlook with hlook | hlook
  · exact h.met look hlook
  · exact h'.met look hlook

theorem inside (h : Looked loader inner (some (loader.place base source)) t looks t')
    (listed : source ∈ d.sourceDescriptions) (kind : source.kind = .arazzo)
    (opens : loader.nestedDocument source.name (loader.place base source) tree = .ok inner) :
    Looked loader d base t looks t' :=
  ⟨h.follows, fun look hlook => (h.met look hlook).inside listed kind opens⟩

end Looked

/-! What is loaded -/

/-- The source was looked for, and what its file says, if it lies in one, is what is used. -/
structure Used (loader : Loader) (base : Option Location) (openapi : List InterfaceDocument)
    (source : SourceDescription) (looks : List Look) : Prop where
  looked : ⟨source, base⟩ ∈ looks
  file : ∀ path, loader.place base source = .file path →
    ∃ text tree, loader.files.read path = .ok text ∧ parseTree (.file path) text = .ok tree ∧
      (source.kind = .openapi → ⟨source.name, path, tree⟩ ∈ openapi) ∧
      (source.kind = .arazzo →
        ∃ inner, loader.nestedDocument source.name (.file path) tree = .ok inner)

theorem Used.mono {openapi openapi' : List InterfaceDocument}
    (h : Used loader base openapi source looks) (hopenapi : openapi ⊆ openapi')
    (hlooks : looks ⊆ looks') : Used loader base openapi' source looks' := by
  refine ⟨hlooks h.looked, fun path hpath => ?_⟩
  obtain ⟨text, tree, hread, hparse, hinterface, hinner⟩ := h.file path hpath
  exact ⟨text, tree, hread, hparse, fun hkind => hopenapi (hinterface hkind), hinner⟩

/-- All sources of all documents in the registry are among these looks, apart from those that
documents are given for. -/
def Covers (loader : Loader) (registry : Registry) (looks : List Look) : Prop :=
  ∀ key home, registry.at? key = some home → ∀ source ∈ home.document.sourceDescriptions,
    Table.get? source.name loader.documents = none →
    Used loader home.location home.openapi source looks

theorem Covers.mono (h : Covers loader registry looks) (hlooks : looks ⊆ looks') :
    Covers loader registry looks' :=
  fun key home hkey source hsource hnone =>
    (h key home hkey source hsource hnone).mono (List.Subset.refl _) hlooks

structure Adds (loader : Loader) (base : Option Location) (sources : List SourceDescription)
    (looks : List Look) (contents contents' : Contents) : Prop where
  openapi : contents.openapi ⊆ contents'.openapi
  used : ∀ source ∈ sources, Table.get? source.name loader.documents = none →
    Used loader base contents'.openapi source looks
  nested : ∀ name registry, Table.get? name contents'.nested = some registry →
    Table.get? name contents.nested = some registry ∨ Covers loader registry looks

namespace Adds

variable {contents' contents'' : Contents} {rest : List SourceDescription}

theorem nil (contents : Contents) : Adds loader base [] [] contents contents :=
  ⟨List.Subset.refl _, fun _ h => absurd h List.not_mem_nil, fun _ _ h => .inl h⟩

theorem cons (h : Adds loader base [source] looks contents contents')
    (h' : Adds loader base rest looks' contents' contents'') :
    Adds loader base (source :: rest) (looks ++ looks') contents contents'' where
  openapi := List.Subset.trans h.openapi h'.openapi
  used other hother hnone := by
    rcases List.mem_cons.1 hother with rfl | hrest
    · have used := h.used other (List.mem_singleton_self _) hnone
      exact used.mono h'.openapi (List.subset_append_left ..)
    · exact (h'.used other hrest hnone).mono (List.Subset.refl _) (List.subset_append_right ..)
  nested name registry hget := by
    rcases h'.nested name registry hget with hbefore | covers
    · exact (h.nested name registry hbefore).imp_right fun covers =>
        covers.mono (List.subset_append_left ..)
    · exact .inr (covers.mono (List.subset_append_right ..))

theorem covers (h : Adds loader base d.sourceDescriptions looks {} contents) :
    Covers loader (.mk d base contents.openapi contents.nested) looks := by
  intro key home hkey
  cases key with
  | nil =>
    obtain rfl : Registry.mk d base contents.openapi contents.nested = home := Option.some.inj hkey
    exact h.used
  | cons name rest =>
    obtain ⟨registry, hget, hrest⟩ := Option.bind_eq_some_iff.1 hkey
    rcases h.nested name registry hget with hbefore | covers
    · cases hbefore
    · exact covers rest home hrest

end Adds

abbrev Accounts (loader : Loader) (d : Document) (base : Option Location)
    (work : Loading Registry) : Prop :=
  ∀ t, Leads work t
    (fun registry t' => ∃ looks, Looked loader d base t looks t' ∧ Covers loader registry looks)
    fun _ t' => ∃ looks, Looked loader d base t looks t'

theorem tree_looks (listed : source ∈ d.sourceDescriptions) (t : Trace) :
    Leads (loader.tree visiting source (loader.place base source)) t
      (fun tree t' => ∃ looks, Looked loader d base t looks t' ∧
        (Table.get? source.name loader.documents = none → ⟨source, base⟩ ∈ looks ∧
          ∀ path, loader.place base source = .file path → ∃ text,
            loader.files.read path = .ok text ∧ parseTree (.file path) text = .ok tree))
      fun _ t' => ∃ looks, Looked loader d base t looks t' := by
  unfold tree
  split
  · rename_i tree hgiven
    refine .of_pure ⟨[], .nil t, fun hnone => ?_⟩
    rw [hgiven] at hnone
    cases hnone
  · rename_i hnone
    dsimp only
    split
    · exact .of_throw ⟨[], .nil t⟩
    · have met : Met loader d base ⟨source, base⟩ := ⟨hnone, d, .here d base, listed⟩
      have looked : Looked loader d base t [⟨source, base⟩]
          ((loader.readText (loader.place base source)).run t).2 :=
        ⟨.readText ⟨source, base⟩ t, fun look hlook => List.mem_singleton.1 hlook ▸ met⟩
      refine .bind_lift ?_
      split
      · rename_i tree hloaded
        refine .of_pure ⟨_, looked, fun _ => ⟨List.mem_singleton_self _, fun path hplace => ?_⟩⟩
        rw [hplace] at hloaded
        have hread : ((loader.readText (.file path)).run t).1 =
            (loader.files.read path).mapError (.read path) := by
          cases hfile : loader.files.read path <;> simp only [readText, readFile, hfile] <;> rfl
        rw [hread] at hloaded
        cases hfile : loader.files.read path with
        | ok text =>
          rw [hfile] at hloaded
          exact ⟨text, rfl, hloaded⟩
        | error fault =>
          rw [hfile] at hloaded
          cases hloaded
      · exact .of_throw ⟨_, looked⟩

theorem addSource_looks {load : Document → Location → List String → Loading Registry}
    (hload : ∀ inner location visiting, Accounts loader inner (some location)
      (load inner location visiting))
    (listed : source ∈ d.sourceDescriptions) (contents : Contents) (t : Trace) :
    Leads (loader.addSource base visiting load contents source) t
      (fun contents' t' => ∃ looks, Looked loader d base t looks t' ∧
        Adds loader base [source] looks contents contents')
      fun _ t' => ∃ looks, Looked loader d base t looks t' := by
  unfold addSource
  dsimp only
  refine (tree_looks listed t).bind ?_
  rintro tree t₁ ⟨looks, looked, hsource⟩
  cases hkind : source.kind with
  | openapi =>
    refine .of_pure ⟨looks, looked, List.subset_append_left .., fun other hother hnone => ?_,
      fun _ _ hget => .inl hget⟩
    obtain rfl := List.mem_singleton.1 hother
    obtain ⟨hlook, hfile⟩ := hsource hnone
    refine ⟨hlook, fun path hplace => ?_⟩
    obtain ⟨text, hread, hparse⟩ := hfile path hplace
    refine ⟨text, tree, hread, hparse, fun _ => ?_, fun harazzo => ?_⟩
    · rw [hplace]
      exact List.mem_append_right _ (List.mem_singleton_self _)
    · rw [hkind] at harazzo
      cases harazzo
  | arazzo =>
    dsimp only
    cases hinner : loader.nestedDocument source.name (loader.place base source) tree with
    | error error => exact .of_throw ⟨looks, looked⟩
    | ok inner =>
      -- The document was looked for first, and what it names is looked for before anything else.
      have loaded := hload inner (loader.place base source)
        (visiting ++ [(loader.place base source).text]) t₁
      refine (loaded.mono (fun _ _ h => h) ?_).bind ?_
      · rintro _ t' ⟨more, looked'⟩
        exact ⟨looks ++ more, looked.append (looked'.inside listed hkind hinner)⟩
      · rintro registry t₂ ⟨more, looked', covers⟩
        refine .of_pure ⟨looks ++ more, looked.append (looked'.inside listed hkind hinner),
          List.Subset.refl _, fun other hother hnone => ?_, fun name nested hget => ?_⟩
        · obtain rfl := List.mem_singleton.1 hother
          obtain ⟨hlook, hfile⟩ := hsource hnone
          refine ⟨List.mem_append_left _ hlook, fun path hplace => ?_⟩
          obtain ⟨text, hread, hparse⟩ := hfile path hplace
          rw [hplace] at hinner
          refine ⟨text, tree, hread, hparse, fun hopenapi => ?_, fun _ => ⟨inner, hinner⟩⟩
          rw [hkind] at hopenapi
          cases hopenapi
        · rw [Table.get?_insert] at hget
          split at hget
          · obtain rfl := Option.some.inj hget
            exact .inr (covers.mono (List.subset_append_right ..))
          · exact .inl hget

theorem addSources_looks {load : Document → Location → List String → Loading Registry}
    (hload : ∀ inner location visiting, Accounts loader inner (some location)
      (load inner location visiting))
    {sources : List SourceDescription} (listed : sources ⊆ d.sourceDescriptions)
    (contents : Contents) (t : Trace) :
    Leads (sources.foldlM (loader.addSource base visiting load) contents) t
      (fun contents' t' => ∃ looks, Looked loader d base t looks t' ∧
        Adds loader base sources looks contents contents')
      fun _ t' => ∃ looks, Looked loader d base t looks t' := by
  induction sources generalizing contents t with
  | nil => exact .of_pure ⟨[], .nil t, .nil contents⟩
  | cons source rest ih =>
    rw [List.foldlM_cons]
    refine (addSource_looks hload (listed (List.mem_cons_self ..)) contents t).bind ?_
    rintro contents₁ t₁ ⟨looks, looked, adds⟩
    refine (ih (fun other hother => listed (List.mem_cons_of_mem _ hother)) contents₁ t₁).mono ?_ ?_
    · rintro contents' t' ⟨more, looked', adds'⟩
      exact ⟨looks ++ more, looked.append looked', adds.cons adds'⟩
    · rintro _ t' ⟨more, looked'⟩
      exact ⟨looks ++ more, looked.append looked'⟩

theorem accounts_loadFrom (loader : Loader) (depth : Nat) (d : Document) (base : Option Location)
    (visiting : List String) : Accounts loader d base (loader.loadFrom depth d base visiting) := by
  induction depth generalizing d base visiting with
  | zero =>
    intro t
    unfold loadFrom
    exact .of_throw ⟨[], .nil t⟩
  | succ depth ih =>
    intro t
    unfold loadFrom
    refine (addSources_looks (fun inner location visiting => ih inner (some location) visiting)
      (List.Subset.refl _) {} t).bind ?_
    rintro contents t' ⟨looks, looked, adds⟩
    exact .of_pure ⟨looks, looked, adds.covers⟩

theorem placeOf_override {look : Look} {path : String}
    (hplace : Table.get? look.source.name loader.locations = some path) :
    loader.placeOf look = Location.resolve loader.naming path look.base := by
  rw [placeOf, place, hplace, Option.getD_some]

theorem placeOf_rooted {look : Look} {path : String}
    (hplace : Table.get? look.source.name loader.locations = some path)
    (hrooted : FilePath.isAbsolute path = true) (hbase : ∀ url, look.base ≠ some (.remote url)) :
    loader.placeOf look = .file path :=
  (placeOf_override hplace).trans (Location.resolve_rooted loader.naming hrooted hbase)

/--
Loading sends and reads what it looks at and nothing else, and it looks at all sources of all the
documents, those inside included. A rooted path that is given for a source is what is read for it,
and nothing is sent, unless the document that names the source lies at a URL: then the path is asked
for at the server of that document, and no file is read.
-/
theorem rooted_override_names_file (loader : Loader) (d : Document) (t : Trace) :
    ∃ looks, Looked loader d (d.sourcePath.map .file) t looks ((loader.load d).run t).2 ∧
      (∀ registry, ((loader.load d).run t).1 = .ok registry → Covers loader registry looks) ∧
      ∀ look ∈ looks, ∀ path, Table.get? look.source.name loader.locations = some path →
        FilePath.isAbsolute path = true →
        ((∀ url, look.base ≠ some (.remote url)) →
          loader.placeOf look = .file path ∧ loader.file? look = some path ∧
            loader.request? look = none) ∧
        ∀ url names, look.base = some (.remote url) → url.path = .segments names →
          Url.startsWithSlashes true (Url.cleaned path) = false →
          ∃ u, u.scheme = url.scheme ∧ u.host = url.host ∧ u.port = url.port ∧
            loader.placeOf look = .remote u ∧ loader.file? look = none ∧
            loader.request? look = some ⟨"GET", u, [], [], loader.timeout, loader.maxBytes⟩ := by
  have accounts := loader.accounts_loadFrom depthLimit d (d.sourcePath.map .file)
    ((d.sourcePath.map Location.file).map Location.text).toList t
  obtain ⟨looks, looked, covers⟩ : ∃ looks,
      Looked loader d (d.sourcePath.map .file) t looks ((loader.load d).run t).2 ∧
      ∀ registry, ((loader.load d).run t).1 = .ok registry → Covers loader registry looks := by
    rcases hrun : (loader.load d).run t with ⟨error | registry, t'⟩
    · obtain ⟨looks, looked⟩ := accounts.of_error hrun
      exact ⟨looks, looked, fun _ hok => nomatch hok⟩
    · obtain ⟨looks, looked, covers⟩ := accounts.of_ok hrun
      exact ⟨looks, looked, fun _ hok => Except.ok.inj hok ▸ covers⟩
  refine ⟨looks, looked, covers, fun look _ path hplace hrooted => ⟨fun hbase => ?_, ?_⟩⟩
  · have hfile := placeOf_rooted hplace hrooted hbase
    refine ⟨hfile, ?_, ?_⟩
    · rw [file?, hfile]
    · rw [request?, hfile]
  · intro url names hbase hpath hone
    obtain ⟨u, hremote, hscheme, hhost, hport⟩ :=
      Location.resolve_rooted_remote loader.naming hrooted hpath hone
    have hplaceOf : loader.placeOf look = .remote u := by
      rw [placeOf_override hplace, hbase, hremote]
    refine ⟨u, hscheme, hhost, hport, hplaceOf, ?_, ?_⟩
    · rw [file?, hplaceOf]
    · rw [request?, hplaceOf]

def sourceTree (name kind url : String) : Json :=
  .obj [("arazzo", .str "1.0.1"),
    ("info", .obj [("title", .str "t"), ("version", .str "1")]),
    ("sourceDescriptions", .arr [.obj
      [("name", .str name), ("type", .str kind), ("url", .str url)]]),
    ("workflows", .arr [.obj
      [("steps", .arr [.obj [("operationId", .str "get"), ("stepId", .str "s")]]),
        ("workflowId", .str "w")]])]

def petsTree : Json := .obj [("paths", .obj [])]

def petsLoader : Loader :=
  { client := ⟨fun before _ =>
      { latency := ⟨0⟩
        result := .ok
          { status := 200
            headers := []
            body := (if before.isEmpty then (sourceTree "pets" "openapi" "openapi.json").render
              else petsTree.render).toUTF8.toList } }⟩
    files := Files.ofTable "/d" [("flows.json", (sourceTree "pets" "openapi" "openapi.json").render),
      ("pets.json", petsTree.render)]
    locations := [("pets", "/d/pets.json")]
    timeout := ⟨0⟩
    maxBytes := 0 }

structure Inside (path : Option String) (url : String) (place : Option Location) (d : Document)
    (registry home : Registry) (source : SourceDescription) : Prop where
  parsed : (Document.parse false path (sourceTree "flows" "arazzo" url)).usable? = some d
  loaded : ((petsLoader.load d).run {}).1 = .ok registry
  at_flows : registry.at? ["flows"] = some home
  location : home.location = place
  listed : source ∈ home.document.sourceDescriptions
  name : source.name = "pets"

def loadsInside (place : Option Location) (requests reads : List String) (d : Document) : Bool :=
  match (petsLoader.load d).run {} with
  | (.ok registry, t) =>
    t.requests.map (·.url.text) == requests && t.reads == reads &&
      (registry.at? ["flows"]).any fun home => home.location == place &&
        home.document.sourceDescriptions.any fun source => source.name == "pets"
  | (.error _, _) => false

theorem exists_inside {path : Option String} {url : String} {place : Option Location}
    {requests reads : List String}
    (h : (Document.parse false path (sourceTree "flows" "arazzo" url)).usable?.any
      (loadsInside place requests reads) = true) :
    ∃ d registry home source, Inside path url place d registry home source ∧
      ((petsLoader.load d).run {}).2.requests.map (·.url.text) = requests ∧
      ((petsLoader.load d).run {}).2.reads = reads := by
  obtain ⟨d, hd, h⟩ := (Option.any_eq_true _ _).1 h
  unfold loadsInside at h
  split at h
  · rename_i registry t hrun
    simp only [Bool.and_eq_true, beq_iff_eq] at h
    obtain ⟨⟨hrequests, hreads⟩, h⟩ := h
    obtain ⟨home, hhome, h⟩ := (Option.any_eq_true _ _).1 h
    obtain ⟨hplace, h⟩ := Bool.and_eq_true_iff.1 h
    obtain ⟨source, hsource, hname⟩ := List.any_eq_true.1 h
    have hloaded : ((petsLoader.load d).run {}).1 = .ok registry := by rw [hrun]
    refine ⟨d, registry, home, source,
      ⟨hd, hloaded, hhome, beq_iff_eq.1 hplace, hsource, beq_iff_eq.1 hname⟩, ?_⟩
    rw [hrun]
    exact ⟨hrequests, hreads⟩
  · cases h

def flowsUrl : String := "https://a.b/flows.json"

theorem exists_inside_remote : ∃ d registry home source,
    Inside none flowsUrl ((Url.parse? .punycode flowsUrl).map .remote) d registry home source ∧
      ((petsLoader.load d).run {}).2.requests.map (·.url.text) =
        [flowsUrl, "https://a.b/d/pets.json"] ∧
      ((petsLoader.load d).run {}).2.reads = [] :=
  exists_inside (by decide +kernel)

/-- The file is there, but a server is asked for it. -/
theorem rooted_override_requested :
    (Document.parse false none (sourceTree "flows" "arazzo" flowsUrl)).diagnostics = [] ∧
      Table.get? "pets" petsLoader.locations = some "/d/pets.json" ∧
      FilePath.isAbsolute "/d/pets.json" = true ∧
      petsLoader.files.read "/d/pets.json" = .ok petsTree.render ∧
      ∃ d registry home source,
        Inside none flowsUrl ((Url.parse? .punycode flowsUrl).map .remote) d registry home source ∧
        ((petsLoader.load d).run {}).2.requests.map (·.url.text) =
          [flowsUrl, "https://a.b/d/pets.json"] ∧
        ((petsLoader.load d).run {}).2.reads = [] := by
  have hquiet : (Document.parse false none
      (sourceTree "flows" "arazzo" flowsUrl)).diagnostics.isEmpty = true := by
    decide +kernel
  have hread : (petsLoader.files.read "/d/pets.json").toOption = some petsTree.render := by
    decide +kernel
  exact ⟨List.isEmpty_iff.1 hquiet, rfl, rfl, eq_ok_of_toOption hread, exists_inside_remote⟩

theorem rooted_override_names_file_inside :
    (∃ d registry home source, Inside (some "/d/main.json") "flows.json"
        (some (.file "/d/flows.json")) d registry home source ∧
      ((petsLoader.load d).run {}).2.reads = ["/d/flows.json", "/d/pets.json"] ∧
      petsLoader.file? ⟨source, home.location⟩ = some "/d/pets.json" ∧
      petsLoader.request? ⟨source, home.location⟩ = none ∧
      ∃ text, petsLoader.files.read "/d/pets.json" = .ok text) ∧
    ∃ d registry home source url u,
      Inside none flowsUrl (some (.remote url)) d registry home source ∧
      u.host = url.host ∧ petsLoader.placeOf ⟨source, home.location⟩ = .remote u ∧
      petsLoader.file? ⟨source, home.location⟩ = none := by
  have nothing {source : SourceDescription} :
      Table.get? source.name petsLoader.documents = none := rfl
  have rooted {source : SourceDescription} (hname : source.name = "pets") :
      Table.get? source.name petsLoader.locations = some "/d/pets.json" := by
    rw [hname]
    rfl
  constructor
  · have hloads : (Document.parse false (some "/d/main.json")
        (sourceTree "flows" "arazzo" "flows.json")).usable?.any (loadsInside
          (some (.file "/d/flows.json")) [] ["/d/flows.json", "/d/pets.json"]) = true := by
      decide +kernel
    obtain ⟨d, registry, home, source, inside, -, hreads⟩ := exists_inside hloads
    obtain ⟨looks, -, covers, places⟩ := rooted_override_names_file petsLoader d {}
    have used := covers registry inside.loaded _ home inside.at_flows source inside.listed nothing
    have local_base : ∀ url, home.location ≠ some (.remote url) := by
      intro url
      rw [inside.location]
      exact nofun
    obtain ⟨hplace, hfile, hrequest⟩ :=
      (places _ used.looked "/d/pets.json" (rooted inside.name) rfl).1 local_base
    obtain ⟨text, -, hread, -⟩ := used.file "/d/pets.json" hplace
    exact ⟨d, registry, home, source, inside, hreads, hfile, hrequest, text, hread⟩
  · obtain ⟨d, registry, home, source, inside, -⟩ := exists_inside_remote
    obtain ⟨looks, -, covers, places⟩ := rooted_override_names_file petsLoader d {}
    have used := covers registry inside.loaded _ home inside.at_flows source inside.listed nothing
    obtain ⟨url, hurl, hsegments⟩ : ∃ url, Url.parse? .punycode flowsUrl = some url ∧
        url.path = .segments ["flows.json"] := by
      have hchecked : (Url.parse? .punycode flowsUrl).any
          (fun url => url.path == .segments ["flows.json"]) = true := by
        decide +kernel
      obtain ⟨url, hurl, hpath⟩ := (Option.any_eq_true _ _).1 hchecked
      exact ⟨url, hurl, beq_iff_eq.1 hpath⟩
    rw [hurl, Option.map_some] at inside
    obtain ⟨u, -, hhost, -, hplace, hfile, -⟩ :=
      (places _ used.looked "/d/pets.json" (rooted inside.name) rfl).2 url _ inside.location hsegments
        (by decide)
    exact ⟨d, registry, home, source, url, u, inside, hhost, hplace, hfile⟩

end Loader
end Arazzo
