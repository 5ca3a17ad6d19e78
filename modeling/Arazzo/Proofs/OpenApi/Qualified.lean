import Arazzo.Proofs.OpenApi.Lookup

/-! Ids behind the name of their source: they are read as expressions are, so the operation is found
when the id is made of names and dots, and no other id can be addressed this way. -/

namespace Arazzo.OpenApi

open Expression

variable {documents : List InterfaceDocument} {document : InterfaceDocument}
  {path method name id source text : String} {found : Operation}

/-- The parts between the dots are neither empty nor of other characters than names are. -/
def Dotted (id : String) : Prop :=
  ∀ part ∈ Text.splitAll '.' id.toList, part ≠ [] ∧ ∀ c ∈ part, isNameChar c = true

instance (id : String) : Decidable (Dotted id) :=
  decidable_of_iff ((Text.splitAll '.' id.toList).all fun part =>
    !part.isEmpty && part.all isNameChar) (by simp [Dotted])

def qualifiedText (source id : String) : String := "$sourceDescriptions." ++ source ++ "." ++ id

/-- Whatever the text is, what is read of it as an id behind a source has no parts but names. -/
theorem dotted_of_qualified? (h : qualified? text = some (name, id)) : id = "" ∨ Dotted id := by
  unfold qualified? at h
  split at h
  · rename_i names hparse
    obtain ⟨hspelled, -⟩ := spelled_of_parse hparse
    obtain ⟨rfl, rfl⟩ := Prod.mk.inj (Option.some.inj h)
    cases hspelled.formed with
    | named _ hnames hother =>
      obtain ⟨-, hrest⟩ := List.forall_mem_cons.1 hnames
      by_cases hone : names.rest = []
      · rw [hone]
        exact .inl rfl
      · refine .inr ?_
        rw [Dotted, splitAll_names hone fun name hname => (hrest name hname).2]
        intro part hpart
        obtain ⟨name, hname, rfl⟩ := List.mem_map.1 hpart
        exact (hrest name hname).1
  · cases h

theorem toList_qualifiedText (source id : String) :
    (qualifiedText source id).toList =
      '$' :: (Scope.sourceDescriptions.keyword.toList ++
        '.' :: (source.toList ++ '.' :: id.toList)) := by
  have hscope : "$sourceDescriptions.".toList =
      '$' :: (Scope.sourceDescriptions.keyword.toList ++ ['.']) := by simp [Scope.keyword]
  have hdot : ".".toList = ['.'] := rfl
  delta qualifiedText
  rw [String.toList_append, String.toList_append, String.toList_append, hscope, hdot]
  simp only [List.append_assoc, List.cons_append, List.nil_append]

theorem trimChars_qualifiedText (hid : id ≠ "") (htrim : Text.trim id = id) (source : String) :
    Text.trimChars (qualifiedText source id).toList = (qualifiedText source id).toList := by
  have hlead : (qualifiedText source id).toList =
      '$' :: (Scope.sourceDescriptions.keyword.toList ++ '.' :: (source.toList ++ ['.'])) ++
        id.toList := by
    rw [toList_qualifiedText]
    simp only [List.append_assoc, List.cons_append, List.nil_append]
  rw [hlead]
  refine Text.trimChars_append ?_ (List.cons_ne_nil _ _) (by simpa using hid)
    (Text.trim_eq_self_iff.1 htrim)
  rintro c ⟨⟩
  rfl

theorem joined_splitAll (id : String) :
    String.intercalate "." ((Text.splitAll '.' id.toList).map String.ofList) = id := by
  have hlists : ((Text.splitAll '.' id.toList).map String.ofList).map String.toList =
      Text.splitAll '.' id.toList := by simp
  rw [← String.toList_inj, toList_names, hlists, Text.joinWith_splitAll]

theorem qualified?_of_dotted (hsource : Validation.isIdText source = true) (hdotted : Dotted id) :
    qualified? (qualifiedText source id) = some (source, id) := by
  obtain ⟨hne, hdot, hchars⟩ := nameChars_of_isIdText hsource
  have hformed : NamePath.Formed ⟨source, (Text.splitAll '.' id.toList).map String.ofList, none⟩ := by
    refine List.forall_mem_cons.2 ⟨⟨⟨hne, hchars⟩, hdot⟩, fun name hname => ?_⟩
    obtain ⟨part, hpart, rfl⟩ := List.mem_map.1 hname
    rw [String.toList_ofList]
    exact ⟨hdotted part hpart, Text.not_mem_of_mem_splitAll hpart⟩
  have hnames : (namesText ⟨source, (Text.splitAll '.' id.toList).map String.ofList, none⟩).toList =
      source.toList ++ '.' :: id.toList := by
    rw [namesText, toList_names, List.map_cons, Text.joinWith_cons (by simp [Text.splitAll_ne_nil]),
      ← toList_names, joined_splitAll, List.append_assoc, List.singleton_append]
  have htext : qualifiedText source id = "$" ++ Scope.sourceDescriptions.keyword ++ "." ++
      namesText ⟨source, (Text.splitAll '.' id.toList).map String.ofList, none⟩ := by
    have hdollar : "$".toList = ['$'] := rfl
    rw [← String.toList_inj, toList_qualifiedText, toList_behind, String.toList_append, hdollar, hnames]
    rfl
  have hparse := parse_names (by decide : Scope.sourceDescriptions ≠ .components) hformed rfl
  rw [qualified?, htext, hparse]
  dsimp only
  rw [joined_splitAll]

theorem findById_of_qualified? (hdocuments : documents ≠ []) (htrim : Text.trim text = text)
    (h : qualified? text = some (name, id)) :
    findById documents text =
      (inSource documents name).bind fun document => orNotFound id (findId? id document) := by
  have hempty : documents.isEmpty = false := by simpa using hdocuments
  unfold findById
  simp only [hempty, Bool.false_eq_true, if_false, htrim, h]
  rfl

theorem operationId_of_findById (hsound : ∀ d ∈ documents, d.raw.Sound)
    (htrim : Text.trim text = text) (h : findById documents text = .ok found) :
    found.operationId = some (((qualified? text).map Prod.snd).getD text) := by
  have hdocuments : documents ≠ [] := by
    rintro rfl
    cases h
  cases hread : qualified? text with
  | none =>
    rw [findById_of_unqualified hdocuments htrim hread] at h
    obtain ⟨d, hd, hhere⟩ := List.exists_of_findSome?_eq_some (orNotFound_eq_ok_iff.1 h)
    obtain ⟨path, method, -, -, hid⟩ := findId?_first (hsound d hd) hhere
    exact hid
  | some reading =>
    rw [findById_of_qualified? hdocuments htrim hread] at h
    obtain ⟨d, hd, hhere⟩ := exists_of_bind_ok h
    rw [inSource] at hd
    split at hd
    · rename_i hsource
      obtain rfl := Except.ok.inj hd
      obtain ⟨path, method, -, -, hid⟩ :=
        findId?_first (hsound _ (List.mem_of_find?_eq_some hsource)) (orNotFound_eq_ok_iff.1 hhere)
      exact hid
    · cases hd

theorem qualifiedText_ne (source id : String) : qualifiedText source id ≠ id := by
  intro hsame
  have hlength := congrArg (fun text => text.toList.length) hsame
  simp only [toList_qualifiedText, List.length_cons, List.length_append] at hlength
  omega

/--
Behind the name of its source an id that a document declares finds the first operation of that id
there, when the id is made of names and dots. Any other id finds no operation that declares it.
-/
theorem findById_qualified (hnames : (documents.map (·.name)).Nodup)
    (hsound : ∀ d ∈ documents, d.raw.Sound) (hdocument : document ∈ documents)
    (hname : Validation.isIdText document.name = true) (hid : id ≠ "") (htrim : Text.trim id = id)
    (hdeclares : Declares document path method id) :
    (Dotted id → ∃ path' method' found, DeclaresFirst document path' method' id ∧
      describe? document path' method' = some found ∧
      findById documents (qualifiedText document.name id) = .ok found) ∧
    (¬ Dotted id → ∀ found, findById documents (qualifiedText document.name id) = .ok found →
      found.operationId ≠ some id) := by
  have hchars := trimChars_qualifiedText hid htrim document.name
  have htext : Text.trim (qualifiedText document.name id) = qualifiedText document.name id :=
    Text.trim_eq_self_iff.2 hchars
  constructor
  · intro hdotted
    obtain ⟨found, hfound⟩ := findId?_of_declares (hsound document hdocument) hdeclares
    obtain ⟨path', method', first, hdescribed, -⟩ := findId?_first (hsound document hdocument) hfound
    have hsource : inSource documents document.name = .ok document := by
      rw [inSource, find?_of_nodup hnames hdocument]
    refine ⟨path', method', found, first, hdescribed, ?_⟩
    rw [findById_of_qualified? (List.ne_nil_of_mem hdocument) htext
      (qualified?_of_dotted hname hdotted), hsource]
    dsimp only [Except.bind]
    rw [hfound]
    rfl
  -- The id that is looked for is made of names, or it is the whole text.
  · intro hother found hfound hsame
    have hlooked := (operationId_of_findById hsound htext hfound).symm.trans hsame
    cases hread : qualified? (qualifiedText document.name id) with
    | none =>
      rw [hread] at hlooked
      exact qualifiedText_ne _ _ (Option.some.inj hlooked)
    | some reading =>
      rw [hread] at hlooked
      obtain ⟨name, id'⟩ := reading
      obtain rfl : id' = id := Option.some.inj hlooked
      exact (dotted_of_qualified? hread).elim hid hother

def hub : InterfaceDocument where
  name := "hub"
  location := ""
  raw := .obj [("paths", .obj
    [("/a", .obj [("get", .obj [("operationId", .str "repos.list-all")])]),
      ("/b", .obj [("get", .obj [("operationId", .str "repos/list")])]),
      ("/c", .obj [("get", .obj [("operationId", .str "repos#/v2")])]),
      ("/d", .obj [("get", .obj [("operationId", .str "repos")])])])]

theorem hub_sound : hub.raw.Sound := by
  have item (id : String) : Json.Sound (.obj [("get", .obj [("operationId", .str id)])]) :=
    (Json.Sound.single "operationId" (.str id)).single "get"
  refine Json.Sound.single "paths" (.obj (by decide) ?_)
  rintro entry hentry
  simp only [List.mem_cons, List.not_mem_nil, or_false] at hentry
  rcases hentry with rfl | rfl | rfl | rfl <;> exact item _

theorem findById_qualified_hub :
    (∃ path method found, DeclaresFirst hub path method "repos.list-all" ∧
      describe? hub path method = some found ∧
      findById [hub] (qualifiedText "hub" "repos.list-all") = .ok found) ∧
    ∀ found, findById [hub] (qualifiedText "hub" "repos#/v2") = .ok found →
      found.operationId ≠ some "repos#/v2" := by
  have hnames : ([hub].map (·.name)).Nodup := List.nodup_singleton "hub"
  have hsound : ∀ d ∈ [hub], d.raw.Sound := by simpa using hub_sound
  have hhub : hub ∈ [hub] := List.mem_singleton_self hub
  have hname : Validation.isIdText hub.name = true := by decide
  have hlist : Declares hub "/a" "get" "repos.list-all" :=
    .intro (by decide) rfl (.head _) rfl rfl
  have hmarked : Declares hub "/c" "get" "repos#/v2" :=
    .intro (by decide) rfl (.tail _ (.tail _ (.head _))) rfl rfl
  obtain ⟨hfinds, -⟩ :=
    findById_qualified hnames hsound hhub hname (by decide) (by decide +kernel) hlist
  obtain ⟨-, hmisses⟩ :=
    findById_qualified hnames hsound hhub hname (by decide) (by decide +kernel) hmarked
  exact ⟨hfinds (by decide), hmisses (by decide)⟩

/-- The one id is not found behind the name, and for the other a different operation is. -/
theorem findById_qualified_misses :
    Validation.isIdText hub.name = true ∧
    (Text.trim "repos/list" = "repos/list" ∧ Declares hub "/b" "get" "repos/list" ∧
      findById [hub] (qualifiedText "hub" "repos/list") =
        .error (.operationNotFound "$sourceDescriptions.hub.repos/list")) ∧
    Text.trim "repos#/v2" = "repos#/v2" ∧ Declares hub "/c" "get" "repos#/v2" ∧
      ∃ found, findById [hub] (qualifiedText "hub" "repos#/v2") = .ok found ∧
        found.path = "/d" ∧ found.operationId = some "repos" := by
  have hlist : Declares hub "/b" "get" "repos/list" :=
    .intro (by decide) rfl (.tail _ (.head _)) rfl rfl
  have hmarked : Declares hub "/c" "get" "repos#/v2" :=
    .intro (by decide) rfl (.tail _ (.tail _ (.head _))) rfl rfl
  refine ⟨by decide, ⟨by decide +kernel, hlist, by decide +kernel⟩, by decide +kernel, hmarked, ?_⟩
  exact ⟨⟨"hub", none, "GET", "/d", some "repos", []⟩, by decide +kernel, rfl, rfl⟩

end Arazzo.OpenApi
