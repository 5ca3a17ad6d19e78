import Arazzo.OpenApi.Lookup
import Arazzo.Proofs.Json.Sound
import Arazzo.Proofs.OpenApi.OperationPath
import Arazzo.Proofs.Pointer
import Arazzo.Proofs.Resolver.Outputs

/-! Which operation is found: by an id the first one that declares it, by a path the one that stands
there, and what is found by an id is found again by its path. -/

namespace Arazzo.OpenApi

variable {documents : List InterfaceDocument} {document : InterfaceDocument}
  {path method id written : String} {found : Operation} {c : Char}

theorem ascii_of_mem_method (hmethod : method ∈ methods) (hc : c ∈ method.toList) : c.toNat < 128 := by
  have hall : methods.all (fun method => method.toList.all fun c => c.toNat < 128) = true := by decide
  exact of_decide_eq_true (List.all_eq_true.1 (List.all_eq_true.1 hall method hmethod) c hc)

theorem map_asciiLower_method :
    ∀ method ∈ methods, method.toList.map Text.asciiLower = method.toList := by decide

theorem token_method : ∀ method ∈ methods, method.toList ≠ [] ∧ '/' ∉ method.toList := by decide

theorem toLower_of_spelled (hmethod : method ∈ methods) (h : Text.toAsciiLower written = method) :
    Text.toLower written = method := by
  have hascii : ∀ c ∈ written.toList, c.toNat < 128 := by
    intro c hc
    have hlower : Text.asciiLower c ∈ method.toList := by
      rw [← h, Text.toAsciiLower, String.toList_map]
      exact List.mem_map_of_mem hc
    exact Text.lt_of_asciiLower_lt (ascii_of_mem_method hmethod hlower)
  rw [Text.toLower, if_pos (by simpa using hascii), h]

theorem toAsciiLower_method (h : method ∈ methods) : Text.toAsciiLower method = method := by
  refine String.toList_inj.1 ?_
  rw [Text.toAsciiLower, String.toList_map, map_asciiLower_method method h]

/-- At the path and the method the document has an operation of that id. -/
inductive Declares (document : InterfaceDocument) (path method id : String) : Prop where
  | intro {paths : Table Json} {item operation : Json}
      (known : method ∈ methods) (hpaths : document.raw.get? "paths" = some (.obj paths))
      (hitem : (path, item) ∈ paths) (hoperation : item.get? method = some operation)
      (hid : operation.get? "operationId" = some (.str id))

theorem Declares.known (h : Declares document path method id) : method ∈ methods := by
  obtain ⟨known⟩ := h
  exact known

/-- Of all operations of that id it stands at the least path, and there at the earliest method. -/
structure DeclaresFirst (document : InterfaceDocument) (path method id : String) : Prop where
  declares : Declares document path method id
  least : ∀ path' method', Declares document path' method' id →
    path < path' ∨ path = path' ∧ methods.idxOf method ≤ methods.idxOf method'

theorem declares_iff {item : Json} :
    declares id item method = true ↔ ∃ operation, item.get? method = some operation ∧
      operation.get? "operationId" = some (.str id) := by
  rw [declares, beq_iff_eq, Option.bind_eq_some_iff]
  constructor
  · rintro ⟨value, hvalue, htext⟩
    obtain ⟨operation, hoperation, hid⟩ := Option.bind_eq_some_iff.1 hvalue
    cases value <;> cases htext
    exact ⟨operation, hoperation, hid⟩
  · rintro ⟨operation, hoperation, hid⟩
    exact ⟨.str id, Option.bind_eq_some_iff.2 ⟨operation, hoperation, hid⟩, rfl⟩

/-- What stands at a place of the document, and what is told of it. -/
theorem describe?_eq_some_iff (hmethod : method ∈ methods) :
    describe? document path method = some found ↔
      ∃ item operation, pathItem? document.raw path = some item ∧
        item.get? method = some operation ∧
        found = {
          sourceName := document.name
          baseUrl := baseUrl? document.raw item operation
          method := method.map Text.asciiUpper
          path
          operationId := (operation.get? "operationId").bind Json.asStr?
          parameters := mergeParameters (declaredParameters document.raw item)
            (declaredParameters document.raw operation) } := by
  have hlower := toLower_of_spelled hmethod (toAsciiLower_method hmethod)
  have hknown : (!methods.contains method) = false := by simpa using hmethod
  unfold describe?
  simp only [hlower, hknown, Bool.false_eq_true, if_false, bind, Option.bind_eq_some_iff, pure,
    Option.some.injEq]
  constructor
  · rintro ⟨item, hitem, operation, hoperation, rfl⟩
    exact ⟨item, operation, hitem, hoperation, rfl⟩
  · rintro ⟨item, operation, hitem, hoperation, rfl⟩
    exact ⟨item, hitem, operation, hoperation, rfl⟩

theorem idxOf_le_of_find? {p : String → Bool} {names : List String} {a b : String}
    (hb : names.find? p = some b) (ha : a ∈ names) (hp : p a = true) :
    names.idxOf b ≤ names.idxOf a := by
  induction names with
  | nil => cases hb
  | cons x names ih =>
    rw [List.find?_cons] at hb
    split at hb
    · obtain rfl := Option.some.inj hb
      rw [List.idxOf_cons_self]
      exact Nat.zero_le _
    · rename_i hx
      have hne (y : String) (hy : p y = true) : x ≠ y := by
        rintro rfl
        rw [hx] at hy
        cases hy
      have hfirst := List.find?_some hb
      rw [List.idxOf_cons_ne _ (hne b hfirst), List.idxOf_cons_ne _ (hne a hp)]
      refine Nat.succ_le_succ (ih hb ?_)
      exact (List.mem_cons.1 ha).resolve_left (Ne.symm (hne a hp))

def methodOf? (id : String) (entry : String × Json) : Option (String × String) :=
  (methods.find? (OpenApi.declares id entry.2)).map fun method => (entry.1, method)

theorem findId?_eq_some_iff :
    findId? id document = some found ↔
      ∃ paths place, document.raw.get? "paths" = some (.obj paths) ∧
        paths.findSome? (methodOf? id) = some place ∧
        describe? document place.1 place.2 = some found := by
  change ((document.raw.get? "paths").bind Json.asObj?).bind (fun paths =>
    (paths.findSome? (methodOf? id)).bind fun place => describe? document place.1 place.2) = _ ↔ _
  rw [Option.bind_eq_some_iff]
  constructor
  · rintro ⟨paths, hpaths, h⟩
    obtain ⟨value, hvalue, hobject⟩ := Option.bind_eq_some_iff.1 hpaths
    obtain ⟨place, hplace, hfound⟩ := Option.bind_eq_some_iff.1 h
    cases value <;> cases hobject
    exact ⟨paths, place, hvalue, hplace, hfound⟩
  · rintro ⟨paths, place, hpaths, hplace, hfound⟩
    exact ⟨paths, Option.bind_eq_some_iff.2 ⟨_, hpaths, rfl⟩,
      Option.bind_eq_some_iff.2 ⟨place, hplace, hfound⟩⟩

theorem methodOf?_eq_none_iff {entry : String × Json} :
    methodOf? id entry = none ↔
      ∀ method ∈ methods, OpenApi.declares id entry.2 method = false := by
  simp [methodOf?]

theorem declaresFirst_of_findSome? {paths : Table Json} {place : String × String}
    (hpaths : document.raw.get? "paths" = some (.obj paths)) (hsorted : Table.Ascending paths)
    (h : paths.findSome? (methodOf? id) = some place) :
    DeclaresFirst document place.1 place.2 id := by
  obtain ⟨before, ⟨path, item⟩, after, rfl, hhere, hbefore⟩ := List.findSome?_eq_some_iff.1 h
  obtain ⟨method, hmethod, rfl⟩ := Option.map_eq_some_iff.1 hhere
  obtain ⟨operation, hoperation, hid⟩ := declares_iff.1 (List.find?_some hmethod)
  refine ⟨.intro (List.mem_of_find?_eq_some hmethod) hpaths
    (List.mem_append_right _ (List.mem_cons_self ..)) hoperation hid, ?_⟩
  rintro path' method' ⟨known, hpaths', hitem', hoperation', hid'⟩
  obtain rfl : _ = _ := Json.obj.inj (Option.some.inj (hpaths'.symm.trans hpaths))
  have hdeclares := declares_iff.2 ⟨_, hoperation', hid'⟩
  rcases List.mem_append.1 hitem' with hearlier | hlater
  -- An earlier entry that declares the id would have stopped the search.
  · have hnone := methodOf?_eq_none_iff.1 (hbefore _ hearlier) method' known
    rw [hdeclares] at hnone
    cases hnone
  · rcases List.mem_cons.1 hlater with hsame | hafter
    · obtain ⟨rfl, rfl⟩ := Prod.mk.inj hsame
      exact .inr ⟨rfl, idxOf_le_of_find? hmethod known hdeclares⟩
    · rw [Table.Ascending, Table.keys, List.map_append] at hsorted
      have htail := (List.pairwise_append.1 hsorted).2.1
      exact .inl (List.rel_of_pairwise_cons htail (List.mem_map_of_mem hafter))

theorem Declares.stands (hsound : document.raw.Sound) (h : Declares document path method id) :
    ∃ item operation, pathItem? document.raw path = some item ∧
      item.get? method = some operation ∧ operation.get? "operationId" = some (.str id) := by
  obtain ⟨-, hpaths, hitem, hoperation, hid⟩ := h
  rename_i paths item operation
  have hsorted : Table.Ascending paths := (hsound.member hpaths).ascending
  refine ⟨item, operation, ?_, hoperation, hid⟩
  rw [pathItem?, hpaths]
  exact hsorted.get?_of_mem hitem

/-- So the search never stops at an operation that cannot be described. -/
theorem findId?_of_declares (hsound : document.raw.Sound) (h : Declares document path method id) :
    ∃ found, findId? id document = some found := by
  obtain ⟨known, hpaths, hitem, hoperation, hid⟩ := h
  rename_i paths item operation
  have hsorted : Table.Ascending paths := (hsound.member hpaths).ascending
  have hstops : paths.findSome? (methodOf? id) ≠ none := by
    intro hnone
    have hhere := methodOf?_eq_none_iff.1 (List.findSome?_eq_none_iff.1 hnone _ hitem) method known
    rw [declares_iff.2 ⟨operation, hoperation, hid⟩] at hhere
    cases hhere
  obtain ⟨place, hplace⟩ := Option.ne_none_iff_exists'.1 hstops
  have first := declaresFirst_of_findSome? hpaths hsorted hplace
  obtain ⟨item', operation', hthere, hoperation', -⟩ := first.declares.stands hsound
  exact ⟨_, findId?_eq_some_iff.2 ⟨paths, place, hpaths, hplace,
    (describe?_eq_some_iff first.declares.known).2 ⟨item', operation', hthere, hoperation', rfl⟩⟩⟩

theorem findId?_first (hsound : document.raw.Sound) (h : findId? id document = some found) :
    ∃ path method, DeclaresFirst document path method id ∧
      describe? document path method = some found ∧ found.operationId = some id := by
  obtain ⟨paths, place, hpaths, hplace, hfound⟩ := findId?_eq_some_iff.1 h
  have hsorted : Table.Ascending paths := (hsound.member hpaths).ascending
  have first := declaresFirst_of_findSome? hpaths hsorted hplace
  refine ⟨place.1, place.2, first, hfound, ?_⟩
  obtain ⟨item, operation, hthere, hoperation, hid⟩ := first.declares.stands hsound
  obtain ⟨item', operation', hitem', hoperation', rfl⟩ :=
    (describe?_eq_some_iff first.declares.known).1 hfound
  obtain rfl : item = item' := Option.some.inj (hthere.symm.trans hitem')
  obtain rfl : operation = operation' := Option.some.inj (hoperation.symm.trans hoperation')
  exact Option.bind_eq_some_iff.2 ⟨.str id, hid, rfl⟩

theorem orNotFound_eq_ok_iff {result : Option Operation} :
    orNotFound id result = .ok found ↔ result = some found := by
  cases result <;> simp [orNotFound]

theorem findById_of_unqualified (hdocuments : documents ≠ []) (htrim : Text.trim id = id)
    (h : qualified? id = none) :
    findById documents id = orNotFound id (documents.findSome? (findId? id)) := by
  have hempty : documents.isEmpty = false := by simpa using hdocuments
  unfold findById
  simp only [hempty, Bool.false_eq_true, if_false, htrim, h]

theorem findById_eq (hdocuments : documents ≠ []) (htrim : Text.trim id = id)
    (hplain : id.toList.head? ≠ some '$') :
    findById documents id = orNotFound id (documents.findSome? (findId? id)) := by
  have hparse : Expression.parse id = .error .noDollar := by
    rw [Expression.parse, Expression.parseChars, Text.trim_eq_self_iff.1 htrim]
    split
    · rename_i hdollar
      rw [hdollar] at hplain
      exact absurd rfl hplain
    · rfl
  exact findById_of_unqualified hdocuments htrim (by rw [qualified?, hparse])

/--
An id by itself finds an operation exactly when there is one that declares it: the first one, by the
order of the documents, then by path and then by method.
-/
theorem findById_plain (hdocuments : documents ≠ []) (hsound : ∀ d ∈ documents, d.raw.Sound)
    (htrim : Text.trim id = id) (hplain : id.toList.head? ≠ some '$') :
    ((∃ found, findById documents id = .ok found) ↔
      ∃ d ∈ documents, ∃ path method, Declares d path method id) ∧
    ∀ found, findById documents id = .ok found → found.operationId = some id ∧
      ∃ before d after path method, documents = before ++ d :: after ∧
        (∀ other ∈ before, ∀ path method, ¬ Declares other path method id) ∧
        DeclaresFirst d path method id ∧ describe? d path method = some found := by
  rw [findById_eq hdocuments htrim hplain]
  simp only [orNotFound_eq_ok_iff]
  refine ⟨⟨?_, ?_⟩, ?_⟩
  · rintro ⟨found, hfound⟩
    obtain ⟨d, hd, hhere⟩ := List.exists_of_findSome?_eq_some hfound
    obtain ⟨path, method, first, -⟩ := findId?_first (hsound d hd) hhere
    exact ⟨d, hd, path, method, first.declares⟩
  · rintro ⟨d, hd, path, method, hdeclares⟩
    obtain ⟨found, hfound⟩ := findId?_of_declares (hsound d hd) hdeclares
    refine Option.ne_none_iff_exists'.1 fun hnone => ?_
    rw [List.findSome?_eq_none_iff.1 hnone d hd] at hfound
    cases hfound
  · intro found hfound
    obtain ⟨before, d, after, rfl, hhere, hbefore⟩ := List.findSome?_eq_some_iff.1 hfound
    have hd : d ∈ before ++ d :: after := List.mem_append_right _ (List.mem_cons_self ..)
    obtain ⟨path, method, first, hdescribed, hid⟩ := findId?_first (hsound d hd) hhere
    refine ⟨hid, before, d, after, path, method, rfl, fun other hother path method hdeclares => ?_,
      first, hdescribed⟩
    obtain ⟨earlier, hearlier⟩ :=
      findId?_of_declares (hsound other (List.mem_append_left _ hother)) hdeclares
    rw [hbefore other hother] at hearlier
    cases hearlier

def shop : InterfaceDocument where
  name := "shop"
  location := ""
  raw := .obj [("paths", .obj
    [("/a/b", .obj [("get", .obj [("operationId", .str "op")])]), ("/c", .null)])]

theorem shop_sound : shop.raw.Sound := by
  have operation : Json.Sound (.obj [("operationId", .str "op")]) := .single _ (.str "op")
  have paths : Json.Sound (.obj
      [("/a/b", .obj [("get", .obj [("operationId", .str "op")])]), ("/c", .null)]) :=
    .obj (by decide) (by simpa using ⟨operation.single "get", .null⟩)
  exact paths.single "paths"

theorem findById_plain_shop :
    ∃ found, findById [shop] "op" = .ok found ∧ found.operationId = some "op" := by
  have hdeclares : Declares shop "/a/b" "get" "op" :=
    .intro (by decide) rfl (List.mem_cons_self ..) rfl rfl
  obtain ⟨hfinds, hfirst⟩ := findById_plain (List.cons_ne_nil shop [])
    (by simpa using shop_sound) (by decide : Text.trim "op" = "op") (by decide)
  obtain ⟨found, hfound⟩ := hfinds.2 ⟨shop, List.mem_singleton_self _, "/a/b", "get", hdeclares⟩
  exact ⟨found, hfound, (hfirst found hfound).1⟩

def operationPathText (name path method : String) : String :=
  "\x7b$sourceDescriptions." ++ name ++ ".url\x7d#/paths/" ++ Pointer.escapeToken path ++ "/" ++ method

theorem toList_operationPathText (name path method : String) :
    (operationPathText name path method).toList =
      OperationPath.opening ++ (name.toList ++ OperationPath.closing) ++ OperationPath.fragmentLead ++
        (Pointer.escapeChars path.toList ++ '/' :: method.toList) := by
  have hmiddle : ".url\x7d#/paths/".toList = OperationPath.closing ++ OperationPath.fragmentLead := by
    decide
  delta operationPathText Pointer.escapeToken OperationPath.opening
  simp only [String.toList_append, String.toList_ofList, hmiddle, List.append_assoc]
  rfl

theorem designates_name {name : String} (hname : Validation.isIdText name = true) :
    OperationPath.Designates (OperationPath.opening ++ (name.toList ++ OperationPath.closing))
      (some name) := by
  obtain ⟨nonempty, undotted, -⟩ := nameChars_of_isIdText hname
  have first : Text.FirstAt OperationPath.opening []
      ([] ++ OperationPath.opening ++ (name.toList ++ OperationPath.closing ++ [])) :=
    ⟨List.prefix_append .., fun _ _ => Nat.zero_le _⟩
  have hsource := OperationPath.Designates.source first nonempty undotted
  rw [String.ofList_toList, List.append_nil] at hsource
  exact hsource

theorem parse_operationPathText {name : String} (hname : Validation.isIdText name = true)
    (hpath : path ≠ "") (hmethod : method ∈ methods) (hwritten : Text.toAsciiLower written = method) :
    OperationPath.parse (operationPathText name path written) = .ok ⟨some name, path, method⟩ := by
  have hchars : written.toList.map Text.asciiLower = method.toList := by
    rw [← hwritten, Text.toAsciiLower, String.toList_map]
  have hunmarked : '#' ∉ OperationPath.opening ++ (name.toList ++ OperationPath.closing) := by
    have hopening : '#' ∉ OperationPath.opening := by decide
    have hclosing : '#' ∉ OperationPath.closing := by decide
    have hplain : '#' ∉ name.toList := fun hmem =>
      (isNameChar_plain ((nameChars_of_isIdText hname).2.2 _ hmem)).2 rfl
    simp only [List.mem_append, hopening, hplain, hclosing, or_self, not_false_iff]
  have hpathToken : OperationPath.Token (Pointer.escapeChars path.toList) :=
    ⟨Pointer.escapeChars_ne_nil (by simpa using hpath), Pointer.slash_not_mem_escapeChars _⟩
  have hmethodToken : OperationPath.Token written.toList := by
    obtain ⟨nonempty, undivided⟩ := token_method method hmethod
    rw [← hchars] at nonempty undivided
    exact ⟨fun hnil => nonempty (by rw [hnil]; rfl), fun hmem => undivided (List.mem_map_of_mem hmem)⟩
  have hform := OperationPath.Written.intro hunmarked (designates_name hname) hpathToken hmethodToken
  rw [← toList_operationPathText, Pointer.unescapeChars_escapeChars, String.ofList_toList,
    String.ofList_toList, toLower_of_spelled hmethod hwritten] at hform
  exact OperationPath.parse_written hform

theorem toAsciiLower_upper (h : method ∈ methods) :
    Text.toAsciiLower (method.map Text.asciiUpper) = method := by
  have hchars : ∀ method ∈ methods,
      (method.toList.map Text.asciiUpper).map Text.asciiLower = method.toList := by decide
  refine String.toList_inj.1 ?_
  rw [Text.toAsciiLower, String.toList_map, String.toList_map, hchars method h]

theorem findByPath_operationPathText (hnames : (documents.map (·.name)).Nodup)
    (hd : document ∈ documents) (hname : Validation.isIdText document.name = true)
    (hpath : path ≠ "") (hmethod : method ∈ methods) (hwritten : Text.toAsciiLower written = method)
    (hfound : describe? document path method = some found) :
    findByPath documents (operationPathText document.name path written) = .ok found := by
  have hsource : inSource documents document.name = .ok document := by
    rw [inSource, find?_of_nodup hnames hd]
  unfold findByPath
  rw [parse_operationPathText hname hpath hmethod hwritten]
  dsimp only [bind, Except.bind]
  rw [hsource]
  dsimp only
  rw [hfound]

theorem exists_place_of_findById {reference : String} (h : findById documents reference = .ok found) :
    ∃ d ∈ documents, ∃ path, ∃ method ∈ methods, describe? d path method = some found := by
  have hplace {id : String} {d : InterfaceDocument} (hfound : findId? id d = some found) :
      ∃ path, ∃ method ∈ methods, describe? d path method = some found := by
    obtain ⟨paths, place, -, hplace, hdescribed⟩ := findId?_eq_some_iff.1 hfound
    obtain ⟨entry, -, hentry⟩ := List.exists_of_findSome?_eq_some hplace
    obtain ⟨method, hmethod, rfl⟩ := Option.map_eq_some_iff.1 hentry
    exact ⟨_, method, List.mem_of_find?_eq_some hmethod, hdescribed⟩
  unfold findById at h
  split at h
  · cases h
  · dsimp only at h
    split at h
    · obtain ⟨d, hd, h⟩ := exists_of_bind_ok h
      rw [inSource] at hd
      split at hd
      · rename_i hsource
        obtain rfl := Except.ok.inj hd
        exact ⟨_, List.mem_of_find?_eq_some hsource, hplace (orNotFound_eq_ok_iff.1 h)⟩
      · cases hd
    · obtain ⟨d, hd, hfound⟩ := List.exists_of_findSome?_eq_some (orNotFound_eq_ok_iff.1 h)
      exact ⟨d, hd, hplace hfound⟩

/--
Under names that differ every operation is reached by its path, in whatever case the method is
written, and an operation that was found by an id is found again by the path that it tells.
-/
theorem findByPath_declared (hnames : (documents.map (·.name)).Nodup)
    (hids : ∀ d ∈ documents, Validation.isIdText d.name = true) :
    (∀ d ∈ documents, ∀ path item method operation written, path ≠ "" →
      pathItem? d.raw path = some item → method ∈ methods → item.get? method = some operation →
      Text.toAsciiLower written = method →
      OperationPath.parse (operationPathText d.name path written) = .ok ⟨some d.name, path, method⟩ ∧
      ∃ found, describe? d path method = some found ∧
        findByPath documents (operationPathText d.name path written) = .ok found) ∧
    ∀ reference found, findById documents reference = .ok found → found.path ≠ "" →
      findByPath documents (operationPathText found.sourceName found.path found.method) =
        .ok found := by
  constructor
  · intro d hd path item method operation written hpath hitem hmethod hoperation hwritten
    have hname := hids d hd
    have hfound := (describe?_eq_some_iff hmethod).2 ⟨item, operation, hitem, hoperation, rfl⟩
    exact ⟨parse_operationPathText hname hpath hmethod hwritten, _, hfound,
      findByPath_operationPathText hnames hd hname hpath hmethod hwritten hfound⟩
  · intro reference found h hpath
    obtain ⟨d, hd, path, method, hmethod, hfound⟩ := exists_place_of_findById h
    obtain ⟨item, operation, -, -, hparts⟩ := (describe?_eq_some_iff hmethod).1 hfound
    have hsource : found.sourceName = d.name := by rw [hparts]
    have hplace : found.path = path := by rw [hparts]
    have hspelled : Text.toAsciiLower found.method = method := by
      rw [hparts, toAsciiLower_upper hmethod]
    rw [hplace] at hpath ⊢
    rw [hsource]
    exact findByPath_operationPathText hnames hd (hids d hd) hpath hmethod hspelled hfound

theorem findByPath_declared_shop :
    (∃ found, describe? shop "/a/b" "get" = some found ∧
      findByPath [shop] (operationPathText "shop" "/a/b" "Get") = .ok found) ∧
    ∃ found, findById [shop] "op" = .ok found ∧ found.path ≠ "" ∧
      findByPath [shop] (operationPathText found.sourceName found.path found.method) = .ok found := by
  have hnames : ([shop].map (·.name)).Nodup := List.nodup_singleton "shop"
  have hids : ∀ d ∈ [shop], Validation.isIdText d.name = true := by
    intro d hd
    obtain rfl := List.mem_singleton.1 hd
    decide
  have hitem : pathItem? shop.raw "/a/b" =
      some (.obj [("get", .obj [("operationId", .str "op")])]) := rfl
  have hwritten : Text.toAsciiLower "Get" = "get" := by decide +kernel
  have hfound : ∃ found, findById [shop] "op" = .ok found ∧ found.path ≠ "" :=
    ⟨⟨"shop", none, "GET", "/a/b", some "op", []⟩, by decide +kernel, by decide⟩
  obtain ⟨hreached, hagain⟩ := findByPath_declared hnames hids
  obtain ⟨found, hfound, hpath⟩ := hfound
  have hget := hreached shop (List.mem_singleton_self _) "/a/b" _ "get" _ "Get" (by decide) hitem
    (by decide) rfl hwritten
  exact ⟨hget.2, found, hfound, hpath, hagain "op" found hfound hpath⟩

end Arazzo.OpenApi
