import Arazzo.Proofs.Leads
import Arazzo.Proofs.Request.Template
import Arazzo.Proofs.Url.Path
import Mathlib.Data.List.DropRight
import Mathlib.Data.List.Flatten

/-! The path of a request: the names of the server, then one name for each segment of the template, as
long as no value is read as anything but a part of its segment. -/

namespace Arazzo.Request

open Url

variable {config : Config} {operation : Operation} {location : String} {values : Table String}
  {query : List (String × String)} {url base : Url} {pieces : List Piece} {names : List String}
  {special : Bool} {scheme text : String} {cs : List Char}

def Piece.isSlash (special : Bool) : Piece → Bool
  | .char c => Url.isSlash special c
  | .place _ => false

def trimmed (pieces : List Piece) : List Piece := pieces.dropWhile (· == .char '/')

def segmentsOf (special : Bool) (pieces : List Piece) : List (List Piece) :=
  (trimmed pieces).splitOnP (Piece.isSlash special)

def Piece.written (keep : Char → Bool) (values : Table String) : Piece → List Char
  | .char c => Percent.encodeWith keep (withoutBreaks [c])
  | .place name => Percent.component ((Table.get? name values).getD "").toList

def segmentName (values : Table String) (segment : List Piece) : String :=
  String.ofList (segment.flatMap (Piece.written Percent.keepsInPath values))

/-- The names of the server, but for empty ones at the end, and those of the template. -/
def namesOf (special : Bool) (names : List String) (values : Table String) (pieces : List Piece) :
    List String :=
  names.rdropWhile String.isEmpty ++ (segmentsOf special pieces).map (segmentName values)

def wholeOf (text : String) (values : Table String) (pieces : List Piece) : String :=
  String.ofList (text.toList.rdropWhile (· == '/') ++
    '/' :: (trimmed pieces).flatMap (Piece.written Percent.isPrintable values))

/-- No empty value lets a slash come first that is not the template's own beginning. -/
def KeepsFirst (values : Table String) (pieces : List Piece) : Prop :=
  ((trimmed pieces).flatMap (Piece.filled values)).head? ≠ some '/'

instance (values : Table String) (pieces : List Piece) : Decidable (KeepsFirst values pieces) :=
  inferInstanceAs (Decidable (_ ≠ _))

/-- What keeps all values in their segments. -/
structure Stays (scheme : String) (names : List String) (values : Table String)
    (pieces : List Piece) : Prop where
  first : KeepsFirst values pieces
  notDots : ∀ segment ∈ segmentsOf (isSpecial scheme) pieces,
    isDots (segmentName values segment).toList = false
  isLocal : scheme = "file" → BeginsLocal (namesOf (isSpecial scheme) names values pieces)

theorem parse_names {naming : Naming} {s : String} {u : Url} (h : Url.parse naming s = .ok u) :
    HasNames u := by
  have hnone : ∀ b ∈ (none : Option Url), HasNames b := by simp
  exact readWith_names hnone h

theorem anchor?_names {u : Url} (h : anchor? config location = some u) : HasNames u := by
  have hlocal {u : Url} (h : anchor?.local? config = some u) : HasNames u :=
    parse_names (eq_ok_of_toOption h)
  unfold anchor? at h
  split at h
  · rename_i found hfound
    split at h
    · obtain rfl := Option.some.inj h
      exact parse_names (eq_ok_of_toOption hfound)
    · exact hlocal h
  · exact hlocal h

theorem server_names {written : String} (h : server config location written = .ok base) :
    HasNames base := by
  unfold server at h
  split at h
  · rename_i u hu
    obtain rfl := Except.ok.inj h
    exact parse_names hu
  · cases h
  · split at h
    · rename_i u hu
      obtain rfl := Except.ok.inj h
      obtain ⟨anchor, hanchor, hjoin⟩ := Option.bind_eq_some_iff.1 hu
      refine readWith_names ?_ (eq_ok_of_toOption hjoin)
      rintro _ ⟨⟩
      exact anchor?_names hanchor
    · cases h

theorem withLocalPort_path (config : Config) (u : Url) : (withLocalPort config u).path = u.path := by
  unfold withLocalPort
  split <;> rfl

theorem withLocalPort_scheme (config : Config) (u : Url) :
    (withLocalPort config u).scheme = u.scheme := by
  unfold withLocalPort
  split <;> rfl

theorem addToQuery_path (pairs : List (String × String)) (u : Url) :
    (u.addToQuery pairs).path = u.path := by
  unfold addToQuery
  split
  · rfl
  · simp only []
    split <;> rfl

theorem buildUrl_ok (h : buildUrl config operation location values query = .ok url) :
    ∃ base, server config location (operation.baseUrl.getD "/") = .ok base ∧
      openPlaceholder? (fillPath values operation.path.toList) = none ∧
      url.path = ((withLocalPort config base).setPath (String.ofList (joinPaths base.path.text.toList
        (fillPath values operation.path.toList)))).path := by
  unfold buildUrl at h
  obtain ⟨base, hbase, h⟩ := exists_of_bind_ok h
  simp only [] at h
  split at h
  · cases h
  · rename_i hopen
    obtain rfl := Except.ok.inj h
    refine ⟨base, hbase, hopen, ?_⟩
    rw [addToQuery_path, withLocalPort_path]

theorem toList_text_segments (names : List String) :
    (UrlPath.segments names).text.toList = names.flatMap fun name => '/' :: name.toList := by
  rw [UrlPath.text, String.toList_join, List.flatMap_map]
  simp only [String.toList_append]
  rfl

theorem rdropWhile_slashes (h : ∀ name ∈ names, '/' ∉ name.toList) :
    (names.flatMap fun name => '/' :: name.toList).rdropWhile (· == '/') =
      (names.rdropWhile String.isEmpty).flatMap fun name => '/' :: name.toList := by
  induction names using List.reverseRecOn with
  | nil => rfl
  | append_singleton names name ih =>
    rw [List.flatMap_append, List.flatMap_singleton]
    by_cases hempty : name = ""
    · subst hempty
      rw [List.rdropWhile_concat_pos _ _ _ (by rfl)]
      exact (List.rdropWhile_concat_pos _ _ _ (by rfl)).trans
        (ih fun other hother => h other (List.mem_append_left _ hother))
    · rw [List.rdropWhile_concat_neg _ _ _ (by simpa using hempty), List.flatMap_append,
        List.flatMap_singleton, List.rdropWhile_eq_self_iff]
      intro hne hlast
      have hname : name.toList ≠ [] := by simpa using hempty
      rw [List.getLast_append_of_ne_nil _ (List.cons_ne_nil _ _), List.getLast_cons hname,
        beq_iff_eq] at hlast
      exact h name (by simp) (hlast ▸ List.getLast_mem hname)

theorem flatMap_slash (names : List String) (cs : List Char) :
    (names.flatMap fun name => '/' :: name.toList) ++ '/' :: cs =
      '/' :: ((names.flatMap fun name => name.toList ++ ['/']) ++ cs) := by
  induction names with
  | nil => rfl
  | cons name names ih =>
    rw [List.flatMap_cons, List.append_assoc, ih]
    simp

theorem dropWhile_filled (values : Table String) (pieces : List Piece) :
    (pieces.flatMap (Piece.filled values)).dropWhile (· == '/') =
      ((trimmed pieces).flatMap (Piece.filled values)).dropWhile (· == '/') := by
  induction pieces with
  | nil => rfl
  | cons p pieces ih =>
    by_cases hp : p = .char '/'
    · subst hp
      exact ih
    · rw [trimmed, List.dropWhile_cons_of_neg (by simpa using hp)]

def Piece.kept (values : Table String) (p : Piece) : List Char := withoutBreaks (p.filled values)

theorem kept_place (name : String) (values : Table String) :
    (Piece.place name).kept values =
      Percent.component ((Table.get? name values).getD "").toList :=
  withoutBreaks_of_isPrintable fun _ hc =>
    Percent.isPrintable_of_standsInName (Percent.standsInName_of_mem_component hc)

theorem encodeWith_kept {keep : Char → Bool}
    (hkeep : ∀ c, Percent.standsInName c = true → keep c = true) (p : Piece) :
    Percent.encodeWith keep (p.kept values) = p.written keep values := by
  cases p with
  | char c => rfl
  | place name =>
    rw [kept_place]
    exact Percent.encodeWith_of_keep fun c hc => hkeep c (Percent.standsInName_of_mem_component hc)

theorem encodeWith_flatMap_kept {keep : Char → Bool}
    (hkeep : ∀ c, Percent.standsInName c = true → keep c = true) (segment : List Piece) :
    Percent.encodeWith keep (segment.flatMap (Piece.kept values)) =
      segment.flatMap (Piece.written keep values) := by
  induction segment with
  | nil => rfl
  | cons p segment ih =>
    rw [List.flatMap_cons, Percent.encodeWith_append, encodeWith_kept hkeep, ih, List.flatMap_cons]

theorem nameOf_flatMap_kept (values : Table String) (segment : List Piece) :
    nameOf (segment.flatMap (Piece.kept values)) = segmentName values segment :=
  congrArg String.ofList
    (encodeWith_flatMap_kept (fun _ => Percent.keepsInPath_of_standsInName) segment)

theorem kept_of_isSlash (values : Table String) {p : Piece} (h : p.isSlash special = true) :
    ∃ c, Url.isSlash special c = true ∧ p.kept values = [c] := by
  cases p with
  | place name => cases h
  | char c =>
    have hslash : c = '/' ∨ special = true ∧ c = '\\' := by
      simpa [Piece.isSlash, Url.isSlash] using h
    refine ⟨c, h, withoutBreaks_of_isPrintable ?_⟩
    rcases hslash with rfl | ⟨-, rfl⟩
    · exact List.forall_mem_singleton.2 (by decide)
    · exact List.forall_mem_singleton.2 (by decide)

theorem isSlash_of_mem_kept {p : Piece} (h : p.isSlash special = false) :
    ∀ c ∈ p.kept values, Url.isSlash special c = false := by
  intro c hc
  cases p with
  | place name =>
    rw [kept_place] at hc
    exact isSlash_of_standsInName (Percent.standsInName_of_mem_component hc)
  | char d =>
    obtain rfl := List.mem_singleton.1 (List.mem_filter.1 hc).1
    exact h

theorem partsOf_flatMap_kept (special : Bool) (values : Table String) (pieces : List Piece) :
    partsOf special (pieces.flatMap (Piece.kept values)) =
      (pieces.splitOnP (Piece.isSlash special)).map (List.flatMap (Piece.kept values)) := by
  induction pieces with
  | nil => rfl
  | cons p pieces ih =>
    obtain ⟨segment, segments, hsplit⟩ := List.exists_cons_of_ne_nil
      (List.splitOnP_ne_nil (Piece.isSlash special) pieces)
    rw [hsplit] at ih
    rw [List.flatMap_cons, List.splitOnP_cons_eq_if_modifyHead, hsplit]
    split
    · rename_i hslash
      obtain ⟨c, hc, hkept⟩ := kept_of_isSlash values hslash
      obtain ⟨first, others, hfirst, hcons⟩ :=
        partsOf_cons special c (pieces.flatMap (Piece.kept values))
      rw [hkept, List.singleton_append, hcons, if_pos hc, ← hfirst, ih]
      rfl
    · rename_i hslash
      exact partsOf_append (isSlash_of_mem_kept (Bool.eq_false_iff.2 hslash)) ih

theorem withoutBreaks_flatMap_filled (values : Table String) (pieces : List Piece) :
    withoutBreaks (pieces.flatMap (Piece.filled values)) = pieces.flatMap (Piece.kept values) := by
  induction pieces with
  | nil => rfl
  | cons p pieces ih =>
    rw [List.flatMap_cons, withoutBreaks_append, ih]
    rfl

/-! Both together -/

/-- The first slash that a value lets come forward, if any, is lost. -/
theorem dropWhile_eq_self_of_keepsFirst (h : KeepsFirst values pieces) :
    ((trimmed pieces).flatMap (Piece.filled values)).dropWhile (· == '/') =
      (trimmed pieces).flatMap (Piece.filled values) := by
  rw [KeepsFirst] at h
  cases hfilled : (trimmed pieces).flatMap (Piece.filled values) with
  | nil => rfl
  | cons c cs =>
    rw [hfilled, List.head?_cons] at h
    exact List.dropWhile_cons_of_neg (by simpa using h)

theorem sublist_of_not_keepsFirst (h : ¬ KeepsFirst values pieces) :
    ∃ rest, (trimmed pieces).flatMap (Piece.kept values) = '/' :: rest ∧
      (withoutBreaks (((trimmed pieces).flatMap (Piece.filled values)).dropWhile (· == '/'))).Sublist
        rest := by
  obtain ⟨cs, hcs⟩ := List.head?_eq_some_iff.1 (not_not.1 h)
  refine ⟨withoutBreaks cs, ?_, ?_⟩
  · rw [← withoutBreaks_flatMap_filled, hcs]
    rfl
  · rw [hcs, List.dropWhile_cons_of_pos (by rfl)]
    exact (List.dropWhile_suffix _).sublist.filter _

theorem areNames_rdropWhile (h : AreNames special names) :
    AreNames special (names.rdropWhile String.isEmpty) :=
  fun name hname => h name ((List.rdropWhile_prefix _ _).subset hname)

def joinedText (names : List String) (rest : List Char) : List Char :=
  ((names.rdropWhile String.isEmpty).flatMap fun name => name.toList ++ ['/']) ++ rest

theorem partsOf_joinedText (h : AreNames special names) (values : Table String)
    (pieces : List Piece) :
    partsOf special (joinedText names ((trimmed pieces).flatMap (Piece.kept values))) =
      (names.rdropWhile String.isEmpty).map String.toList ++
        (segmentsOf special pieces).map (List.flatMap (Piece.kept values)) := by
  rw [joinedText, partsOf_names (areNames_rdropWhile h), partsOf_flatMap_kept]
  rfl

theorem namesOf_eq_map (h : AreNames special names) (values : Table String) (pieces : List Piece) :
    namesOf special names values pieces =
      (partsOf special
        (joinedText names ((trimmed pieces).flatMap (Piece.kept values)))).map nameOf := by
  have hserver : ((names.rdropWhile String.isEmpty).map String.toList).map nameOf =
      names.rdropWhile String.isEmpty := by
    rw [List.map_map]
    exact (List.map_congr_left fun name hname =>
      nameOf_toList (areNames_rdropWhile h name hname)).trans (List.map_id _)
  rw [partsOf_joinedText h, List.map_append, hserver, List.map_map, namesOf]
  exact congrArg _ (List.map_congr_left fun segment _ => (nameOf_flatMap_kept values segment).symm)

theorem notDots_iff (h : AreNames special names) (values : Table String) (pieces : List Piece) :
    (∀ part ∈ partsOf special (joinedText names ((trimmed pieces).flatMap (Piece.kept values))),
        isDots part = false) ↔
      ∀ segment ∈ segmentsOf special pieces, isDots (segmentName values segment).toList = false := by
  have hsegment (segment : List Piece) : isDots (segment.flatMap (Piece.kept values)) = false ↔
      isDots (segmentName values segment).toList = false := by
    rw [← nameOf_flatMap_kept, nameOf, String.toList_ofList, ← Bool.not_eq_true, ← Bool.not_eq_true,
      isDots_encodeWith]
  rw [partsOf_joinedText h]
  simp only [List.mem_append, List.mem_map]
  constructor
  · exact fun hall segment hin => (hsegment segment).1 (hall _ (.inr ⟨segment, hin, rfl⟩))
  · rintro hall part (⟨name, hname, rfl⟩ | ⟨segment, hin, rfl⟩)
    · exact (areNames_rdropWhile h name hname).notDots
    · exact (hsegment segment).2 (hall segment hin)

theorem length_pathFrom_lt {left rest : List Char} (scheme : String) (names : List String)
    (h : left.Sublist rest) :
    (pathFrom scheme [] (joinedText names left)).length <
      (partsOf (isSpecial scheme) (joinedText names ('/' :: rest))).length := by
  have hlength := (pathFrom_names scheme (joinedText names left) (areNames_nil _)).2
  have hslashes : left.countP (Url.isSlash (isSpecial scheme)) ≤
      rest.countP (Url.isSlash (isSpecial scheme)) := h.countP_le
  have hslash : Url.isSlash (isSpecial scheme) '/' = true := rfl
  simp only [length_partsOf, joinedText, List.countP_append, List.length_nil,
    List.countP_cons_of_pos hslash] at hlength ⊢
  omega

theorem pathFrom_eq_namesOf_iff (hnames : AreNames (isSpecial scheme) names) :
    pathFrom scheme [] (joinedText names
        (withoutBreaks ((pieces.flatMap (Piece.filled values)).dropWhile (· == '/')))) =
      namesOf (isSpecial scheme) names values pieces ↔ Stays scheme names values pieces := by
  rw [dropWhile_filled]
  by_cases hfirst : KeepsFirst values pieces
  · rw [dropWhile_eq_self_of_keepsFirst hfirst, withoutBreaks_flatMap_filled,
      namesOf_eq_map hnames, pathFrom_eq_iff, ← namesOf_eq_map hnames, notDots_iff hnames]
    exact ⟨fun h => ⟨hfirst, h.1, h.2⟩, fun h => ⟨h.notDots, h.isLocal⟩⟩
  · obtain ⟨rest, hrest, hsub⟩ := sublist_of_not_keepsFirst hfirst
    refine iff_of_false (fun heq => ?_) fun h => hfirst h.first
    have hlt := length_pathFrom_lt scheme names hsub
    rw [heq, namesOf_eq_map hnames, hrest, List.length_map] at hlt
    exact Nat.lt_irrefl _ hlt

/-! Both kinds of servers -/

theorem joinPaths_eq (server path : List Char) :
    joinPaths server path = server.rdropWhile (· == '/') ++ '/' :: path.dropWhile (· == '/') := rfl

theorem withoutBreaks_joinPaths (hnames : AreNames special names) (cs : List Char) :
    withoutBreaks (joinPaths (UrlPath.segments names).text.toList cs) =
      '/' :: joinedText names (withoutBreaks (cs.dropWhile (· == '/'))) := by
  have hslash : ∀ name ∈ names, '/' ∉ name.toList := fun name hname hin =>
    absurd ((hnames name hname).slashless '/' hin) Bool.noConfusion
  have hkept : withoutBreaks
      ((names.rdropWhile String.isEmpty).flatMap fun name => name.toList ++ ['/']) =
        (names.rdropWhile String.isEmpty).flatMap fun name => name.toList ++ ['/'] := by
    refine withoutBreaks_of_isPrintable fun c hc => ?_
    obtain ⟨name, hname, hc⟩ := List.mem_flatMap.1 hc
    rcases List.mem_append.1 hc with hc | hc
    · exact Percent.isPrintable_of_keepsInPath ((areNames_rdropWhile hnames name hname).kept c hc)
    · obtain rfl := List.mem_singleton.1 hc
      decide
  rw [joinPaths_eq, toList_text_segments, rdropWhile_slashes hslash, flatMap_slash]
  change '/' :: withoutBreaks _ = _
  rw [withoutBreaks_append, hkept]
  rfl

theorem setPath_segments_iff (hbase : HasNames base) (hpath : base.path = .segments names) :
    (base.setPath (String.ofList (joinPaths base.path.text.toList
        (pieces.flatMap (Piece.filled values))))).path =
        .segments (namesOf (isSpecial base.scheme) names values pieces) ↔
      Stays base.scheme names values pieces := by
  have hnames : AreNames (isSpecial base.scheme) names := by
    rw [HasNames, hpath] at hbase
    exact hbase
  rw [setPath_segments hpath, hpath, String.toList_ofList, withoutBreaks_joinPaths hnames,
    ← pathFrom_eq_namesOf_iff hnames, UrlPath.segments.injEq]
  rfl

theorem encodeWith_eq_iff_keepsFirst :
    Percent.encodeWith Percent.isPrintable (withoutBreaks
        ((pieces.flatMap (Piece.filled values)).dropWhile (· == '/'))) =
      (trimmed pieces).flatMap (Piece.written Percent.isPrintable values) ↔
      KeepsFirst values pieces := by
  rw [dropWhile_filled, ← encodeWith_flatMap_kept fun _ => Percent.isPrintable_of_standsInName]
  by_cases hfirst : KeepsFirst values pieces
  · rw [dropWhile_eq_self_of_keepsFirst hfirst, withoutBreaks_flatMap_filled]
    exact iff_of_true rfl hfirst
  · obtain ⟨rest, hrest, hsub⟩ := sublist_of_not_keepsFirst hfirst
    refine iff_of_false (fun heq => ?_) hfirst
    have hlength : (Percent.encodeWith Percent.isPrintable _).length ≤
        (Percent.encodeWith Percent.isPrintable rest).length := (hsub.flatMap _).length_le
    rw [heq, hrest, Percent.encodeWith_cons_of_keep (by decide)] at hlength
    exact Nat.not_succ_le_self _ hlength

theorem head?_rdropWhile {c : Char} (hc : c ≠ '/') (cs : List Char) :
    ∃ more, (c :: cs).rdropWhile (· == '/') = c :: more := by
  have hne : (c :: cs).rdropWhile (· == '/') ≠ [] := fun hnil =>
    hc (beq_iff_eq.1 (List.rdropWhile_eq_nil_iff.1 hnil c (List.mem_cons_self ..)))
  obtain ⟨d, more, hmore⟩ := List.exists_cons_of_ne_nil hne
  obtain ⟨rest, hrest⟩ := List.rdropWhile_prefix (· == '/') (c :: cs)
  rw [hmore] at hrest ⊢
  obtain ⟨rfl, -⟩ := List.cons.inj hrest
  exact ⟨more, rfl⟩

theorem setPath_whole_iff (hbase : HasNames base) (hpath : base.path = .whole text) :
    (base.setPath (String.ofList (joinPaths base.path.text.toList
        (pieces.flatMap (Piece.filled values))))).path = .whole (wholeOf text values pieces) ↔
      text ≠ "" ∧ KeepsFirst values pieces := by
  rw [HasNames, hpath] at hbase
  obtain ⟨hprintable, hhead⟩ := hbase
  rw [hpath, UrlPath.text, joinPaths_eq]
  by_cases hempty : text = ""
  · -- The slash between the two would then come first, and is encoded.
    subst hempty
    obtain ⟨rest, hrest⟩ := setPath_whole_slash hpath
      ((pieces.flatMap (Piece.filled values)).dropWhile (· == '/'))
    refine iff_of_false (fun heq => ?_) fun h => h.1 rfl
    have hsame : "%2F" ++ rest = wholeOf "" values pieces :=
      UrlPath.whole.inj (hrest.symm.trans heq)
    have hchars := congrArg String.toList hsame
    rw [wholeOf, String.toList_ofList, String.toList_append] at hchars
    exact absurd (List.cons.inj hchars).1 (by decide)
  · obtain ⟨c, cs, hcs⟩ := List.exists_cons_of_ne_nil (mt String.toList_eq_nil_iff.1 hempty)
    have hc : c ≠ '/' := by
      rintro rfl
      exact hhead (by rw [hcs]; rfl)
    obtain ⟨more, hmore⟩ := head?_rdropWhile hc cs
    have hstart : ∀ d ∈ c :: more, Percent.isPrintable d = true := by
      intro d hd
      refine hprintable d ?_
      rw [hcs]
      exact (List.rdropWhile_prefix _ _).subset (hmore ▸ hd)
    rw [hcs, hmore, setPath_whole hpath (by simpa using hc), withoutBreaks_append,
      withoutBreaks_of_isPrintable hstart, Percent.encodeWith_append,
      Percent.encodeWith_of_keep hstart, wholeOf, hcs, hmore, UrlPath.whole.injEq,
      String.ofList_inj, List.append_cancel_left_eq, ← encodeWith_eq_iff_keepsFirst]
    change '/' :: Percent.encodeWith Percent.isPrintable (withoutBreaks _) = '/' :: _ ↔ _
    rw [List.cons.injEq, and_iff_right rfl, and_iff_right hempty]

/--
The path of a request has the names of the server and one name for each segment of the template, with
every value written in its place, if and only if no value, together with the text around it, makes dots
of its segment, no slash comes forward through an empty value, and, where the server is a local file, no
name in front is empty or a drive with a bar. A server whose path is no sequence of names keeps its text
in front, unless that is empty.
-/
theorem buildUrl_path_iff (hplain : Plain pieces)
    (hnames : ∀ entry ∈ values, Braceless entry.1.toList)
    (htext : operation.path.toList = textOf pieces)
    (h : buildUrl config operation location values query = .ok url) :
    ∃ base, server config location (operation.baseUrl.getD "/") = .ok base ∧
      (∀ name, .place name ∈ pieces → Table.contains name values = true) ∧
      (∀ names, base.path = .segments names →
        (url.path = .segments (namesOf (isSpecial base.scheme) names values pieces) ↔
          Stays base.scheme names values pieces)) ∧
      ∀ text, base.path = .whole text →
        (url.path = .whole (wholeOf text values pieces) ↔ text ≠ "" ∧ KeepsFirst values pieces) := by
  obtain ⟨base, hbase, hopen, hurl⟩ := buildUrl_ok h
  rw [htext, openPlaceholder?_fillPath hplain hnames, List.findSome?_eq_none_iff] at hopen
  have hgiven : ∀ name, .place name ∈ pieces → Table.contains name values = true := by
    intro name hname
    simpa [Piece.name?] using hopen _ hname
  rw [htext, fillPath_eq_filled hplain hnames hgiven, ← withLocalPort_path config base] at hurl
  have hread : HasNames (withLocalPort config base) := by
    have hread := server_names hbase
    rwa [HasNames, ← withLocalPort_path config base, ← withLocalPort_scheme config base] at hread
  refine ⟨base, hbase, hgiven, fun names hpath => ?_, fun text hpath => ?_⟩
  · rw [hurl, ← withLocalPort_scheme config base]
    exact setPath_segments_iff hread ((withLocalPort_path config base).trans hpath)
  · rw [hurl]
    exact setPath_whole_iff hread ((withLocalPort_path config base).trans hpath)

def reading (server path : String) : Operation := ⟨"api", some server, "GET", path, none, []⟩

def serverParts (operation : Operation) : Option (String × UrlPath) :=
  (server {} "" (operation.baseUrl.getD "/")).toOption.map fun base => (base.scheme, base.path)

theorem exists_of_serverParts {parts : String × UrlPath} (h : serverParts operation = some parts) :
    ∃ base, server {} "" (operation.baseUrl.getD "/") = .ok base ∧
      base.scheme = parts.1 ∧ base.path = parts.2 := by
  obtain ⟨base, hbase, rfl⟩ := Option.map_eq_some_iff.1 h
  exact ⟨base, eq_ok_of_toOption hbase, rfl, rfl⟩

def pet : Operation := reading "https://api.example/v1/" "/pets/\x7bid\x7d"

def petPieces : List Piece := "/pets/".toList.map .char ++ [.place "id"]

def petValues : Table String := [("id", "a b/c")]

theorem buildUrl_path_iff_pet :
    ∃ url, buildUrl {} pet "" petValues [] = .ok url ∧
      url.path = .segments ["v1", "pets", "a%20b%2Fc"] := by
  have hbuilt : (buildUrl {} pet "" petValues []).toOption.isSome = true := by decide +kernel
  obtain ⟨url, hurl⟩ := Option.isSome_iff_exists.1 hbuilt
  have hparts : serverParts pet = some ("https", .segments ["v1", ""]) := by decide +kernel
  obtain ⟨base, hbase, hscheme, hpath⟩ := exists_of_serverParts hparts
  have hplain : Plain petPieces := by decide
  obtain ⟨found, hfound, -, hsegments, -⟩ :=
    buildUrl_path_iff hplain (by decide) (by decide) (eq_ok_of_toOption hurl)
  obtain rfl : base = found := Except.ok.inj (hbase.symm.trans hfound)
  have hiff := hsegments _ hpath
  rw [hscheme] at hiff
  have hstays : Stays "https" ["v1", ""] petValues petPieces :=
    ⟨by decide, by decide, fun h => absurd h (by decide)⟩
  refine ⟨url, eq_ok_of_toOption hurl, (hiff.2 hstays).trans (congrArg UrlPath.segments ?_)⟩
  decide

def below : Operation := reading "https://api.example" "/a/\x7bid\x7d/b"

def belowPieces : List Piece := "/a/".toList.map .char ++ .place "id" :: "/b".toList.map .char

/-- Two dots lead to the level above, and the segment before them is lost. -/
theorem buildUrl_path_above :
    textOf belowPieces = below.path.toList ∧ serverParts below = some ("https", .segments [""]) ∧
      ∃ url, buildUrl {} below "" [("id", "..")] [] = .ok url ∧ url.path = .segments ["b"] ∧
        url.path ≠ .segments (namesOf (isSpecial "https") [""] [("id", "..")] belowPieces) := by
  have hbuilt : (buildUrl {} below "" [("id", "..")] []).toOption.map (·.path) =
      some (.segments ["b"]) := by decide +kernel
  have hnames : namesOf (isSpecial "https") [""] [("id", "..")] belowPieces = ["a", "..", "b"] := by
    decide
  obtain ⟨url, hurl, hpath⟩ := Option.map_eq_some_iff.1 hbuilt
  refine ⟨by decide, by decide +kernel, url, eq_ok_of_toOption hurl, hpath, ?_⟩
  rw [hpath, hnames]
  decide

end Arazzo.Request
