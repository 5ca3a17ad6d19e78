import Arazzo.Proofs.Leads
import Arazzo.Proofs.Text
import Arazzo.Proofs.Url.Percent
import Arazzo.Url.Reader

/-! Paths of URLs: what the names of a read path are made of, and when a path has one name for each
part of its text. -/

namespace Arazzo

theorem Text.splitAll_eq_splitOnP (mark : Char) (cs : List Char) :
    Text.splitAll mark cs = cs.splitOnP (· == mark) := by
  induction cs with
  | nil => rfl
  | cons c cs ih =>
    rw [Text.splitAll, List.splitOnP_cons_eq_if_modifyHead, ih]
    by_cases hc : c = mark
    · rw [if_pos hc, if_pos (beq_iff_eq.2 hc)]
    · rw [if_neg hc, if_neg (mt beq_iff_eq.1 hc)]
      cases h : cs.splitOnP (· == mark) with
      | nil => exact absurd h (List.splitOnP_ne_nil _ _)
      | cons part parts => rfl

namespace Url

open Percent

variable {special isFile last : Bool} {scheme name text : String} {names before : List String}
  {cs segment : List Char} {segments : List (List Char)}

def nameOf (segment : List Char) : String := String.ofList (encodeWith keepsInPath segment)

theorem splitPath_eq_splitOnP (special : Bool) (cs : List Char) :
    splitPath special cs = cs.splitOnP (isSlash special) := by
  rw [splitPath, Text.splitAll_eq_splitOnP]
  cases special with
  | false =>
    have hslash : isSlash false = fun c => c == '/' := by
      funext c
      simp [isSlash]
    rw [if_neg Bool.false_ne_true, hslash]
  | true =>
    rw [if_pos rfl]
    induction cs with
    | nil => rfl
    | cons c cs ih =>
      rw [List.map_cons, List.splitOnP_cons_eq_if_modifyHead, ih,
        List.splitOnP_cons_eq_if_modifyHead]
      by_cases hback : c = '\\'
      · subst hback
        rfl
      · simp [isSlash, hback]

structure IsName (special : Bool) (name : String) : Prop where
  kept : ∀ c ∈ name.toList, keepsInPath c = true
  slashless : ∀ c ∈ name.toList, isSlash special c = false
  notDots : isDots name.toList = false

theorem isName_empty (special : Bool) : IsName special "" := by
  refine ⟨?_, ?_, by decide⟩ <;> simp

theorem isSlash_of_standsInName {c : Char} (h : standsInName c = true) : isSlash special c = false := by
  simp only [standsInName, Bool.and_eq_true, bne_iff_ne] at h
  simp [isSlash, h.1.2, h.2]

theorem isName_nameOf (hslash : ∀ c ∈ segment, isSlash special c = false)
    (hdots : isDots segment = false) : IsName special (nameOf segment) := by
  have hchars : ∀ c ∈ encodeWith keepsInPath segment,
      keepsInPath c = true ∧ isSlash special c = false := by
    intro c hc
    rcases mem_encodeWith hc with ⟨hin, hkept⟩ | hsign
    · exact ⟨hkept, hslash c hin⟩
    · have hstands := standsInName_of_mem_codeSigns hsign
      exact ⟨keepsInPath_of_standsInName hstands, isSlash_of_standsInName hstands⟩
  refine ⟨?_, ?_, ?_⟩
  · rw [nameOf, String.toList_ofList]
    exact fun c hc => (hchars c hc).1
  · rw [nameOf, String.toList_ofList]
    exact fun c hc => (hchars c hc).2
  · rw [nameOf, String.toList_ofList, ← Bool.not_eq_true, isDots_encodeWith, hdots]
    exact Bool.false_ne_true

theorem nameOf_toList (h : IsName special name) : nameOf name.toList = name := by
  rw [nameOf, encodeWith_of_keep h.kept, String.ofList_toList]

theorem isDriveLetter_iff : isDriveLetter cs = true ↔
    ∃ c d, cs = [c, d] ∧ c.isAlpha = true ∧ (d = ':' ∨ d = '|') := by
  unfold isDriveLetter isLetterPair
  split
  · simp
  · rename_i hne
    simp only [Bool.false_eq_true, false_iff, not_exists]
    rintro c d ⟨hcs, -⟩
    exact hne c d hcs

theorem isName_drive {c : Char} (hc : c.isAlpha = true) :
    IsName special (String.ofList [c, ':']) := by
  have hstands : ∀ d ∈ [c, ':'], standsInName d = true := by
    simp only [List.forall_mem_cons]
    refine ⟨standsInName_of_isUnreserved ?_, by decide, by simp⟩
    simp [isUnreserved, Char.isAlphanum, hc]
  refine ⟨?_, ?_, ?_⟩
  · rw [String.toList_ofList]
    exact fun d hd => keepsInPath_of_standsInName (hstands d hd)
  · rw [String.toList_ofList]
    exact fun d hd => isSlash_of_standsInName (hstands d hd)
  · rw [String.toList_ofList, ← Bool.not_eq_true, isDots_iff]
    have hfirst {n : Nat} (h : Dots n [c, ':']) : c = '.' := by
      cases h
      rfl
    rintro (h | h)
    · exact absurd (hfirst h ▸ hc) (by decide)
    · exact absurd (hfirst h ▸ hc) (by decide)

theorem shorten_subset (isFile : Bool) (names : List String) : shorten isFile names ⊆ names := by
  unfold shorten
  split
  · split <;> simp
  · exact names.dropLast_subset

theorem length_shorten_le (isFile : Bool) (names : List String) :
    (shorten isFile names).length ≤ names.length := by
  unfold shorten
  split
  · split <;> simp
  · simp

theorem addSegment_of_dots (hdots : isDots segment = true) :
    addSegment isFile last names segment =
      (if isDoubleDot segment then shorten isFile names else names) ++
        (if last then [""] else []) := by
  rw [addSegment]
  split
  · rfl
  · rename_i hdouble
    rw [isDots, Bool.eq_false_iff.2 hdouble, Bool.false_or] at hdots
    rw [if_pos hdots]

theorem addSegment_drive {c d : Char} (hdots : isDots segment = false)
    (hcode : encodeWith keepsInPath segment = [c, d]) (hdrive : isDriveLetter [c, d] = true) :
    addSegment true last [] segment = [String.ofList [c, ':']] := by
  obtain ⟨hdouble, hsingle⟩ := Bool.or_eq_false_iff.1 hdots
  simp [addSegment, hdouble, hsingle, hcode, hdrive]

theorem addSegment_of_not_dots (hdots : isDots segment = false)
    (hstart : isFile = true → names = [] → ¬ isDriveLetter (encodeWith keepsInPath segment) = true) :
    addSegment isFile last names segment = names ++ [nameOf segment] := by
  obtain ⟨hdouble, hsingle⟩ := Bool.or_eq_false_iff.1 hdots
  have hno : (isFile && names.isEmpty && isDriveLetter (encodeWith keepsInPath segment)) = false := by
    rw [Bool.eq_false_iff, ne_eq, Bool.and_eq_true, Bool.and_eq_true, List.isEmpty_iff]
    exact fun h => hstart h.1.1 h.1.2 h.2
  simp only [addSegment, hdouble, hsingle, hno, nameOf, Bool.false_eq_true, if_false]

theorem addSegment_cases (isFile last : Bool) (names : List String)
    (hslash : ∀ c ∈ segment, isSlash special c = false) :
    ∃ before added, addSegment isFile last names segment = before ++ added ∧ before ⊆ names ∧
      before.length ≤ names.length ∧ added.length ≤ 1 ∧ ∀ name ∈ added, IsName special name := by
  cases hdots : isDots segment with
  | true =>
    refine ⟨_, _, addSegment_of_dots hdots, ?_, ?_, ?_, ?_⟩
    · split
      · exact shorten_subset isFile names
      · exact List.Subset.refl names
    · split
      · exact length_shorten_le isFile names
      · exact Nat.le_refl _
    · split <;> simp
    · split
      · simpa using isName_empty special
      · simp
  | false =>
    by_cases hstart : isFile = true ∧ names = [] ∧
        isDriveLetter (encodeWith keepsInPath segment) = true
    · obtain ⟨rfl, rfl, hdrive⟩ := hstart
      obtain ⟨c, d, hcode, hc, -⟩ := isDriveLetter_iff.1 hdrive
      refine ⟨[], _, addSegment_drive hdots hcode (hcode ▸ hdrive), ?_⟩
      simpa using isName_drive hc
    · refine ⟨names, [nameOf segment], addSegment_of_not_dots hdots ?_, ?_⟩
      · exact fun hfile hnames hdrive => hstart ⟨hfile, hnames, hdrive⟩
      · simpa using isName_nameOf hslash hdots

def AreNames (special : Bool) (names : List String) : Prop := ∀ name ∈ names, IsName special name

theorem areNames_nil (special : Bool) : AreNames special [] :=
  fun _ hname => absurd hname List.not_mem_nil

theorem addSegments_cons (isFile : Bool) (names : List String) (segment : List Char)
    (rest : List (List Char)) :
    addSegments isFile names (segment :: rest) =
      addSegments isFile (addSegment isFile rest.isEmpty names segment) rest := by
  cases rest <;> rfl

theorem addSegment_names (isFile last : Bool) (hslash : ∀ c ∈ segment, isSlash special c = false)
    (hnames : AreNames special names) :
    AreNames special (addSegment isFile last names segment) ∧
      (addSegment isFile last names segment).length ≤ names.length + 1 := by
  obtain ⟨before, added, hadd, hsub, hlength, hone, hadded⟩ :=
    addSegment_cases isFile last names hslash
  rw [hadd]
  refine ⟨fun name hname => ?_, by rw [List.length_append]; omega⟩
  rcases List.mem_append.1 hname with hold | hnew
  · exact hnames name (hsub hold)
  · exact hadded name hnew

theorem addSegments_names (isFile : Bool)
    (hslash : ∀ segment ∈ segments, ∀ c ∈ segment, isSlash special c = false)
    (hnames : AreNames special names) :
    AreNames special (addSegments isFile names segments) ∧
      (addSegments isFile names segments).length ≤ names.length + segments.length := by
  induction segments generalizing names with
  | nil => exact ⟨hnames, Nat.le_refl _⟩
  | cons segment rest ih =>
    rw [List.forall_mem_cons] at hslash
    rw [addSegments_cons, List.length_cons]
    obtain ⟨hadded, hone⟩ := addSegment_names isFile rest.isEmpty hslash.1 hnames
    obtain ⟨hall, hlength⟩ := ih hslash.2 hadded
    exact ⟨hall, by omega⟩

theorem addSegments_of_not_dots (hdots : ∀ segment ∈ segments, isDots segment = false)
    (hstart : isFile = true → names ≠ []) :
    addSegments isFile names segments = names ++ segments.map nameOf := by
  induction segments generalizing names with
  | nil => exact (List.append_nil names).symm
  | cons segment rest ih =>
    rw [List.forall_mem_cons] at hdots
    have hadd : addSegment isFile rest.isEmpty names segment = names ++ [nameOf segment] :=
      addSegment_of_not_dots hdots.1 fun hfile hnil => absurd hnil (hstart hfile)
    rw [addSegments_cons, hadd, ih hdots.2 (by simp), List.map_cons, List.append_assoc]
    rfl

/-- A bar after the letter of a drive becomes a colon. -/
def IsBarred (name : String) : Prop := ∃ c, c.isAlpha = true ∧ name = String.ofList [c, '|']

theorem addSegments_file (hdots : ∀ part ∈ segment :: segments, isDots part = false) :
    ∃ first, addSegments true [] (segment :: segments) = first :: segments.map nameOf ∧
      (first = "" ↔ nameOf segment = "") ∧ (first = nameOf segment ↔ ¬ IsBarred (nameOf segment)) := by
  rw [List.forall_mem_cons] at hdots
  have hrest (first : String) :
      addSegments true [first] segments = first :: segments.map nameOf :=
    addSegments_of_not_dots hdots.2 fun _ => List.cons_ne_nil _ _
  rw [addSegments_cons]
  by_cases hdrive : isDriveLetter (encodeWith keepsInPath segment) = true
  · obtain ⟨c, d, hcode, hc, hd⟩ := isDriveLetter_iff.1 hdrive
    have hname : nameOf segment = String.ofList [c, d] := congrArg String.ofList hcode
    rw [addSegment_drive hdots.1 hcode (hcode ▸ hdrive), hrest]
    refine ⟨_, rfl, ?_, ?_⟩
    · rw [hname, ← String.toList_inj, ← String.toList_inj, String.toList_ofList,
        String.toList_ofList]
      simp
    · rw [hname]
      rcases hd with rfl | rfl
      · refine iff_of_true rfl ?_
        rintro ⟨c', -, heq⟩
        simp at heq
      · refine iff_of_false (fun heq => ?_) (not_not_intro ⟨c, hc, rfl⟩)
        simp at heq
  · have hadd : addSegment true segments.isEmpty [] segment = [nameOf segment] :=
      addSegment_of_not_dots hdots.1 fun _ _ => hdrive
    rw [hadd, hrest]
    refine ⟨_, rfl, Iff.rfl, iff_of_true rfl ?_⟩
    rintro ⟨c, hc, hname⟩
    exact hdrive (isDriveLetter_iff.2 ⟨c, '|', String.ofList_inj.1 hname, hc, .inr rfl⟩)

/-! Whole paths -/

theorem trimFilePath_names (isFile : Bool) (hnames : AreNames special names) :
    AreNames special (trimFilePath isFile names) ∧
      (trimFilePath isFile names).length ≤ max 1 names.length := by
  have hsuffix := List.dropWhile_suffix (l := names) String.isEmpty
  unfold trimFilePath
  split
  · split
    · exact ⟨by simpa [AreNames] using isName_empty special, Nat.le_max_left _ _⟩
    · exact ⟨fun name hname => hnames name (hsuffix.subset hname),
        (hsuffix.length_le).trans (Nat.le_max_right _ _)⟩
  · exact ⟨hnames, Nat.le_max_right _ _⟩

theorem trimFilePath_eq_iff {first : String} (h : first = "" ↔ name = "") :
    trimFilePath true (first :: names) = name :: names ↔
      first = name ∧ (name = "" → names = []) := by
  rw [trimFilePath, if_pos rfl]
  by_cases hempty : first = ""
  · obtain rfl := hempty
    obtain rfl := h.1 rfl
    have hsuffix := List.dropWhile_suffix (l := names) String.isEmpty
    rw [List.dropWhile_cons_of_pos (by rfl)]
    constructor
    · intro heq
      refine ⟨rfl, fun _ => ?_⟩
      split at heq
      · exact (List.cons.inj heq).2.symm
      · rw [heq] at hsuffix
        have := hsuffix.length_le
        rw [List.length_cons] at this
        omega
    · rintro ⟨-, hnil⟩
      rw [hnil rfl]
      rfl
  · have hname : name ≠ "" := fun hname => hempty (h.2 hname)
    rw [List.dropWhile_cons_of_neg (by simpa using hempty)]
    simp [hname]

def partsOf (special : Bool) (cs : List Char) : List (List Char) := cs.splitOnP (isSlash special)

theorem partsOf_cons (special : Bool) (c : Char) (cs : List Char) :
    ∃ part parts, partsOf special cs = part :: parts ∧
      partsOf special (c :: cs) =
        if isSlash special c then [] :: part :: parts else (c :: part) :: parts := by
  obtain ⟨part, parts, hparts⟩ := List.exists_cons_of_ne_nil
    (List.splitOnP_ne_nil (isSlash special) cs)
  refine ⟨part, parts, hparts, ?_⟩
  rw [partsOf, List.splitOnP_cons_eq_if_modifyHead, hparts]
  rfl

theorem not_isSlash_of_mem_partsOf (h : segment ∈ partsOf special cs) :
    ∀ c ∈ segment, isSlash special c = false := by
  induction cs generalizing segment with
  | nil =>
    obtain rfl : segment = [] := List.mem_singleton.1 h
    simp
  | cons c cs ih =>
    obtain ⟨part, parts, hparts, hcons⟩ := partsOf_cons special c cs
    rw [hparts] at ih
    rw [hcons] at h
    split at h
    · rcases List.mem_cons.1 h with rfl | h
      · simp
      · exact ih h
    · rename_i hslash
      rcases List.mem_cons.1 h with rfl | h
      · exact List.forall_mem_cons.2 ⟨Bool.eq_false_iff.2 hslash, ih (List.mem_cons_self ..)⟩
      · exact ih (List.mem_cons_of_mem _ h)

theorem length_partsOf (special : Bool) (cs : List Char) :
    (partsOf special cs).length = cs.countP (isSlash special) + 1 := by
  induction cs with
  | nil => rfl
  | cons c cs ih =>
    obtain ⟨part, parts, hparts, hcons⟩ := partsOf_cons special c cs
    rw [hparts, List.length_cons] at ih
    rw [hcons, List.countP_cons]
    split <;> simp only [List.length_cons] <;> omega

theorem partsOf_append {added part : List Char} {parts : List (List Char)}
    (h : ∀ c ∈ added, isSlash special c = false) (hparts : partsOf special cs = part :: parts) :
    partsOf special (added ++ cs) = (added ++ part) :: parts := by
  induction added with
  | nil => exact hparts
  | cons c added ih =>
    obtain ⟨hc, hadded⟩ := List.forall_mem_cons.1 h
    obtain ⟨first, others, hfirst, hcons⟩ := partsOf_cons special c (added ++ cs)
    obtain ⟨rfl, rfl⟩ := List.cons.inj (hfirst.symm.trans (ih hadded))
    rw [List.cons_append, hcons, hc]
    rfl

theorem partsOf_names (h : AreNames special names) (cs : List Char) :
    partsOf special ((names.flatMap fun name => name.toList ++ ['/']) ++ cs) =
      names.map String.toList ++ partsOf special cs := by
  induction names with
  | nil => rfl
  | cons name names ih =>
    obtain ⟨hname, hnames⟩ := List.forall_mem_cons.1 h
    rw [List.flatMap_cons, List.append_assoc, List.append_assoc, partsOf, List.singleton_append,
      List.splitOnP_append_cons_of_forall_mem hname.slashless '/' rfl]
    exact congrArg (name.toList :: ·) (ih hnames)

theorem pathFrom_names (scheme : String) (cs : List Char)
    (hbefore : AreNames (isSpecial scheme) before) :
    AreNames (isSpecial scheme) (pathFrom scheme before cs) ∧
      (pathFrom scheme before cs).length ≤
        before.length + (partsOf (isSpecial scheme) cs).length := by
  have hslash : ∀ segment ∈ partsOf (isSpecial scheme) cs,
      ∀ c ∈ segment, isSlash (isSpecial scheme) c = false := fun _ => not_isSlash_of_mem_partsOf
  obtain ⟨hadded, hlength⟩ := addSegments_names (scheme == "file") hslash hbefore
  obtain ⟨htrimmed, hmax⟩ := trimFilePath_names (scheme == "file") hadded
  have hpos := List.length_pos_iff.2 (List.splitOnP_ne_nil (isSlash (isSpecial scheme)) cs)
  rw [pathFrom, splitPath_eq_splitOnP]
  refine ⟨htrimmed, hmax.trans (max_le ?_ hlength)⟩
  rw [partsOf]
  omega

/-- A path of a local file begins with an empty name only if it is the only one, and with no barred
drive. -/
def BeginsLocal (names : List String) : Prop :=
  ∀ first rest, names = first :: rest → ¬ IsBarred first ∧ (first = "" → rest = [])

theorem pathFrom_eq_iff_of_not_dots
    (hdots : ∀ part ∈ partsOf (isSpecial scheme) cs, isDots part = false) :
    pathFrom scheme [] cs = (partsOf (isSpecial scheme) cs).map nameOf ↔
      (scheme = "file" → BeginsLocal ((partsOf (isSpecial scheme) cs).map nameOf)) := by
  obtain ⟨part, parts, hparts⟩ := List.exists_cons_of_ne_nil
    (List.splitOnP_ne_nil (isSlash (isSpecial scheme)) cs)
  rw [pathFrom, splitPath_eq_splitOnP]
  rw [partsOf] at hdots ⊢
  rw [hparts] at hdots ⊢
  by_cases hfile : scheme = "file"
  · obtain ⟨first, hadd, hempty, hbarred⟩ := addSegments_file hdots
    rw [beq_iff_eq.2 hfile, hadd, List.map_cons, trimFilePath_eq_iff hempty, hbarred]
    simp [hfile, BeginsLocal]
  · have hother : (scheme == "file") = false := beq_eq_false_iff_ne.2 hfile
    have hadd : addSegments false [] (part :: parts) = (part :: parts).map nameOf :=
      addSegments_of_not_dots hdots fun h => absurd h Bool.false_ne_true
    rw [hother, hadd]
    exact iff_of_true rfl fun h => absurd h hfile

theorem pathFrom_eq_iff (scheme : String) (cs : List Char) :
    pathFrom scheme [] cs = (partsOf (isSpecial scheme) cs).map nameOf ↔
      (∀ part ∈ partsOf (isSpecial scheme) cs, isDots part = false) ∧
        (scheme = "file" → BeginsLocal ((partsOf (isSpecial scheme) cs).map nameOf)) := by
  have hdots (heq : pathFrom scheme [] cs = (partsOf (isSpecial scheme) cs).map nameOf) :
      ∀ part ∈ partsOf (isSpecial scheme) cs, isDots part = false := by
    intro part hpart
    have hnames := (pathFrom_names scheme cs (areNames_nil _)).1
    rw [heq] at hnames
    have hnot := (hnames _ (List.mem_map_of_mem hpart)).notDots
    rw [nameOf, String.toList_ofList, ← Bool.not_eq_true, isDots_encodeWith] at hnot
    exact Bool.eq_false_iff.2 hnot
  constructor
  · exact fun heq => ⟨hdots heq, (pathFrom_eq_iff_of_not_dots (hdots heq)).1 heq⟩
  · rintro ⟨hplain, hlocal⟩
    exact (pathFrom_eq_iff_of_not_dots hplain).2 hlocal

def HasNames (u : Url) : Prop :=
  match u.path with
  | .segments names => AreNames (isSpecial u.scheme) names
  | .whole text => (∀ c ∈ text.toList, isPrintable c = true) ∧ text.toList.head? ≠ some '/'

theorem rootPath_names (scheme : String) (cs : List Char) :
    AreNames (isSpecial scheme) (rootPath scheme cs) := by
  have hfrom (cs : List Char) : AreNames (isSpecial scheme) (pathFrom scheme [] cs) :=
    (pathFrom_names scheme cs (areNames_nil _)).1
  unfold rootPath
  split
  · split
    · simpa [AreNames] using isName_empty (isSpecial scheme)
    · exact areNames_nil _
  · exact hfrom _
  · exact hfrom _
  · exact hfrom _

variable {naming : Naming} {base u : Url} {c : Cut}

theorem wholePath_names (scheme : String) (h : cs.head? ≠ some '/') :
    HasNames { scheme, path := .whole (String.ofList (encodeWith isPrintable cs)) } := by
  have hsigns : codeSigns.all isPrintable = true := by decide
  refine ⟨fun c hc => ?_, fun hhead => ?_⟩
  · rw [String.toList_ofList] at hc
    rcases mem_encodeWith hc with ⟨-, hkept⟩ | hsign
    · exact hkept
    · exact List.all_eq_true.1 hsigns c hsign
  · rw [String.toList_ofList] at hhead
    obtain ⟨rest, hrest⟩ := List.head?_eq_some_iff.1 hhead
    obtain ⟨more, rfl, -⟩ := of_encodeWith_eq_cons hrest (by decide)
    exact h rfl

theorem readAuthority_names (h : readAuthority naming scheme c = .ok u) : HasNames u := by
  unfold readAuthority at h
  simp only [] at h
  split at h
  · cases h
  · obtain ⟨host, -, h⟩ := exists_of_bind_ok h
    obtain ⟨port, -, h⟩ := exists_of_bind_ok h
    cases h
    exact rootPath_names scheme _

theorem readFileAuthority_names (h : readFileAuthority naming c = .ok u) : HasNames u := by
  unfold readFileAuthority at h
  simp only [] at h
  split at h
  · cases h
    exact rootPath_names "file" _
  · obtain ⟨host, -, h⟩ := exists_of_bind_ok h
    cases h
    exact rootPath_names "file" _

theorem readRelative_names (hbase : HasNames base) (h : readRelative naming base cs = .ok u) :
    HasNames u := by
  unfold readRelative at h
  simp only [] at h
  split at h
  · split at h
    · exact readFileAuthority_names h
    · split at h
      · exact readAuthority_names h
      · exact readAuthority_names h
  · split at h
    · split at h
      · cases h
        exact hbase
      · cases h
        exact hbase
    · rename_i x rest names hhead hpath
      have hnames : AreNames (isSpecial base.scheme) names := by
        rw [HasNames, hpath] at hbase
        exact hbase
      split at h
      · cases h
        exact (pathFrom_names _ _ (areNames_nil _)).1
      · cases h
        exact (pathFrom_names _ _ fun name hname => hnames name (shorten_subset _ _ hname)).1
    · cases h

theorem readFile_names {base : Option Url} (hbase : ∀ b ∈ base, HasNames b)
    (h : readFile naming base cs = .ok u) : HasNames u := by
  unfold readFile at h
  split at h
  · exact readRelative_names (hbase _ rfl) h
  · simp only [] at h
    split at h
    · exact readFileAuthority_names h
    · cases h
      exact rootPath_names "file" _

theorem readAfterScheme_names {base : Option Url} (hbase : ∀ b ∈ base, HasNames b)
    (h : readAfterScheme naming base scheme cs = .ok u) : HasNames u := by
  have hpeer : ∀ b ∈ base.filter (·.scheme == scheme), HasNames b := by
    intro b hb
    exact hbase b (Option.filter_eq_some_iff.1 hb).1
  unfold readAfterScheme at h
  simp only [] at h
  split at h
  · exact readFile_names hpeer h
  · split at h
    · split at h
      · rename_i b hb
        split at h
        · exact readAuthority_names h
        · exact readRelative_names (hpeer b hb) h
      · exact readAuthority_names h
    · split at h
      · exact readAuthority_names h
      · split at h
        · cases h
          exact (pathFrom_names _ _ (areNames_nil _)).1
        · rename_i hslash
          cases h
          refine wholePath_names scheme fun hhead => ?_
          obtain ⟨rest, hrest⟩ := List.head?_eq_some_iff.1 hhead
          exact hslash rest hrest

theorem readWith_names {base : Option Url} (hbase : ∀ b ∈ base, HasNames b)
    (h : readWith naming base text = .ok u) : HasNames u := by
  unfold readWith at h
  simp only [] at h
  split at h
  · exact readAfterScheme_names hbase h
  · cases h
  · split at h
    · exact readRelative_names (hbase _ rfl) h
    · have hkept := hbase _ rfl
      cases h
      exact hkept
    · cases h

theorem withoutBreaks_append (cs more : List Char) :
    withoutBreaks (cs ++ more) = withoutBreaks cs ++ withoutBreaks more := List.filter_append ..

theorem withoutBreaks_of_isPrintable (h : ∀ c ∈ cs, isPrintable c = true) :
    withoutBreaks cs = cs := by
  refine List.filter_eq_self.2 fun c hc => ?_
  have hbreak {d : Char} (hd : isPrintable d = false) : c ≠ d := by
    rintro rfl
    rw [h c hc] at hd
    cases hd
  have htab : c ≠ '\t' := hbreak (by decide)
  have hline : c ≠ '\n' := hbreak (by decide)
  have hreturn : c ≠ '\r' := hbreak (by decide)
  simp [htab, hline, hreturn]

theorem setPath_segments (hpath : base.path = .segments names) (path : String) :
    (base.setPath path).path =
      .segments (rootPath base.scheme (withoutBreaks path.toList)) := by
  simp only [setPath, hpath]

theorem setPath_whole {path : List Char} (hpath : base.path = .whole text)
    (h : path.head? ≠ some '/') :
    (base.setPath (String.ofList path)).path =
      .whole (String.ofList (encodeWith isPrintable (withoutBreaks path))) := by
  unfold setPath
  split
  · rename_i hslash
    rw [String.toList_ofList] at hslash
    exact absurd (congrArg List.head? hslash) h
  · rw [String.toList_ofList]
  · rename_i hsegments
    rw [hpath] at hsegments
    cases hsegments

theorem setPath_whole_slash (hpath : base.path = .whole text) (path : List Char) :
    ∃ rest, (base.setPath (String.ofList ('/' :: path))).path = .whole ("%2F" ++ rest) := by
  unfold setPath
  split
  · exact ⟨_, rfl⟩
  · rename_i hslash
    exact (hslash path String.toList_ofList).elim
  · rename_i hsegments
    rw [hpath] at hsegments
    cases hsegments

end Url
end Arazzo
