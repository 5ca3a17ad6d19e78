import Arazzo.OpenApi.Operation
import Arazzo.Proofs.Leads
import Arazzo.Proofs.Table
import Mathlib.Data.List.Nodup
import Mathlib.Data.List.Perm.Subperm

/-! Chains of references inside an interface document. Each reference leads to one value at most, and
all but the first stand in the document, so a chain comes to an end or back to a reference before it is
longer than the document has references. -/

namespace Arazzo.OpenApi

variable {document value next last part target : Json} {reference : String}
  {references more unvisited visited : List String} {result : Except RefError Json}

/-- The reference is a mark with a pointer behind it, and the pointer leads to the target. -/
inductive PointsTo (document : Json) : String → Json → Prop where
  | intro {pointer : Pointer} {target : Json}
    (formed : pointer.text = "" ∨ pointer.text.toList.head? = some '/')
    (stands : pointer.resolve? document = some target) :
    PointsTo document ("#" ++ pointer.text) target

theorem target?_eq_some_iff {fragment : List Char} : target? document fragment = some target ↔
    (fragment = [] ∨ fragment.head? = some '/') ∧
      (Pointer.mk (String.ofList fragment)).resolve? document = some target := by
  unfold target?
  split
  · have hwhole : (Pointer.mk (String.ofList [])).resolve? document = some document := rfl
    rw [hwhole]
    simp
  · simp
  · rename_i hnil hslash
    refine iff_of_false (by simp) ?_
    rintro ⟨rfl | hhead, -⟩
    · exact hnil rfl
    · obtain ⟨rest, rfl⟩ := List.head?_eq_some_iff.1 hhead
      exact hslash rest rfl

theorem pointsTo_iff : PointsTo document reference target ↔
    ∃ fragment, reference.toList = '#' :: fragment ∧ target? document fragment = some target := by
  constructor
  · rintro ⟨formed, stands⟩
    rename_i pointer
    refine ⟨pointer.text.toList, by simp, target?_eq_some_iff.2 ⟨?_, ?_⟩⟩
    · rwa [String.toList_eq_nil_iff]
    · rwa [String.ofList_toList]
  · rintro ⟨fragment, hreference, htarget⟩
    obtain ⟨formed, stands⟩ := target?_eq_some_iff.1 htarget
    have hwritten : reference = "#" ++ (Pointer.mk (String.ofList fragment)).text := by
      rw [← String.toList_inj, hreference]
      simp
    rw [hwritten]
    refine .intro ?_ stands
    simpa using formed

theorem PointsTo.marked (h : PointsTo document reference target) :
    reference.toList.head? = some '#' := by
  obtain ⟨fragment, hfragment, -⟩ := pointsTo_iff.1 h
  rw [hfragment]
  rfl

theorem PointsTo.unique {other : Json} (h : PointsTo document reference target)
    (h' : PointsTo document reference other) : target = other := by
  obtain ⟨fragment, hfragment, htarget⟩ := pointsTo_iff.1 h
  obtain ⟨fragment', hfragment', hother⟩ := pointsTo_iff.1 h'
  obtain rfl := (List.cons.inj (hfragment.symm.trans hfragment')).2
  exact Option.some.inj (htarget.symm.trans hother)

theorem mem_refsIn (h : ref? value = some reference) : reference ∈ refsIn value := by
  cases value with
  | obj members =>
    rw [refsIn]
    exact List.mem_append_left _ (Option.mem_toList.2 h)
  | _ => cases h

theorem refsIn_subset_items {items : List Json} (h : part ∈ items) :
    refsIn part ⊆ refsInItems items := by
  induction items with
  | nil => exact absurd h List.not_mem_nil
  | cons item rest ih =>
    rw [refsInItems]
    rcases List.mem_cons.1 h with rfl | h
    · exact List.subset_append_left ..
    · exact List.subset_append_of_subset_right _ (ih h)

theorem refsIn_subset_members {members : Table Json} {name : String} (h : (name, part) ∈ members) :
    refsIn part ⊆ refsInMembers members := by
  induction members with
  | nil => exact absurd h List.not_mem_nil
  | cons member rest ih =>
    rw [refsInMembers]
    rcases List.mem_cons.1 h with rfl | h
    · exact List.subset_append_left ..
    · exact List.subset_append_of_subset_right _ (ih h)

theorem refsIn_child? {token : String} (h : Pointer.child? token value = some part) :
    refsIn part ⊆ refsIn value := by
  cases value with
  | obj members =>
    rw [refsIn]
    exact List.subset_append_of_subset_right _ (refsIn_subset_members (Table.mem_of_get? h))
  | arr items =>
    obtain ⟨i, -, hitem⟩ := Option.bind_eq_some_iff.1 h
    rw [refsIn]
    exact refsIn_subset_items (List.mem_of_getElem? hitem)
  | _ => cases h

theorem refsIn_resolveTokens {tokens : List String} (h : Pointer.resolveTokens tokens value = some part) :
    refsIn part ⊆ refsIn value := by
  induction tokens generalizing value with
  | nil =>
    obtain rfl : value = part := Option.some.inj h
    exact List.Subset.refl _
  | cons token rest ih =>
    obtain ⟨child, hchild, hrest⟩ := Option.bind_eq_some_iff.1 h
    exact List.Subset.trans (ih hrest) (refsIn_child? hchild)

theorem PointsTo.refsIn_subset (h : PointsTo document reference target) :
    refsIn target ⊆ refsIn document := by
  obtain ⟨-, stands⟩ := h
  exact refsIn_resolveTokens stands

inductive Chain (document : Json) : Json → List String → Json → Prop where
  | nil (value : Json) : Chain document value [] value
  | hop {value next last : Json} {reference : String} {references : List String}
    (refers : ref? value = some reference) (points : PointsTo document reference next)
    (onward : Chain document next references last) :
    Chain document value (reference :: references) last

def known (document value : Json) : List String := (ref? value).toList ++ refsIn document

theorem known_subset (h : PointsTo document reference next) :
    known document next ⊆ refsIn document := by
  refine List.append_subset.2 ⟨fun other hother => ?_, List.Subset.refl _⟩
  exact h.refsIn_subset (mem_refsIn (Option.mem_toList.1 hother))

theorem length_known_le (document value : Json) :
    (known document value).length ≤ (refsIn document).length + 1 := by
  have hfirst : (ref? value).toList.length ≤ 1 := by
    cases ref? value <;> simp
  rw [known, List.length_append]
  omega

namespace Chain

theorem known_last (h : Chain document value references last) (refers : ref? last = some reference) :
    reference ∈ known document value := by
  induction h with
  | nil => exact List.mem_append_left _ (Option.mem_toList.2 refers)
  | hop _ points _ ih => exact List.mem_append_right _ (known_subset points (ih refers))

theorem subset_known (h : Chain document value references last) :
    references ⊆ known document value := by
  induction h with
  | nil => exact List.nil_subset _
  | hop refers points _ ih =>
    refine List.cons_subset.2 ⟨List.mem_append_left _ (Option.mem_toList.2 refers), ?_⟩
    exact List.subset_append_of_subset_right _ (List.Subset.trans ih (known_subset points))

theorem length_le (h : Chain document value references last) (fresh : references.Nodup) :
    references.length ≤ (refsIn document).length + 1 :=
  Nat.le_trans (fresh.subperm h.subset_known).length_le (length_known_le document value)

theorem rest (h : Chain document value (references ++ reference :: more) last) :
    ∃ next, PointsTo document reference next ∧ Chain document next more last := by
  induction references generalizing value with
  | nil =>
    cases h with
    | hop _ points onward => exact ⟨_, points, onward⟩
  | cons first references ih =>
    cases h with
    | hop _ _ onward => exact ih onward

theorem unique {last' : Json} (h : Chain document value references last)
    (h' : Chain document value more last')
    (hend : ∀ reference next, ref? last = some reference → ¬ PointsTo document reference next)
    (hend' : ∀ reference next, ref? last' = some reference → ¬ PointsTo document reference next) :
    references = more := by
  induction h generalizing more with
  | nil value =>
    cases h' with
    | nil => rfl
    | hop refers points => exact absurd points (hend _ _ refers)
  | hop refers points onward ih =>
    cases h' with
    | nil => exact absurd points (hend' _ _ refers)
    | hop refers' points' onward' =>
      obtain rfl := Option.some.inj (refers.symm.trans refers')
      obtain rfl := points.unique points'
      rw [ih onward' hend]

/-- A chain that comes to an end has no reference twice. -/
theorem fresh (h : Chain document value references last)
    (hend : ∀ reference next, ref? last = some reference → ¬ PointsTo document reference next) :
    references.Nodup := by
  induction h with
  | nil => exact List.nodup_nil
  | hop refers points onward ih =>
    refine List.nodup_cons.2 ⟨fun hmem => ?_, ih hend⟩
    obtain ⟨before, after, rfl⟩ := List.append_of_mem hmem
    -- The same reference again leads to the same value, from which there would be two chains.
    obtain ⟨again, points', onward'⟩ := onward.rest
    obtain rfl := points.unique points'
    have hlength := congrArg List.length (onward.unique onward' hend hend)
    simp only [List.length_append, List.length_cons] at hlength
    omega

end Chain

/-! Following references -/

/-- What comes of a value that a chain has led to; `visited` are the references of the chain. -/
inductive Stops (document : Json) (visited : List String) (last : Json) :
    Except RefError Json → Prop where
  | found (h : ref? last = none) : Stops document visited last (.ok last)
  | external {reference : String} (refers : ref? last = some reference)
    (h : reference.toList.head? ≠ some '#') :
    Stops document visited last (.error (.external reference))
  | notFound {reference : String} (refers : ref? last = some reference)
    (marked : reference.toList.head? = some '#')
    (h : ∀ target, ¬ PointsTo document reference target) :
    Stops document visited last (.error (.notFound reference))
  | cycle {reference : String} (fresh : visited.Nodup) (refers : ref? last = some reference)
    (h : reference ∈ visited) : Stops document visited last (.error (.cycle reference))

theorem Stops.cons (h : Stops document visited last result) (hnew : reference ∉ visited) :
    Stops document (reference :: visited) last result := by
  cases h with
  | found hnone => exact .found hnone
  | external refers hmark => exact .external refers hmark
  | notFound refers marked hnone => exact .notFound refers marked hnone
  | cycle fresh refers hmem =>
    exact .cycle (List.nodup_cons.2 ⟨hnew, fresh⟩) refers (List.mem_cons_of_mem _ hmem)

/-- How following references from the value ends, and after which references. -/
def Ends (document value : Json) (references : List String) (result : Except RefError Json) : Prop :=
  ∃ last, Chain document value references last ∧ Stops document references last result

theorem Ends.fresh (h : Ends document value references result) : references.Nodup := by
  obtain ⟨last, chain, stops⟩ := h
  cases stops with
  | found hnone =>
    refine chain.fresh fun reference next refers => ?_
    rw [hnone] at refers
    cases refers
  | external refers hmark =>
    refine chain.fresh fun reference' next refers' points => hmark ?_
    obtain rfl := Option.some.inj (refers.symm.trans refers')
    exact points.marked
  | notFound refers _ hnone =>
    refine chain.fresh fun reference' next refers' points => ?_
    obtain rfl := Option.some.inj (refers.symm.trans refers')
    exact hnone next points
  | cycle fresh => exact fresh

theorem mem_without {other : String} : other ∈ without reference unvisited ↔
    other ∈ unvisited ∧ other ≠ reference := by
  rw [without, List.mem_filter, decide_eq_true_iff]

theorem followFrom_hop (refers : ref? value = some reference) (points : PointsTo document reference next)
    (h : reference ∈ unvisited) : followFrom document unvisited value =
      followFrom document (without reference unvisited) next := by
  obtain ⟨fragment, hfragment, htarget⟩ := pointsTo_iff.1 points
  rw [followFrom, refers]
  simp only [hfragment, dif_pos h, htarget]

theorem followFrom_cycle (refers : ref? value = some reference)
    (marked : reference.toList.head? = some '#') (h : reference ∉ unvisited) :
    followFrom document unvisited value = .error (.cycle reference) := by
  obtain ⟨fragment, hfragment⟩ := List.head?_eq_some_iff.1 marked
  rw [followFrom, refers]
  simp only [hfragment, dif_neg h]

theorem followFrom_external (refers : ref? value = some reference)
    (h : reference.toList.head? ≠ some '#') :
    followFrom document unvisited value = .error (.external reference) := by
  rw [followFrom, refers]
  dsimp only
  split
  · rename_i fragment hfragment
    rw [hfragment] at h
    exact absurd rfl h
  · rfl

theorem followFrom_notFound (refers : ref? value = some reference)
    (marked : reference.toList.head? = some '#') (h : ∀ target, ¬ PointsTo document reference target)
    (hmem : reference ∈ unvisited) :
    followFrom document unvisited value = .error (.notFound reference) := by
  obtain ⟨fragment, hfragment⟩ := List.head?_eq_some_iff.1 marked
  have hnone : target? document fragment = none := by
    refine Option.eq_none_iff_forall_ne_some.2 fun target htarget => ?_
    exact h target (pointsTo_iff.2 ⟨fragment, hfragment, htarget⟩)
  rw [followFrom, refers]
  simp only [hfragment, dif_pos hmem, hnone]

/-- However far a chain goes without a reference twice, the search goes along. -/
theorem Chain.followFrom_eq (h : Chain document value references last) (fresh : references.Nodup)
    (hsub : references ⊆ unvisited) : ∃ remaining, followFrom document unvisited value =
      followFrom document remaining last ∧
      ∀ reference, reference ∈ remaining ↔ reference ∈ unvisited ∧ reference ∉ references := by
  induction h generalizing unvisited with
  | nil => exact ⟨unvisited, rfl, by simp⟩
  | @hop value next last reference references refers points _ ih =>
    obtain ⟨hnew, fresh⟩ := List.nodup_cons.1 fresh
    obtain ⟨hhere, hsub⟩ := List.cons_subset.1 hsub
    have hsub' : references ⊆ without reference unvisited := by
      intro other hother
      refine mem_without.2 ⟨hsub hother, ?_⟩
      rintro rfl
      exact hnew hother
    obtain ⟨remaining, hfollow, hremaining⟩ := ih fresh hsub'
    refine ⟨remaining, (followFrom_hop refers points hhere).trans hfollow, fun other => ?_⟩
    rw [hremaining, mem_without, List.mem_cons, not_or, and_assoc]

theorem exists_chain_followFrom (document : Json) (unvisited : List String) (value : Json) :
    ∃ references last, Chain document value references last ∧ references.Nodup ∧
      references ⊆ unvisited ∧ (Stops document references last (followFrom document unvisited value) ∨
        ∃ reference, ref? last = some reference ∧ reference ∉ unvisited ∧
          followFrom document unvisited value = .error (.cycle reference)) := by
  fun_induction followFrom document unvisited value with
  | case1 unvisited value hnone =>
    exact ⟨[], value, .nil value, List.nodup_nil, List.nil_subset _, .inl (.found hnone)⟩
  | case2 unvisited value reference refers fragment hfragment hmem hnone =>
    have marked : reference.toList.head? = some '#' := by
      rw [hfragment]
      rfl
    refine ⟨[], value, .nil value, List.nodup_nil, List.nil_subset _,
      .inl (.notFound refers marked fun target points => ?_)⟩
    obtain ⟨fragment', hfragment', htarget⟩ := pointsTo_iff.1 points
    obtain rfl := (List.cons.inj (hfragment.symm.trans hfragment')).2
    rw [hnone] at htarget
    cases htarget
  | case3 unvisited value reference refers fragment hfragment hmem next htarget ih =>
    have points : PointsTo document reference next := pointsTo_iff.2 ⟨fragment, hfragment, htarget⟩
    obtain ⟨references, last, chain, fresh, hsub, hend⟩ := ih
    have hnew : reference ∉ references := fun hagain => (mem_without.1 (hsub hagain)).2 rfl
    have fresh' : (reference :: references).Nodup := List.nodup_cons.2 ⟨hnew, fresh⟩
    refine ⟨reference :: references, last, .hop refers points chain, fresh',
      List.cons_subset.2 ⟨hmem, fun other hother => (mem_without.1 (hsub hother)).1⟩, ?_⟩
    rcases hend with stops | ⟨other, refers', hvisited, hcycle⟩
    · exact .inl (stops.cons hnew)
    -- What is not left to visit any more may be the reference that was followed here.
    · by_cases hsame : other = reference
      · subst hsame
        rw [hcycle]
        exact .inl (.cycle fresh' refers' (List.mem_cons_self ..))
      · exact .inr ⟨other, refers', fun hother => hvisited (mem_without.2 ⟨hother, hsame⟩), hcycle⟩
  | case4 unvisited value reference refers fragment hfragment hvisited =>
    exact ⟨[], value, .nil value, List.nodup_nil, List.nil_subset _,
      .inr ⟨reference, refers, hvisited, rfl⟩⟩
  | case5 unvisited value reference refers hmark =>
    refine ⟨[], value, .nil value, List.nodup_nil, List.nil_subset _, .inl (.external refers ?_)⟩
    intro marked
    obtain ⟨fragment, hfragment⟩ := List.head?_eq_some_iff.1 marked
    exact hmark fragment hfragment

theorem follow_eq (document value : Json) :
    follow document value = followFrom document (known document value) value := by
  unfold follow known
  split
  · rename_i hnone
    rw [followFrom, hnone]
  · rename_i reference refers
    rw [refers]
    rfl

theorem follow_ends (document value : Json) :
    ∃ references, Ends document value references (follow document value) := by
  rw [follow_eq]
  obtain ⟨references, last, chain, -, -, hend⟩ :=
    exists_chain_followFrom document (known document value) value
  rcases hend with stops | ⟨reference, refers, hunknown, -⟩
  · exact ⟨references, last, chain, stops⟩
  · exact absurd (chain.known_last refers) hunknown

theorem Ends.follow_eq (h : Ends document value references result) : follow document value = result := by
  have fresh := h.fresh
  obtain ⟨last, chain, stops⟩ := h
  obtain ⟨remaining, hfollow, hremaining⟩ := chain.followFrom_eq fresh chain.subset_known
  rw [OpenApi.follow_eq, hfollow]
  cases stops with
  | found hnone => rw [followFrom, hnone]
  | external refers hmark => exact followFrom_external refers hmark
  | notFound refers marked hnone =>
    refine followFrom_notFound refers marked hnone ?_
    refine (hremaining _).2 ⟨chain.known_last refers, fun hvisited => ?_⟩
    obtain ⟨before, after, rfl⟩ := List.append_of_mem hvisited
    obtain ⟨next, points, -⟩ := chain.rest
    exact hnone next points
  | cycle _ refers hvisited =>
    obtain ⟨before, after, rfl⟩ := List.append_of_mem hvisited
    obtain ⟨next, points, -⟩ := chain.rest
    exact followFrom_cycle refers points.marked fun hleft => ((hremaining _).1 hleft).2 hvisited

/--
References are followed to the one end that their chain has: a value that is no reference, a reference
that is not of this document or leads nowhere, or one that the chain has had before. No chain has more
references than the document and the value have, and the declared parameters are those at the ends.
-/
theorem follow_exact (document value : Json) :
    (∀ result, follow document value = result ↔
      ∃ references, Ends document value references result) ∧
    (∀ references result, Ends document value references result →
      references.Nodup ∧ references.length ≤ (refsIn document).length + 1) ∧
    ∃ collect : Json → Option DeclaredParameter,
      (∀ item parameter, collect item = some parameter ↔ ∃ references last,
        Ends document item references (.ok last) ∧ declared? last = some parameter) ∧
      declaredParameters document value =
        (((value.get? "parameters").bind Json.asArr?).getD []).filterMap collect := by
  have exactly (value : Json) (result : Except RefError Json) : follow document value = result ↔
      ∃ references, Ends document value references result := by
    constructor
    · rintro rfl
      exact follow_ends document value
    · rintro ⟨references, h⟩
      exact h.follow_eq
  refine ⟨exactly value, fun references result h => ⟨h.fresh, ?_⟩,
    fun item => (follow document item).toOption.bind declared?, fun item parameter => ?_, rfl⟩
  · obtain ⟨last, chain, -⟩ := id h
    exact chain.length_le h.fresh
  · rw [Option.bind_eq_some_iff]
    constructor
    · rintro ⟨last, hlast, hdeclared⟩
      obtain ⟨references, h⟩ := (exactly item _).1 (eq_ok_of_toOption hlast)
      exact ⟨references, last, h, hdeclared⟩
    · rintro ⟨references, last, h, hdeclared⟩
      refine ⟨last, ?_, hdeclared⟩
      rw [h.follow_eq]
      rfl

def circular : Json :=
  .obj [("components", .obj [("parameters", .obj
    [("a", .obj [("$ref", .str "#/components/parameters/b")]),
      ("b", .obj [("in", .str "path"), ("name", .str "id")]),
      ("x", .obj [("$ref", .str "#/components/parameters/y")]),
      ("y", .obj [("$ref", .str "#/components/parameters/x")])])])]

theorem follow_exact_circular :
    let value : Json := .obj [("$ref", .str "#/components/parameters/x")]
    ∃ references, Ends circular value references (.error (.cycle "#/components/parameters/x")) ∧
      references.Nodup ∧ references.length ≤ 4 := by
  intro value
  have hfollow : follow circular value = .error (.cycle "#/components/parameters/x") := by cbv
  obtain ⟨exactly, bounded, -⟩ := follow_exact circular value
  obtain ⟨references, h⟩ := (exactly _).1 hfollow
  have hcount : (refsIn circular).length = 3 := rfl
  have hbounded := bounded references _ h
  rw [hcount] at hbounded
  exact ⟨references, h, hbounded⟩

example : follow circular (.obj [("$ref", .str "#/components/parameters/a")]) =
    .ok (.obj [("in", .str "path"), ("name", .str "id")]) := by cbv

end Arazzo.OpenApi
