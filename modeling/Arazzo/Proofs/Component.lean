import Arazzo.Component
import Arazzo.Proofs.Pointer
import Arazzo.Proofs.Table
import Mathlib.Data.List.Nodup
import Mathlib.Data.List.Perm.Subperm

/-! References into the components: which texts are references, and where they lead. The aliases of a pool
form chains; a chain that ends has each name once, so every chain ends or comes back to a name. -/

namespace Arazzo

theorem Pool.ofKeyword?_eq_some_iff {text : String} {pool : Pool} :
    ofKeyword? text = some pool ↔ text = pool.keyword := by
  constructor
  · intro h
    unfold ofKeyword? at h
    split at h <;> cases h <;> rfl
  · rintro rfl
    cases pool <;> rfl

namespace ComponentRef

variable {ref : ComponentRef} {text : String} {cs pool name : List Char} {e : ReferenceError}

/-- How a reference is written: in dotted form or in pointer form. -/
inductive Spelling (ref : ComponentRef) : List Char → Prop
  | dotted : Spelling ref
      ("$components.".toList ++ (ref.pool.keyword.toList ++ '.' :: ref.name.toList))
  | pointer {token : List Char} (hname : Pointer.unescapeChars token = ref.name.toList) :
      Spelling ref ("#/components/".toList ++ (ref.pool.keyword.toList ++ '/' :: token))

structure RefersTo (text : String) (ref : ComponentRef) : Prop where
  named : ref.name.toList ≠ []
  unslashed : '/' ∉ ref.name.toList
  spelling : ref.Spelling (Text.trimChars text.toList)

theorem keyword_plain (pool : Pool) :
    '.' ∉ pool.keyword.toList ∧ '/' ∉ pool.keyword.toList ∧ '~' ∉ pool.keyword.toList := by
  cases pool <;> decide

theorem unescapeChars_eq_keyword_iff {pool : Pool} :
    Pointer.unescapeChars cs = pool.keyword.toList ↔ cs = pool.keyword.toList := by
  obtain ⟨-, hslash, htilde⟩ := keyword_plain pool
  constructor
  · intro h
    have hself := Pointer.unescapeChars_eq_self (h ▸ hslash) (h ▸ htilde)
    exact hself.symm.trans h
  · rintro rfl
    exact Pointer.unescapeChars_of_not_mem htilde

theorem ofParts?_eq_some_iff : ofParts? pool name = some ref ↔
    (name ≠ [] ∧ '/' ∉ name) ∧ pool = ref.pool.keyword.toList ∧ name = ref.name.toList := by
  have hpool : String.ofList pool = ref.pool.keyword ↔ pool = ref.pool.keyword.toList := by
    rw [← String.toList_inj, String.toList_ofList]
  have hname : String.ofList name = ref.name ↔ name = ref.name.toList := by
    rw [← String.toList_inj, String.toList_ofList]
  have hmade (p : Pool) : (⟨p, String.ofList name⟩ : ComponentRef) = ref ↔
      p = ref.pool ∧ String.ofList name = ref.name := by
    obtain ⟨q, n⟩ := ref
    exact ComponentRef.mk.injEq .. ▸ Iff.rfl
  unfold ofParts?
  split
  · rename_i hbad
    refine iff_of_false (by simp) fun h => ?_
    rcases Bool.or_eq_true_iff.1 hbad with hempty | hslash
    · exact h.1.1 (List.isEmpty_iff.1 hempty)
    · exact h.1.2 (List.contains_iff_mem.1 hslash)
  · rename_i hgood
    have hfine : name ≠ [] ∧ '/' ∉ name := by simpa [not_or] using hgood
    simp only [Option.map_eq_some_iff, hmade, Pool.ofKeyword?_eq_some_iff, hname]
    constructor
    · rintro ⟨p, hp, rfl, hsame⟩
      exact ⟨hfine, hpool.1 hp, hsame⟩
    · rintro ⟨-, hp, hsame⟩
      exact ⟨ref.pool, hpool.2 hp, rfl, hsame⟩

theorem parts?_eq_some_iff : parts? cs = some (pool, name) ↔
    (cs = "$components.".toList ++ (pool ++ '.' :: name) ∧ '.' ∉ pool) ∨
      ∃ part token, cs = "#/components/".toList ++ (part ++ '/' :: token) ∧ '/' ∉ part ∧
        Pointer.unescapeChars part = pool ∧ Pointer.unescapeChars token = name := by
  have apart (rest rest' : List Char) :
      "$components.".toList ++ rest ≠ "#/components/".toList ++ rest' := by
    intro h
    exact absurd (List.cons.inj h).1 (by decide)
  unfold parts?
  split
  · rename_i rest hrest
    rw [Text.afterLead?_eq_some_iff] at hrest
    subst hrest
    rw [Text.splitOnce?_eq_some_iff, List.append_cancel_left_eq]
    refine ⟨.inl, ?_⟩
    rintro (h | ⟨part, token, hcs, -⟩)
    · exact h
    · exact absurd hcs (apart _ _)
  · rename_i hdotted
    have hno : ¬ (cs = "$components.".toList ++ (pool ++ '.' :: name) ∧ '.' ∉ pool) := by
      rintro ⟨hcs, -⟩
      rw [Text.afterLead?_eq_some_iff.2 hcs] at hdotted
      cases hdotted
    rw [or_iff_right hno]
    split
    · rename_i rest hrest
      rw [Text.afterLead?_eq_some_iff] at hrest
      subst hrest
      simp only [Option.map_eq_some_iff, Prod.exists, Text.splitOnce?_eq_some_iff, Prod.mk.injEq,
        List.append_cancel_left_eq, and_assoc]
    · rename_i hpointer
      refine iff_of_false (by simp) ?_
      rintro ⟨part, token, hcs, -⟩
      rw [Text.afterLead?_eq_some_iff.2 hcs] at hpointer
      cases hpointer

theorem bind_parts?_eq_some_iff : ((parts? cs).bind fun (pool, name) => ofParts? pool name) = some ref ↔
    ref.name.toList ≠ [] ∧ '/' ∉ ref.name.toList ∧ ref.Spelling cs := by
  obtain ⟨hdot, hslash, -⟩ := keyword_plain ref.pool
  simp only [Option.bind_eq_some_iff, Prod.exists, parts?_eq_some_iff, ofParts?_eq_some_iff]
  constructor
  · rintro ⟨pool, name, hparts, ⟨hnamed, hunslashed⟩, rfl, rfl⟩
    refine ⟨hnamed, hunslashed, ?_⟩
    rcases hparts with ⟨rfl, -⟩ | ⟨part, token, rfl, -, hpart, htoken⟩
    · exact .dotted
    · obtain rfl := unescapeChars_eq_keyword_iff.1 hpart
      exact .pointer htoken
  · rintro ⟨hnamed, hunslashed, hspelling⟩
    refine ⟨_, _, ?_, ⟨hnamed, hunslashed⟩, rfl, rfl⟩
    cases hspelling with
    | dotted => exact .inl ⟨rfl, hdot⟩
    | pointer hname =>
      exact .inr ⟨_, _, rfl, hslash, unescapeChars_eq_keyword_iff.2 rfl, hname⟩

theorem parse_eq_ok_iff : parse text = .ok ref ↔ RefersTo text ref := by
  have hsome : ((parts? (Text.trimChars text.toList)).bind
      fun (pool, name) => ofParts? pool name) = some ref ↔
        ref.name.toList ≠ [] ∧ '/' ∉ ref.name.toList ∧
          ref.Spelling (Text.trimChars text.toList) := bind_parts?_eq_some_iff
  have hrefers : RefersTo text ref ↔ ref.name.toList ≠ [] ∧ '/' ∉ ref.name.toList ∧
      ref.Spelling (Text.trimChars text.toList) :=
    ⟨fun h => ⟨h.named, h.unslashed, h.spelling⟩, fun h => ⟨h.1, h.2.1, h.2.2⟩⟩
  rw [hrefers, ← hsome]
  unfold parse
  dsimp only
  split
  · rename_i found hfound
    rw [hfound, Except.ok.injEq, Option.some.injEq]
  · rename_i hnone
    rw [hnone]
    exact iff_of_false (by simp) (by simp)

theorem parse_eq_error_iff :
    parse text = .error e ↔ e = .malformed (Text.trim text) ∧ ∀ ref, ¬ RefersTo text ref := by
  simp only [← parse_eq_ok_iff]
  unfold parse
  dsimp only
  split
  · rename_i found hfound
    exact iff_of_false (by simp) fun h => h.2 found rfl
  · have htrim : Text.trim text = String.ofList (Text.trimChars text.toList) := rfl
    simp [htrim, eq_comm]

theorem RefersTo.unique {ref' : ComponentRef} (h : RefersTo text ref) (h' : RefersTo text ref') :
    ref = ref' :=
  Except.ok.inj ((parse_eq_ok_iff.2 h).symm.trans (parse_eq_ok_iff.2 h'))

end ComponentRef

namespace Component

open ComponentRef

variable {α β : Type} {expected : Pool} {pool unvisited : Table (Entry α)} {visited : List String}
  {start here next last : Reusable} {hops more : List (String × Reusable)} {name : String}
  {entry : Entry α} {value : Option Json}

/-! Chains of references -/

/-- The reference leads to an entry of the pool. -/
structure Names (expected : Pool) (pool : Table (Entry α)) (here : Reusable) (name : String)
    (entry : Entry α) : Prop where
  refers : RefersTo here.reference ⟨expected, name⟩
  stands : Table.get? name pool = some entry

/-- Each reference leads to the next one. A hop is the name of an entry and the reference that it is. -/
inductive Chain (expected : Pool) (pool : Table (Entry α)) :
    Reusable → List (String × Reusable) → Reusable → Prop
  | nil (here : Reusable) : Chain expected pool here [] here
  | hop {here next last : Reusable} {name : String} {hops : List (String × Reusable)}
      (names : Names expected pool here name (.reusable next))
      (onward : Chain expected pool next hops last) :
      Chain expected pool here ((name, next) :: hops) last

def names (hops : List (String × Reusable)) : List String := hops.map (·.1)

def nearestValue (start : Reusable) (hops : List (String × Reusable)) : Option Json :=
  start.value.or (hops.findSome? (·.2.value))

theorem names_concat (hops : List (String × Reusable)) (hop : String × Reusable) :
    names (hops ++ [hop]) = names hops ++ [hop.1] := List.map_append

theorem nearestValue_nil (start : Reusable) : nearestValue start [] = start.value := Option.or_none

theorem nearestValue_concat (start : Reusable) (hops : List (String × Reusable))
    (hop : String × Reusable) :
    nearestValue start (hops ++ [hop]) = (nearestValue start hops).or hop.2.value := by
  have hlast : [hop].findSome? (·.2.value) = hop.2.value := by
    cases h : hop.2.value <;> simp [h]
  rw [nearestValue, nearestValue, List.findSome?_append, hlast, Option.or_assoc]

theorem Names.unique {name' : String} {entry' : Entry α} (h : Names expected pool here name entry)
    (h' : Names expected pool here name' entry') : name = name' ∧ entry = entry' := by
  have hname : name = name' := congrArg ComponentRef.name (h.refers.unique h'.refers)
  subst hname
  exact ⟨rfl, Option.some.inj (h.stands.symm.trans h'.stands)⟩

namespace Chain

theorem append (h : Chain expected pool start hops here) (h' : Chain expected pool here more last) :
    Chain expected pool start (hops ++ more) last := by
  induction h with
  | nil => exact h'
  | hop names _ ih => exact .hop names (ih h')

theorem concat (h : Chain expected pool start hops here)
    (names : Names expected pool here name (.reusable next)) :
    Chain expected pool start (hops ++ [(name, next)]) next :=
  h.append (.hop names (.nil next))

theorem split (h : Chain expected pool start (hops ++ more) last) :
    ∃ here, Chain expected pool start hops here ∧ Chain expected pool here more last := by
  induction hops generalizing start with
  | nil => exact ⟨start, .nil start, h⟩
  | cons hop hops ih =>
    cases h with
    | hop names onward =>
      obtain ⟨here, hfirst, hrest⟩ := ih onward
      exact ⟨here, .hop names hfirst, hrest⟩

theorem stands (h : Chain expected pool start hops last) {hop : String × Reusable}
    (hmem : hop ∈ hops) : Table.get? hop.1 pool = some (.reusable hop.2) := by
  induction h with
  | nil => exact absurd hmem List.not_mem_nil
  | hop names _ ih =>
    rcases List.mem_cons.1 hmem with rfl | hmem
    · exact names.stands
    · exact ih hmem

theorem stands_name (h : Chain expected pool start hops last) (hname : name ∈ names hops) :
    ∃ next, Table.get? name pool = some (.reusable next) := by
  obtain ⟨hop, hmem, rfl⟩ := List.mem_map.1 hname
  exact ⟨hop.2, h.stands hmem⟩

theorem returns (h : Chain expected pool here hops last)
    (hstart : ∃ loop, loop ≠ [] ∧ Chain expected pool start loop start)
    (hback : ∃ loop, loop ≠ [] ∧ Chain expected pool here loop start) :
    ∃ loop, loop ≠ [] ∧ Chain expected pool last loop start := by
  induction h with
  | nil => exact hback
  | @hop here next last name hops names _ ih =>
    obtain ⟨loop, hne, hloop⟩ := hback
    apply ih
    cases hloop with
    | nil => exact absurd rfl hne
    | @hop _ next' _ _ rest names' onward =>
      obtain rfl : next = next' := Entry.reusable.inj (names.unique names').2
      cases rest with
      | nil =>
        cases onward
        exact hstart
      | cons hop rest => exact ⟨hop :: rest, List.cons_ne_nil _ _, onward⟩

theorem fresh (h : Chain expected pool start hops last)
    (hend : ∀ name next, ¬ Names expected pool last name (.reusable next)) : (names hops).Nodup := by
  induction h with
  | nil => exact List.nodup_nil
  | @hop here next last name hops names onward ih =>
    refine List.nodup_cons.2 ⟨fun hmem => ?_, ih hend⟩
    obtain ⟨⟨again, next'⟩, hhop, hname⟩ := List.mem_map.1 hmem
    have hname : again = name := hname
    subst hname
    -- The same name again is the same entry, so from there the chain comes back to it.
    have hsame : next' = next := by
      have hentries := (onward.stands hhop).symm.trans names.stands
      exact Entry.reusable.inj (Option.some.inj hentries)
    subst hsame
    obtain ⟨before, after, rfl⟩ := List.append_of_mem hhop
    obtain ⟨middle, hfirst, hrest⟩ := onward.split
    cases hrest with
    | hop names' rest =>
      have hloop : ∃ loop, loop ≠ [] ∧ Chain expected pool next' loop next' :=
        ⟨_, by simp, hfirst.concat names'⟩
      obtain ⟨loop, hne, hback⟩ := rest.returns hloop hloop
      cases hback with
      | nil => exact hne rfl
      | hop names _ => exact hend _ _ names

theorem length_le (h : Chain expected pool start hops last) (fresh : (names hops).Nodup) :
    hops.length ≤ pool.length := by
  have hsub : names hops ⊆ Table.keys pool := by
    intro name hname
    obtain ⟨next, hget⟩ := h.stands_name hname
    exact Table.mem_keys_of_mem (Table.mem_of_get? hget)
  have hlength := (fresh.subperm hsub).length_le
  simpa only [names, Table.keys, List.length_map] using hlength

end Chain

/-! Following references -/

/-- The loop after some hops: what it has not visited is as it is in the pool. -/
structure Underway (expected : Pool) (pool : Table (Entry α)) (start : Reusable)
    (hops : List (String × Reusable)) (here : Reusable) (unvisited : Table (Entry α)) : Prop where
  chain : Chain expected pool start hops here
  fresh : (names hops).Nodup
  unvisited : ∀ name, name ∉ names hops → Table.get? name unvisited = Table.get? name pool

theorem Underway.opening (expected : Pool) (pool : Table (Entry α)) (start : Reusable) :
    Underway expected pool start [] start pool :=
  ⟨.nil start, List.nodup_nil, fun _ _ => rfl⟩

theorem Underway.hop (h : Underway expected pool start hops here unvisited)
    (hrefers : RefersTo here.reference ⟨expected, name⟩) (hfresh : name ∉ names hops)
    (hget : Table.get? name unvisited = some (.reusable next)) :
    Underway expected pool start (hops ++ [(name, next)]) next (Table.erase name unvisited) := by
  have hstands : Table.get? name pool = some (.reusable next) := (h.unvisited name hfresh).symm.trans hget
  refine ⟨h.chain.concat ⟨hrefers, hstands⟩, ?_, ?_⟩
  · rw [names_concat, ← List.concat_eq_append]
    exact h.fresh.concat hfresh
  · intro other hother
    rw [names_concat, List.mem_append, List.mem_singleton, not_or] at hother
    rw [Table.get?_erase_ne (Ne.symm hother.2), h.unvisited other hother.1]

theorem followFrom_fresh (hrefers : RefersTo here.reference ⟨expected, name⟩)
    (hfresh : name ∉ visited) :
    followFrom expected visited unvisited here.reference value =
      match Table.get? name unvisited with
      | none => .error (.notFound here.reference)
      | some (.concrete found) => .ok (found, value)
      | some (.reusable next) =>
        followFrom expected (visited ++ [name]) (Table.erase name unvisited) next.reference
          (value.or next.value) := by
  rw [followFrom, parse_eq_ok_iff.2 hrefers]
  simp only [ne_eq, not_true_eq_false, if_false, hfresh]
  split <;> rename_i hget <;> rw [hget]

/-- However far a chain goes without a name twice, the loop goes along. -/
theorem Chain.underway (h : Chain expected pool start hops last) (fresh : (names hops).Nodup) :
    ∃ unvisited, Underway expected pool start hops last unvisited ∧ follow expected pool start =
      followFrom expected (names hops) unvisited last.reference (nearestValue start hops) := by
  induction hops using List.reverseRecOn generalizing last with
  | nil =>
    cases h
    refine ⟨pool, .opening expected pool start, ?_⟩
    rw [nearestValue_nil]
    rfl
  | append_singleton hops hop ih =>
    obtain ⟨here, hfirst, hlast⟩ := h.split
    rw [names_concat] at fresh
    obtain ⟨hfresh, -, hnew⟩ := List.nodup_append.1 fresh
    obtain ⟨unvisited, under, hfollow⟩ := ih hfirst hfresh
    cases hlast with
    | @hop _ next _ name _ names' onward =>
      cases onward
      have hname : name ∉ names hops := fun hmem => hnew name hmem name (List.mem_singleton.2 rfl) rfl
      have hget := (under.unvisited name hname).trans names'.stands
      refine ⟨_, under.hop names'.refers hname hget, ?_⟩
      rw [names_concat, nearestValue_concat, hfollow, followFrom_fresh names'.refers hname, hget]

/-- How following references from the start ends, and after which hops. -/
inductive Ends (expected : Pool) (pool : Table (Entry α)) (start : Reusable) :
    List (String × Reusable) → Except ReferenceError (α × Option Json) → Prop
  | found {hops : List (String × Reusable)} {last : Reusable} {name : String} {found : α}
      (chain : Chain expected pool start hops last)
      (names : Names expected pool last name (.concrete found)) :
      Ends expected pool start hops (.ok (found, nearestValue start hops))
  | malformed {hops : List (String × Reusable)} {last : Reusable}
      (chain : Chain expected pool start hops last)
      (h : ∀ ref, ¬ RefersTo last.reference ref) :
      Ends expected pool start hops (.error (.malformed (Text.trim last.reference)))
  | wrongPool {hops : List (String × Reusable)} {last : Reusable} {ref : ComponentRef}
      (chain : Chain expected pool start hops last) (refers : RefersTo last.reference ref)
      (h : ref.pool ≠ expected) :
      Ends expected pool start hops (.error (.wrongPool last.reference expected))
  | notFound {hops : List (String × Reusable)} {last : Reusable} {name : String}
      (chain : Chain expected pool start hops last)
      (refers : RefersTo last.reference ⟨expected, name⟩) (h : Table.get? name pool = none) :
      Ends expected pool start hops (.error (.notFound last.reference))
  | cycle {hops : List (String × Reusable)} {last : Reusable} {name : String}
      (chain : Chain expected pool start hops last) (fresh : (names hops).Nodup)
      (refers : RefersTo last.reference ⟨expected, name⟩) (h : name ∈ names hops) :
      Ends expected pool start hops (.error (.cycle (names hops ++ [name])))

theorem Underway.ends (h : Underway expected pool start hops here unvisited) :
    ∃ hops', Ends expected pool start hops' (followFrom expected (names hops) unvisited here.reference
      (nearestValue start hops)) := by
  have refers {reference : String} {target : ComponentRef}
      (hparse : ComponentRef.parse reference = .ok target) (hpool : ¬ target.pool ≠ expected) :
      RefersTo reference ⟨expected, target.name⟩ := by
    rw [← not_not.1 hpool]
    exact parse_eq_ok_iff.1 hparse
  generalize hvisited : names hops = visited, hreference : here.reference = reference,
    hvalue : nearestValue start hops = value
  fun_induction followFrom expected visited unvisited reference value generalizing hops here with
  | case1 visited unvisited reference value e hparse =>
    subst hreference
    obtain ⟨rfl, hnone⟩ := parse_eq_error_iff.1 hparse
    exact ⟨hops, .malformed h.chain hnone⟩
  | case2 visited unvisited reference value target hparse hpool =>
    subst hreference
    exact ⟨hops, .wrongPool h.chain (parse_eq_ok_iff.1 hparse) hpool⟩
  | case3 visited unvisited reference value target hparse hpool hmem =>
    subst hvisited hreference
    exact ⟨hops, .cycle h.chain h.fresh (refers hparse hpool) hmem⟩
  | case4 visited unvisited reference value target hparse hpool hfresh hnone =>
    subst hvisited hreference
    rw [h.unvisited _ hfresh] at hnone
    exact ⟨hops, .notFound h.chain (refers hparse hpool) hnone⟩
  | case5 visited unvisited reference value target hparse hpool hfresh found hget =>
    subst hvisited hreference hvalue
    rw [h.unvisited _ hfresh] at hget
    exact ⟨hops, .found h.chain ⟨refers hparse hpool, hget⟩⟩
  | case6 visited unvisited reference value target hparse hpool hfresh next hget ih =>
    subst hvisited hreference hvalue
    have onward := h.hop (refers hparse hpool) hfresh hget
    exact ih onward (names_concat ..) rfl (nearestValue_concat ..)

theorem follow_ends (expected : Pool) (pool : Table (Entry α)) (start : Reusable) :
    ∃ hops, Ends expected pool start hops (follow expected pool start) := by
  obtain ⟨hops, h⟩ := (Underway.opening expected pool start).ends
  rw [nearestValue_nil] at h
  exact ⟨hops, h⟩

theorem Ends.chain {result : Except ReferenceError (α × Option Json)}
    (h : Ends expected pool start hops result) : ∃ last, Chain expected pool start hops last := by
  cases h with
  | found chain => exact ⟨_, chain⟩
  | malformed chain => exact ⟨_, chain⟩
  | wrongPool chain => exact ⟨_, chain⟩
  | notFound chain => exact ⟨_, chain⟩
  | cycle chain => exact ⟨_, chain⟩

theorem Ends.fresh {result : Except ReferenceError (α × Option Json)}
    (h : Ends expected pool start hops result) : (names hops).Nodup := by
  cases h with
  | found chain names =>
    refine chain.fresh fun name next names' => ?_
    cases (names.unique names').2
  | malformed chain hno => exact chain.fresh fun name next names => hno _ names.refers
  | wrongPool chain refers hpool =>
    refine chain.fresh fun name next names => hpool ?_
    rw [refers.unique names.refers]
  | notFound chain refers hnone =>
    refine chain.fresh fun name next names => ?_
    cases refers.unique names.refers
    exact absurd (hnone.symm.trans names.stands) (by simp)
  | cycle chain fresh => exact fresh

theorem Ends.length_le {result : Except ReferenceError (α × Option Json)}
    (h : Ends expected pool start hops result) : hops.length ≤ pool.length := by
  obtain ⟨last, chain⟩ := h.chain
  exact chain.length_le h.fresh

theorem Ends.follow_eq {result : Except ReferenceError (α × Option Json)}
    (h : Ends expected pool start hops result) : follow expected pool start = result := by
  have hfresh := h.fresh
  have unnamed {last : Reusable} {name : String} (chain : Chain expected pool start hops last)
      (hend : ∀ next, Table.get? name pool ≠ some (.reusable next)) : name ∉ names hops := by
    intro hmem
    obtain ⟨next, hget⟩ := chain.stands_name hmem
    exact hend next hget
  cases h with
  | found chain names =>
    obtain ⟨unvisited, under, hfollow⟩ := chain.underway hfresh
    have hname := unnamed chain fun next hget => by
      cases names.stands.symm.trans hget
    rw [hfollow, followFrom_fresh names.refers hname, under.unvisited _ hname, names.stands]
  | malformed chain hno =>
    obtain ⟨unvisited, -, hfollow⟩ := chain.underway hfresh
    rw [hfollow, followFrom, parse_eq_error_iff.2 ⟨rfl, hno⟩]
  | wrongPool chain refers hpool =>
    obtain ⟨unvisited, -, hfollow⟩ := chain.underway hfresh
    rw [hfollow, followFrom, parse_eq_ok_iff.2 refers]
    exact if_pos hpool
  | notFound chain refers hnone =>
    obtain ⟨unvisited, under, hfollow⟩ := chain.underway hfresh
    have hname := unnamed chain fun next hget => by
      cases hnone.symm.trans hget
    rw [hfollow, followFrom_fresh refers hname, under.unvisited _ hname, hnone]
  | cycle chain _ refers hmem =>
    obtain ⟨unvisited, -, hfollow⟩ := chain.underway hfresh
    rw [hfollow, followFrom, parse_eq_ok_iff.2 refers]
    simp only [ne_eq, not_true_eq_false, if_false, hmem, if_true]

/-- The answer is what is made of the end that the references lead to, and of no other; every chain of
references is over before it has more hops than the pool has entries. -/
structure Settles (expected : Pool) (pool : Table (Entry α)) (start : Reusable)
    (give : α × Option Json → β) (answer : Except ReferenceError β) : Prop where
  exactly : ∀ other, answer = other ↔
    ∃ hops result, Ends expected pool start hops result ∧ other = result.map give
  bounded : ∀ hops result, Ends expected pool start hops result → hops.length ≤ pool.length

theorem follow_settles (expected : Pool) (pool : Table (Entry α)) (start : Reusable)
    (give : α × Option Json → β) :
    Settles expected pool start give ((follow expected pool start).map give) := by
  refine ⟨fun other => ⟨?_, ?_⟩, fun hops result h => h.length_le⟩
  · rintro rfl
    obtain ⟨hops, h⟩ := follow_ends expected pool start
    exact ⟨hops, _, h, rfl⟩
  · rintro ⟨hops, result, h, rfl⟩
    rw [h.follow_eq]

def withValue (found : Parameter × Option Json) : Parameter :=
  { found.1 with value := found.2.getD found.1.value }

theorem resolveParameter_eq (components : Components) (use : Reusable) :
    resolveParameter (some components) (.reusable use) =
      (follow .parameters components.parameters use).map withValue := by
  have hresolve : resolve .parameters Components.parameters (some components) (.reusable use) =
      follow .parameters components.parameters use := rfl
  rw [resolveParameter, hresolve]
  refine congrArg (Except.map · _) ?_
  funext found
  obtain ⟨p, value⟩ := found
  cases value <;> rfl

/-- Each kind of entry is resolved to what its references lead to: a component, with the nearest value if
it is a parameter, or the first fault on the way, or the way back to a name. -/
theorem resolve_settles (components : Components) (use : Reusable) :
    Settles .parameters components.parameters use withValue
        (resolveParameter (some components) (.reusable use)) ∧
      Settles .successActions components.successActions use Prod.fst
        (resolveSuccessAction (some components) (.reusable use)) ∧
      Settles .failureActions components.failureActions use Prod.fst
        (resolveFailureAction (some components) (.reusable use)) := by
  refine ⟨?_, ?_, ?_⟩
  · rw [resolveParameter_eq]
    exact follow_settles ..
  · exact follow_settles ..
  · exact follow_settles ..

example :
    resolveSuccessAction
      (some ⟨[], [], [("a", .reusable ⟨"$components.successActions.b", none⟩),
        ("b", .reusable ⟨"#/components/successActions/a", none⟩)], [], []⟩)
      (.reusable ⟨" $components.successActions.a", none⟩) = .error (.cycle ["a", "b", "a"]) := by cbv

end Component
end Arazzo
