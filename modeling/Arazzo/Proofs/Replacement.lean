import Arazzo.Proofs.Json.Edited
import Arazzo.Proofs.JsonPath.Nodes
import Arazzo.Replacement

/-! Replacing what a query selects: beside the selected places nothing changes, and an outermost one
holds the new value, unless a place inside it is written to after it and leads on in the new value. -/

namespace Arazzo.Payload

open Json Pointer JsonPath

variable {new value held payload document : Json} {token other : String} {target : String}
  {tokens rest place : List String} {places : List JsonPath.Location}

theorem child?_putAt (new : Json) (token : String) (rest : List String) (value : Json) :
    child? token (putAt new (token :: rest) value) = (child? token value).map (putAt new rest) := by
  cases value with
  | obj members =>
    cases hget : Table.get? token members with
    | none => simp [putAt, child?, hget]
    | some child => simp [putAt, child?, hget, Table.get?_insert]
  | arr items =>
    cases hread : readIndex? token with
    | none => simp [putAt, child?, hread]
    | some i =>
      cases hitem : items[i]? with
      | none => simp [putAt, child?, hread, hitem]
      | some child =>
        have hpresent : i < items.length := (List.getElem?_eq_some_iff.1 hitem).1
        simp [putAt, child?, hread, hpresent]
  | _ => rfl

theorem child?_putAt_other (h : other ≠ token) (new : Json) (rest : List String) (value : Json) :
    child? other (putAt new (token :: rest) value) = child? other value := by
  cases value with
  | obj members =>
    cases hget : Table.get? token members with
    | none => simp [putAt, hget]
    | some child => simp [putAt, child?, hget, Table.get?_insert, Ne.symm h]
  | arr items =>
    cases hread : readIndex? token with
    | none => simp [putAt, hread]
    | some i =>
      cases hitem : items[i]? with
      | none => simp [putAt, hread, hitem]
      | some child =>
        simp only [putAt, hread, hitem, child?]
        refine Option.bind_congr fun j hj => ?_
        -- Two tokens do not tell the same position.
        have hposition : i ≠ j := by
          rintro rfl
          exact h (readIndex?_inj hj hread)
        rw [List.getElem?_set_ne hposition]
  | _ => rfl

theorem resolveTokens_putAt_below (new : Json) (place rest : List String) (value : Json) :
    resolveTokens place (putAt new (place ++ rest) value) =
      (resolveTokens place value).map (putAt new rest) := by
  induction place generalizing value with
  | nil => rfl
  | cons token place ih =>
    rw [List.cons_append, resolveTokens, child?_putAt, resolveTokens]
    cases child? token value with
    | none => rfl
    | some child => exact ih child

theorem resolveTokens_putAt_beside {written : List String} (new : Json) (hbelow : ¬ written <+: place)
    (habove : ¬ place <+: written) (value : Json) :
    resolveTokens place (putAt new written value) = resolveTokens place value := by
  induction written generalizing place value with
  | nil => exact absurd List.nil_prefix hbelow
  | cons token written ih =>
    cases place with
    | nil => exact absurd List.nil_prefix habove
    | cons first place =>
      rw [resolveTokens, resolveTokens]
      by_cases hfirst : first = token
      · subst hfirst
        rw [List.cons_prefix_cons, not_and] at hbelow habove
        rw [child?_putAt]
        cases child? first value with
        | none => rfl
        | some child => exact ih (hbelow rfl) (habove rfl) child
      · rw [child?_putAt_other hfirst]

theorem putAt_cons_cases (new : Json) (token : String) (rest : List String) (value : Json) :
    child? token value = none ∧ putAt new (token :: rest) value = value ∨
      ∃ key child, child? token value = some child ∧ under? key value = some child ∧
        putAt new (token :: rest) value = putUnder (putAt new rest child) key value := by
  cases value with
  | obj members =>
    cases hget : Table.get? token members with
    | none => exact .inl ⟨hget, by simp only [putAt, hget]⟩
    | some child => exact .inr ⟨.member token, child, hget, hget, by simp only [putAt, hget, putUnder]⟩
  | arr items =>
    cases hread : readIndex? token with
    | none => exact .inl ⟨by rw [child?, hread, Option.bind_none], by simp only [putAt, hread]⟩
    | some i =>
      have hchild : child? token (.arr items) = items[i]? := by
        rw [child?, hread, Option.bind_some]
      cases hitem : items[i]? with
      | none => exact .inl ⟨hchild.trans hitem, by simp only [putAt, hread, hitem]⟩
      | some child =>
        exact .inr ⟨.item i, child, hchild.trans hitem, hitem, by
          simp only [putAt, hread, hitem, putUnder]⟩
  | _ => exact .inl ⟨rfl, rfl⟩

theorem putAt_of_missing (hordered : value.Ordered) (h : resolveTokens tokens value = none) :
    putAt new tokens value = value := by
  induction tokens generalizing value with
  | nil => cases h
  | cons token rest ih =>
    rcases putAt_cons_cases new token rest value with ⟨-, hsame⟩ | ⟨key, child, hchild, hunder, hput⟩
    · exact hsame
    · rw [resolveTokens, hchild, Option.bind_some] at h
      rw [hput, ih (hordered.under? hunder) h, putUnder_self hordered hunder]

theorem ordered_putAt (hnew : new.Ordered) (hordered : value.Ordered) (tokens : List String) :
    (putAt new tokens value).Ordered := by
  induction tokens generalizing value with
  | nil => exact hnew
  | cons token rest ih =>
    rcases putAt_cons_cases new token rest value with ⟨-, hsame⟩ | ⟨key, child, -, hunder, hput⟩
    · rw [hsame]
      exact hordered
    · rw [hput]
      exact ordered_putUnder (ih (hordered.under? hunder)) hordered key

theorem sizeOf_lt_of_child? (h : child? token value = some held) : sizeOf held < sizeOf value := by
  cases value <;> try cases h
  · rename_i items
    obtain ⟨i, -, hitem⟩ := Option.bind_eq_some_iff.1 h
    have hlt := List.sizeOf_lt_of_mem (List.mem_of_getElem? hitem)
    simp only [Json.arr.sizeOf_spec]
    omega
  · rename_i members
    have hlt := List.sizeOf_lt_of_mem (Table.mem_of_get? h)
    simp only [Prod.mk.sizeOf_spec] at hlt
    simp only [Json.obj.sizeOf_spec]
    omega

theorem sizeOf_le_of_resolveTokens (h : resolveTokens tokens value = some held) :
    sizeOf held ≤ sizeOf value := by
  induction tokens generalizing value with
  | nil => exact Option.some.inj h ▸ Nat.le_refl _
  | cons token rest ih =>
    obtain ⟨child, hchild, hrest⟩ := Option.bind_eq_some_iff.1 h
    exact (ih hrest).trans (Nat.le_of_lt (sizeOf_lt_of_child? hchild))

def Within (new value : Json) : Prop := ∃ rest, rest ≠ [] ∧ resolveTokens rest value = some new

theorem Within.ne (h : Within new value) : value ≠ new := by
  obtain ⟨rest, hrest, hnew⟩ := h
  rintro rfl
  cases rest with
  | nil => exact hrest rfl
  | cons token rest =>
    obtain ⟨child, hchild, hinner⟩ := Option.bind_eq_some_iff.1 hnew
    have hle := sizeOf_le_of_resolveTokens hinner
    have hlt := sizeOf_lt_of_child? hchild
    omega

theorem within_putAt (hrest : rest ≠ []) (h : resolveTokens rest value = some held) :
    Within new (putAt new rest value) := by
  have hput := resolveTokens_putAt_below new rest [] value
  rw [List.append_nil, h] at hput
  exact ⟨rest, hrest, hput⟩

/-- The value with `new` at each of the places, one after the other. -/
def putAll (new : Json) (places : List JsonPath.Location) (value : Json) : Json :=
  places.foldl (fun value place => putAt new place value) value

theorem putAll_cons (new : Json) (first : JsonPath.Location) (places : List JsonPath.Location)
    (value : Json) :
    putAll new (first :: places) value = putAll new places (putAt new first value) := rfl

/-- None of the other places leads to it or to something around it. -/
def Outermost (places : List JsonPath.Location) (place : JsonPath.Location) : Prop :=
  ∀ other ∈ places, other <+: place → other = place

theorem ordered_putAll (hnew : new.Ordered) (hordered : value.Ordered)
    (places : List JsonPath.Location) :
    (putAll new places value).Ordered := by
  induction places generalizing value with
  | nil => exact hordered
  | cons first places ih =>
    rw [putAll_cons]
    exact ih (ordered_putAt hnew hordered first)

theorem resolveTokens_putAll_beside
    (h : ∀ other ∈ places, ¬ other <+: place ∧ ¬ place <+: other) (value : Json) :
    resolveTokens place (putAll new places value) = resolveTokens place value := by
  induction places generalizing value with
  | nil => rfl
  | cons first places ih =>
    rw [List.forall_mem_cons] at h
    rw [putAll_cons, ih h.2, resolveTokens_putAt_beside new h.1.1 h.1.2]

theorem isSome_putAll (houter : Outermost places place) (h : (resolveTokens place value).isSome) :
    (resolveTokens place (putAll new places value)).isSome := by
  induction places generalizing value with
  | nil => exact h
  | cons first places ih =>
    obtain ⟨hfirst, hrest⟩ := List.forall_mem_cons.1 houter
    rw [putAll_cons]
    refine ih hrest ?_
    by_cases hbelow : place <+: first
    · obtain ⟨rest, rfl⟩ := hbelow
      rw [resolveTokens_putAt_below, Option.isSome_map]
      exact h
    · have habove : ¬ first <+: place := fun habove => hbelow (hfirst habove ▸ List.prefix_refl _)
      rw [resolveTokens_putAt_beside new habove hbelow]
      exact h

/-- When only places below are written to, the new value stays as it is as long as none of them leads
on in it; after that the place holds another value. -/
theorem resolveTokens_putAll_below (hnew : new.Ordered) (hordered : value.Ordered)
    (hbelow : ∀ other ∈ places, ¬ other <+: place)
    (hheld : resolveTokens place value = some held) (hnow : held = new ∨ Within new held) :
    ∃ last, resolveTokens place (putAll new places value) = some last ∧
      (last = new ↔ held = new ∧ ∀ rest, place ++ rest ∈ places → resolveTokens rest new = none) := by
  induction places generalizing value held with
  | nil => exact ⟨held, hheld, by simp⟩
  | cons first places ih =>
    obtain ⟨hfirst, hplaces⟩ := List.forall_mem_cons.1 hbelow
    have hordered' := ordered_putAt hnew hordered first
    rw [putAll_cons]
    by_cases hinner : place <+: first
    · obtain ⟨rest, rfl⟩ := hinner
      have hput := resolveTokens_putAt_below new place rest value
      rw [hheld, Option.map_some] at hput
      cases hrest : resolveTokens rest held with
      | none =>
        -- The place is not there, so nothing is written.
        rw [putAt_of_missing (hordered.resolveTokens hheld) hrest] at hput
        obtain ⟨last, hlast, hiff⟩ := ih hordered' hplaces hput hnow
        refine ⟨last, hlast, hiff.trans (and_congr_right fun hsame => ?_)⟩
        subst hsame
        simp [hrest]
      | some inner =>
        have hne : rest ≠ [] := by
          rintro rfl
          exact hfirst (by rw [List.append_nil])
        have hwithin : Within new (putAt new rest held) := within_putAt hne hrest
        obtain ⟨last, hlast, hiff⟩ := ih hordered' hplaces hput (.inr hwithin)
        refine ⟨last, hlast, hiff.trans (iff_of_false (fun h => hwithin.ne h.1) ?_)⟩
        rintro ⟨rfl, hnone⟩
        rw [hnone rest List.mem_cons_self] at hrest
        cases hrest
    · have hput := resolveTokens_putAt_beside new hfirst hinner value
      rw [hheld] at hput
      obtain ⟨last, hlast, hiff⟩ := ih hordered' hplaces hput hnow
      refine ⟨last, hlast, hiff.trans (and_congr_right fun _ => forall_congr' fun rest => ?_)⟩
      have hother : place ++ rest ≠ first := fun h => hinner ⟨rest, h⟩
      rw [List.mem_cons, or_iff_right hother]

theorem selected_stand (hordered : document.Ordered) (target : String) :
    ∀ place ∈ selected target document, (resolveTokens place document).isSome := by
  intro place hplace
  rw [selected] at hplace
  split at hplace
  · rename_i query _
    obtain ⟨node, hnode, rfl⟩ := List.mem_map.1 hplace
    rw [query.nodes_stand hordered node hnode]
    rfl
  · cases hplace

theorem ordered_structured (hordered : payload.Ordered) (h : structured target payload = .ok document) :
    document.Ordered := by
  unfold structured at h
  split at h
  · split at h
    · rename_i hparse
      cases h
      exact ordered_of_parse? hparse
    · rename_i hparse
      cases h
      exact ordered_of_parse? hparse
    · cases h
  · cases h
    exact hordered

theorem replace_eq_putAll (htarget : (Text.trim target).toList.head? = some '$')
    (hdocument : structured (Text.trim target) payload = .ok document)
    (hselected : selected (Text.trim target) document ≠ []) :
    replace target new payload = .ok (putAll new (selected (Text.trim target) document) document) := by
  unfold replace
  dsimp only
  rw [if_pos htarget, hdocument]
  dsimp only
  unfold replaceJsonPath
  split
  · rename_i hnone
    exact absurd hnone hselected
  · rfl

/--
A replacement whose target is a query that selects something succeeds. It changes nothing beside the
places that are selected. An outermost one of them holds the new value exactly when no place inside it
that is selected after it leads to something in the new value.
-/
theorem replace_selected (hordered : payload.Ordered) (hnew : new.Ordered)
    (htarget : (Text.trim target).toList.head? = some '$')
    (hdocument : structured (Text.trim target) payload = .ok document)
    (hselected : selected (Text.trim target) document ≠ []) :
    ∃ result, replace target new payload = .ok result ∧
      (∀ place, (∀ other ∈ selected (Text.trim target) document,
          ¬ other <+: place ∧ ¬ place <+: other) →
        resolveTokens place result = resolveTokens place document) ∧
      ∀ before place after, selected (Text.trim target) document = before ++ place :: after →
        place ∉ after → Outermost (selected (Text.trim target) document) place →
        ∃ held, resolveTokens place result = some held ∧
          (held = new ↔ ∀ rest, place ++ rest ∈ after → resolveTokens rest new = none) := by
  have hordered' : document.Ordered := ordered_structured hordered hdocument
  refine ⟨_, replace_eq_putAll htarget hdocument hselected,
    fun place hbeside => resolveTokens_putAll_beside hbeside document, ?_⟩
  intro before place after hsplit hlast houter
  have hstands : (resolveTokens place document).isSome :=
    selected_stand hordered' _ place (by rw [hsplit]; simp)
  rw [hsplit] at houter ⊢
  have hbefore : (resolveTokens place (putAll new before document)).isSome :=
    isSome_putAll (fun other hother => houter other (List.mem_append_left _ hother)) hstands
  obtain ⟨old, hold⟩ := Option.isSome_iff_exists.1 hbefore
  have hput := resolveTokens_putAt_below new place [] (putAll new before document)
  rw [List.append_nil, hold, Option.map_some] at hput
  have hbelow : ∀ other ∈ after, ¬ other <+: place := by
    intro other hother hprefix
    exact hlast (houter other (by simp [hother]) hprefix ▸ hother)
  have hordered'' := ordered_putAt hnew (ordered_putAll hnew hordered' before) place
  obtain ⟨held, hheld, hiff⟩ := resolveTokens_putAll_below hnew hordered'' hbelow hput (.inl rfl)
  refine ⟨held, ?_, hiff.trans (and_iff_right rfl)⟩
  rw [putAll, List.foldl_append]
  exact hheld

def nested : Json := .obj [("a", .obj [("a", .ofNat 1)])]

theorem nested_ordered : nested.Ordered := by
  have inner : Ordered (.obj [("a", .ofNat 1)]) := .obj (by decide) (by simpa using .num _)
  exact .obj (by decide) (by simpa using inner)

theorem selected_nested : selected "$..a" nested = [["a"], ["a", "a"]] := by decide +kernel

theorem outermost_nested : Outermost [["a"], ["a", "a"]] ["a"] := by
  rw [Outermost, List.forall_mem_cons, List.forall_mem_singleton]
  exact ⟨fun _ => rfl, by decide⟩

theorem replace_selected_nested :
    selected "$..a" nested = [["a"], ["a", "a"]] ∧
      ∃ result, replace "$..a" (.ofNat 0) nested = .ok result ∧
        resolveTokens ["a"] result = some (.ofNat 0) := by
  have hselected : selected (Text.trim "$..a") nested = [["a"], ["a", "a"]] := by decide +kernel
  have htarget : (Text.trim "$..a").toList.head? = some '$' := by decide
  obtain ⟨result, hresult, -, hheld⟩ := replace_selected nested_ordered (Ordered.num (.int 0)) htarget
    rfl (by rw [hselected]; exact List.cons_ne_nil _ _)
  obtain ⟨held, hread, hiff⟩ := hheld [] ["a"] [["a", "a"]] hselected (by decide)
    (by rw [hselected]; exact outermost_nested)
  have hnew : held = .ofNat 0 := by
    refine hiff.2 fun rest hrest => ?_
    obtain ⟨rfl⟩ : rest = ["a"] := by simpa using hrest
    rfl
  exact ⟨selected_nested, result, hresult, hnew ▸ hread⟩

/-- A member of the new value is written to when a selected place leads there. -/
theorem replace_nested_inside :
    Outermost (selected "$..a" nested) ["a"] ∧
      ∃ result, replace "$..a" (.obj [("a", .ofNat 2)]) nested = .ok result ∧
        resolveTokens ["a"] result = some (.obj [("a", .obj [("a", .ofNat 2)])]) ∧
        resolveTokens ["a"] result ≠ some (.obj [("a", .ofNat 2)]) := by
  have hread : resolveTokens ["a"] (.obj [("a", .obj [("a", .obj [("a", .ofNat 2)])])]) =
      some (.obj [("a", .obj [("a", .ofNat 2)])]) := rfl
  refine ⟨by rw [selected_nested]; exact outermost_nested,
    .obj [("a", .obj [("a", .obj [("a", .ofNat 2)])])], rfl, hread, ?_⟩
  rw [hread]
  simp [Json.ofNat]

end Arazzo.Payload
