import Arazzo.Proofs.Json.Edited
import Arazzo.Proofs.Pointer.Positions

/-! Reading where a pointer has written: the new value is found there, unless a position of an array was
told in a way that only the writer takes. Writing what is read changes nothing. -/

namespace Arazzo.Pointer

open Json

variable {token : String} {tokens rest : List String} {key : Key} {keys : List Key}
  {new value held child before after : Json}

inductive Way (token : String) : Key → Json → Prop
  | member (members : Table Json) : Way token (.member token) (.obj members)
  | item {i : Nat} {items : List Json} (hdash : token ≠ "-")
      (hindex : writeIndex? token items.length = some i) : Way token (.item i) (.arr items)
  | atEnd (items : List Json) (hdash : token = "-") : Way token (.item items.length) (.arr items)

theorem way_of_slotOf (h : slotOf (token :: rest) value = key :: keys) :
    Way token key (openedFor (token :: rest) value) := by
  rw [slotOf] at h
  split at h
  · rename_i members hopened
    obtain ⟨rfl, -⟩ := List.cons.inj h
    rw [hopened]
    exact .member members
  · rename_i items hopened
    rw [hopened]
    split at h
    · rename_i hdash
      obtain ⟨rfl, -⟩ := List.cons.inj h
      exact .atEnd items hdash
    · rename_i hdash
      split at h
      · cases h
      · rename_i i hindex
        obtain ⟨rfl, -⟩ := List.cons.inj h
        exact .item hdash hindex
  · cases h

def positionsOf : List String → List Key → List String
  | token :: tokens, .item _ :: keys => token :: positionsOf tokens keys
  | _ :: tokens, .member _ :: keys => positionsOf tokens keys
  | _, _ => []

/-- The tokens of a pointer that tell positions of arrays when it writes to the value. -/
def positions (pointer : Pointer) (value : Json) : List String :=
  positionsOf pointer.tokens (pointer.slot value)

theorem child?_of_bare (hway : Way token key before) (hputs : Puts child key before after)
    (hbare : ∀ i, key = .item i → token ≠ "-" ∧ Bare token) : child? token after = some child := by
  have hunder := hputs.under?_same
  cases hway with
  | member members =>
    cases hputs
    exact hunder
  | item _ hindex =>
    have hread := readIndex?_of_writeIndex? hindex (hbare _ rfl).2
    cases hputs
    all_goals
      rw [child?, hread]
      exact hunder
  | atEnd items hdash => exact absurd hdash (hbare _ rfl).1

theorem child?_of_not_bare {i : Nat} (hputs : Puts child (.item i) before after)
    (hbare : ¬ Bare token) : child? token after = none := by
  cases hputs <;> rw [child?, readIndex?_of_not_bare hbare, Option.bind_none]

theorem resolveTokens_assignTokens (h : (assignTokens new tokens value).1 = .ok ())
    (hdash : "-" ∉ positionsOf tokens (slotOf tokens value)) :
    resolveTokens tokens (assignTokens new tokens value).2 = some new ↔
      ∀ token ∈ positionsOf tokens (slotOf tokens value), Bare token := by
  induction tokens generalizing value with
  | nil => simp [assignTokens, resolveTokens, positionsOf]
  | cons token rest ih =>
    cases turn new token rest value with
    | blocked error hblocked =>
      rw [hblocked] at h
      cases h
    | onward key held hheld hslot houtcome hputs =>
      have hway := way_of_slotOf hslot
      rw [houtcome] at h
      rw [hslot] at hdash ⊢
      rw [resolveTokens]
      cases key with
      | member name =>
        rw [child?_of_bare hway hputs (fun _ hkey => by cases hkey), Option.bind_some]
        exact ih h hdash
      | item i =>
        rw [positionsOf, List.mem_cons, not_or] at hdash
        rw [positionsOf, List.forall_mem_cons]
        by_cases hbare : Bare token
        · rw [child?_of_bare hway hputs (fun _ _ => ⟨Ne.symm hdash.1, hbare⟩), Option.bind_some,
            ih h hdash.2]
          exact ⟨fun hrest => ⟨hbare, hrest⟩, fun hall => hall.2⟩
        · rw [child?_of_not_bare hputs hbare, Option.bind_none]
          exact iff_of_false (fun hnone => by cases hnone) fun hall => hbare hall.1

/-- The container holds `child` under the key that the token tells. -/
inductive Reaches (token : String) (child : Json) : Key → Json → Prop
  | member {members : Table Json} (hget : Table.get? token members = some child) :
      Reaches token child (.member token) (.obj members)
  | item {i : Nat} {items : List Json} (hdash : token ≠ "-")
      (hindex : writeIndex? token items.length = some i) (hitem : items[i]? = some child) :
      Reaches token child (.item i) (.arr items)

theorem Way.reaches (h : Way token key value) (hheld : under? key value = some child) :
    Reaches token child key value := by
  cases h with
  | member members => exact .member hheld
  | item hdash hindex => exact .item hdash hindex hheld
  | atEnd items hdash =>
    rw [under?, List.getElem?_eq_none (Nat.le_refl _)] at hheld
    cases hheld

namespace Reaches

theorem under?_eq (h : Reaches token child key value) : under? key value = some child := by
  cases h with
  | member hget => exact hget
  | item hdash hindex hitem => exact hitem

theorem slotOf_cons (h : Reaches token child key value) (rest : List String) :
    slotOf (token :: rest) value = key :: slotOf rest child := by
  cases h with
  | member hget =>
    rw [slotOf]
    simp only [openedFor, hget, Option.getD_some]
  | item hdash hindex hitem =>
    rw [slotOf]
    simp only [openedFor, if_neg hdash, hindex, hitem, Option.getD_some]

theorem assignTokens_cons (h : Reaches token child key value) (rest : List String) :
    assignTokens new (token :: rest) value =
      (assignTokens new rest child).map id fun part => putUnder part key value := by
  cases h with
  | member hget =>
    rw [assignTokens]
    simp only [openedFor, hget, Option.getD_some, putUnder]
  | item hdash hindex hitem =>
    rw [assignTokens]
    simp only [openedFor, if_neg hdash, hindex, hitem, Option.getD_some, putUnder]

theorem putUnder (h : Reaches token child key value) (part : Json) :
    Reaches token part key (part.putUnder key value) := by
  have hpart : under? key (part.putUnder key value) = some part := under?_putUnder h.under?_eq
  cases h with
  | member hget => exact .member hpart
  | item hdash hindex hitem => exact .item hdash (by rw [List.length_set, hindex]) hpart

end Reaches

theorem exists_reaches_of_child? (hfits : value.Addressable) (h : child? token value = some child) :
    ∃ key, Reaches token child key value := by
  cases value <;> try cases h
  · rename_i items
    obtain ⟨i, hread, hitem⟩ := Option.bind_eq_some_iff.1 h
    have hdash : token ≠ "-" := by
      rintro rfl
      rw [readIndex?_dash] at hread
      cases hread
    have hpresent : i < items.length := (List.getElem?_eq_some_iff.1 hitem).1
    exact ⟨_, .item hdash (writeIndex?_of_readIndex? hread hpresent hfits.length_le) hitem⟩
  · exact ⟨_, .member h⟩

/-- What is put back where it was found leaves the value as it is. -/
theorem assignTokens_self (hordered : value.Ordered) (hfits : value.Addressable)
    (h : resolveTokens tokens value = some held) :
    assignTokens held tokens value = (.ok (), value) := by
  induction tokens generalizing value with
  | nil =>
    obtain rfl := Option.some.inj h
    rfl
  | cons token rest ih =>
    obtain ⟨child, hchild, hrest⟩ := Option.bind_eq_some_iff.1 h
    obtain ⟨key, hreaches⟩ := exists_reaches_of_child? hfits hchild
    have hunder := hreaches.under?_eq
    rw [hreaches.assignTokens_cons, ih (hordered.under? hunder) (hfits.under? hunder) hrest]
    exact Prod.ext rfl (putUnder_self hordered hunder)

/--
After a successful assignment that uses no `-` on an array, a pointer reads the new value back exactly
when it tells every position of an array without a sign and without padding. Assigning what a pointer
reads changes nothing.
-/
theorem resolve?_assign (pointer : Pointer) (new value : Json) :
    ((pointer.assign new value).1 = .ok () → "-" ∉ pointer.positions value →
      (pointer.resolve? (pointer.assign new value).2 = some new ↔
        ∀ token ∈ pointer.positions value, Bare token)) ∧
    (value.Ordered → value.Addressable → ∀ held, pointer.resolve? value = some held →
      pointer.assign held value = (.ok (), value)) :=
  ⟨fun h hdash => resolveTokens_assignTokens h hdash,
    fun hordered hfits _ h => assignTokens_self hordered hfits h⟩

theorem basket_addressable : basket.Addressable := by
  have items : Addressable (.arr [.null, .str "pen"]) :=
    .arr (by decide) (by simpa using ⟨.null, .str "pen"⟩)
  exact .obj (by simpa using ⟨items, .str "ann"⟩)

theorem resolve?_assign_basket :
    ((assign ⟨"/items/0/tags"⟩ (.str "red") basket).1 = .ok () ∧
      positions ⟨"/items/0/tags"⟩ basket = ["0"] ∧
      resolve? ⟨"/items/0/tags"⟩ (assign ⟨"/items/0/tags"⟩ (.str "red") basket).2 =
        some (.str "red")) ∧
    resolve? ⟨"/items/1"⟩ basket = some (.str "pen") ∧
      assign ⟨"/items/1"⟩ (.str "pen") basket = (.ok (), basket) := by
  have hok : (assign ⟨"/items/0/tags"⟩ (.str "red") basket).1 = .ok () := by decide +kernel
  have hpositions : positions ⟨"/items/0/tags"⟩ basket = ["0"] := by decide +kernel
  have hread : resolve? ⟨"/items/1"⟩ basket = some (.str "pen") := rfl
  refine ⟨⟨hok, hpositions, ((resolve?_assign _ _ _).1 hok ?_).2 ?_⟩, hread, ?_⟩
  · rw [hpositions]
    decide
  · rw [hpositions]
    intro token htoken
    obtain rfl := List.mem_singleton.1 htoken
    exact ⟨by simp, by simp⟩
  · exact (resolve?_assign ⟨"/items/1"⟩ .null basket).2 basket_sound.ordered basket_addressable _ hread

/-- A padded position is written to, but not read. -/
theorem assign_padded_lost :
    (assign ⟨"/01"⟩ (.ofNat 9) (.arr [.null, .null])).1 = .ok () ∧
      "-" ∉ positions ⟨"/01"⟩ (.arr [.null, .null]) ∧
      resolve? ⟨"/01"⟩ (assign ⟨"/01"⟩ (.ofNat 9) (.arr [.null, .null])).2 = none := by
  exact ⟨by decide +kernel, by decide +kernel, by decide +kernel⟩

end Arazzo.Pointer
