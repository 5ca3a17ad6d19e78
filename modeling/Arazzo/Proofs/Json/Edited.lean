import Arazzo.Proofs.Json.Ordered
import Arazzo.Proofs.Pointer.Assign

/-! Values in which another part stands at a location: the part is found there, and with the part that
stood there before the value is the same. -/

namespace Arazzo.Json

variable {child part value found : Json} {key : Key} {place rest : List Key}

def putUnder (child : Json) : Key → Json → Json
  | .member name, .obj members => .obj (Table.insert name child members)
  | .item i, .arr items => .arr (items.set i child)
  | _, value => value

def withPart (part : Json) : List Key → Json → Json
  | [], _ => part
  | key :: rest, value =>
    match under? key value with
    | some child => putUnder (withPart part rest child) key value
    | none => value

theorem under?_putUnder (h : under? key value = some found) :
    under? key (putUnder child key value) = some child := by
  cases key <;> cases value <;> try cases h
  · rw [putUnder, under?, Table.get?_insert, if_pos rfl]
  · rw [putUnder, under?, List.getElem?_set_self (List.getElem?_eq_some_iff.1 h).1]

theorem putUnder_putUnder (other : Json) :
    putUnder child key (putUnder other key value) = putUnder child key value := by
  cases key <;> cases value <;> try rfl
  · rw [putUnder, putUnder, Table.insert_insert, putUnder]
  · rw [putUnder, putUnder, List.set_set, putUnder]

theorem putUnder_member_self {name : String} {members : Table Json} (h : Table.Ascending members)
    (hget : Table.get? name members = some child) :
    putUnder child (.member name) (.obj members) = .obj members := by
  obtain ⟨first, last, hmembers, hinsert⟩ := h.insert_present hget
  rw [putUnder, hinsert, ← hmembers]

theorem putUnder_item_self {i : Nat} {items : List Json} (hitem : items[i]? = some child) :
    putUnder child (.item i) (.arr items) = .arr items := by
  obtain ⟨_, rfl⟩ := List.getElem?_eq_some_iff.1 hitem
  rw [putUnder, List.set_getElem_self]

theorem putUnder_self (hordered : value.Ordered) (h : under? key value = some child) :
    putUnder child key value = value := by
  cases key <;> cases value <;> try cases h
  · exact putUnder_member_self hordered.ascending h
  · exact putUnder_item_self h

theorem ordered_putUnder (hchild : child.Ordered) (h : value.Ordered) (key : Key) :
    (putUnder child key value).Ordered := by
  cases key <;> cases value <;> try exact h
  · rename_i name members
    refine .obj (h.ascending.insert name child) fun member hmember => ?_
    rcases Table.mem_insert hmember with rfl | hold
    · exact hchild
    · exact h.members member hold
  · refine .arr fun item hitem => ?_
    rcases List.mem_or_eq_of_mem_set hitem with hold | rfl
    · exact h.items item hold
    · exact hchild

theorem withPart_cons (h : under? key value = some child) :
    withPart part (key :: rest) value = putUnder (withPart part rest child) key value := by
  rw [withPart, h]

theorem at?_withPart (h : at? place value = some found) :
    at? place (withPart part place value) = some part := by
  induction place generalizing value with
  | nil => rfl
  | cons key place ih =>
    obtain ⟨child, hchild, hrest⟩ := Option.bind_eq_some_iff.1 h
    rw [withPart_cons hchild, at?_cons, under?_putUnder hchild, Option.bind_some, ih hrest]

theorem Ordered.under? (h : value.Ordered) (hchild : Json.under? key value = some child) :
    child.Ordered := by
  cases key <;> cases value <;> try cases hchild
  · exact h.get? hchild
  · exact h.items _ (List.mem_of_getElem? hchild)

theorem Addressable.under? (h : value.Addressable) (hchild : Json.under? key value = some child) :
    child.Addressable := by
  cases key <;> cases value <;> try cases hchild
  · exact h.get? hchild
  · exact h.items _ (List.mem_of_getElem? hchild)

theorem Ordered.at? (h : value.Ordered) (hfound : Json.at? place value = some found) :
    found.Ordered := by
  induction place generalizing value with
  | nil => exact Option.some.inj hfound ▸ h
  | cons key place ih =>
    obtain ⟨child, hchild, hrest⟩ := Option.bind_eq_some_iff.1 hfound
    exact ih (h.under? hchild) hrest

theorem withPart_self (hordered : value.Ordered) (h : at? place value = some part) :
    withPart part place value = value := by
  induction place generalizing value with
  | nil => exact (Option.some.inj h).symm
  | cons key place ih =>
    obtain ⟨child, hchild, hrest⟩ := Option.bind_eq_some_iff.1 h
    rw [withPart_cons hchild, ih (hordered.under? hchild) hrest, putUnder_self hordered hchild]

theorem at?_append (place rest : List Key) (value : Json) :
    at? (place ++ rest) value = (at? place value).bind (at? rest) := by
  induction place generalizing value with
  | nil => rfl
  | cons key place ih =>
    rw [List.cons_append, at?_cons, at?_cons, Option.bind_assoc]
    exact Option.bind_congr fun child _ => ih child

end Arazzo.Json
