import Arazzo.JsonPath.Basic
import Arazzo.Proofs.Json.Ordered
import Arazzo.Proofs.Pointer.Positions

/-! Where the nodes stand that a query selects: at the location that is told of each, the document holds
its value. -/

namespace Arazzo

namespace Json

variable {value found : Json} {tokens : List String}

theorem Ordered.child? (h : value.Ordered) {token : String}
    (hchild : Pointer.child? token value = some found) : found.Ordered := by
  cases value <;> try cases hchild
  · obtain ⟨i, -, hitem⟩ := Option.bind_eq_some_iff.1 hchild
    exact h.items _ (List.mem_of_getElem? hitem)
  · exact h.get? hchild

theorem Ordered.resolveTokens (h : value.Ordered)
    (hfound : Pointer.resolveTokens tokens value = some found) : found.Ordered := by
  induction tokens generalizing value with
  | nil => exact Option.some.inj hfound ▸ h
  | cons token tokens ih =>
    obtain ⟨child, hchild, hrest⟩ := Option.bind_eq_some_iff.1 hfound
    exact ih (h.child? hchild) hrest

end Json

namespace JsonPath

open Pointer

variable {document value : Json} {location : Location} {root node : Node}

def Node.Stands (document : Json) (node : Node) : Prop :=
  resolveTokens node.location document = some node.value

namespace Node

theorem stands_onward {token : String} (h : resolveTokens location document = some value)
    {child : Json} (hchild : child? token value = some child) :
    Stands document ⟨location ++ [token], child⟩ := by
  have hlast : resolveTokens [token] value = some child := by
    rw [resolveTokens, hchild]
    rfl
  rw [Stands, resolveTokens_append, h, Option.bind_some, hlast]

theorem stands_item {items : List Json} (h : resolveTokens location document = some (.arr items))
    {i : Nat} {item : Json} (hitem : items[i]? = some item) :
    Stands document ⟨location ++ [toString i], item⟩ :=
  stands_onward h ((child?_position i items).trans hitem)

theorem stands_entry {members : Table Json} (hordered : document.Ordered)
    (h : resolveTokens location document = some (.obj members)) {key : String}
    (hmember : (key, value) ∈ members) : Stands document ⟨location ++ [key], value⟩ :=
  stands_onward h ((hordered.resolveTokens h).ascending.get?_of_mem hmember)

theorem children_stand (hordered : document.Ordered) (h : node.Stands document) :
    ∀ child ∈ node.children, child.Stands document := by
  intro child hchild
  rw [Stands] at h
  rw [children] at hchild
  split at hchild
  · rename_i items hvalue
    rw [hvalue] at h
    obtain ⟨i, hi, rfl⟩ := List.mem_mapIdx.1 hchild
    exact stands_item h (List.getElem?_eq_getElem hi)
  · rename_i members hvalue
    rw [hvalue] at h
    obtain ⟨⟨key, value⟩, hmember, rfl⟩ := List.mem_map.1 hchild
    exact stands_entry hordered h hmember
  · cases hchild

mutual

theorem below_stand (hordered : document.Ordered) :
    ∀ (value : Json) (location : Location), resolveTokens location document = some value →
      ∀ node ∈ below location value, node.Stands document
  | .arr items, location, h => by
    rw [below]
    exact belowItems_stand hordered items [] location h
  | .obj members, location, h => by
    rw [below]
    exact belowMembers_stand hordered members [] location h
  | .null, location, h => by simp [below]
  | .bool b, location, h => by simp [below]
  | .num n, location, h => by simp [below]
  | .str s, location, h => by simp [below]

theorem belowItems_stand (hordered : document.Ordered) :
    ∀ (rest first : List Json) (location : Location),
      resolveTokens location document = some (.arr (first ++ rest)) →
      ∀ node ∈ belowItems location first.length rest, node.Stands document
  | [], first, location, h => by simp [belowItems]
  | item :: rest, first, location, h => by
    have hitem : Stands document ⟨location ++ [toString first.length], item⟩ :=
      stands_item h (by simp)
    have hrest := belowItems_stand hordered rest (first ++ [item]) location (by simpa using h)
    rw [List.length_append, List.length_singleton] at hrest
    rw [belowItems]
    rw [List.cons_append, List.forall_mem_cons, List.forall_mem_append]
    exact ⟨hitem, below_stand hordered item _ hitem, hrest⟩

theorem belowMembers_stand (hordered : document.Ordered) :
    ∀ (rest first : List (String × Json)) (location : Location),
      resolveTokens location document = some (.obj (first ++ rest)) →
      ∀ node ∈ belowMembers location rest, node.Stands document
  | [], first, location, h => by simp [belowMembers]
  | (key, value) :: rest, first, location, h => by
    have hmember : Stands document ⟨location ++ [key], value⟩ :=
      stands_entry hordered h (by simp)
    have hrest := belowMembers_stand hordered rest (first ++ [(key, value)]) location
      (by simpa using h)
    rw [belowMembers]
    rw [List.cons_append, List.forall_mem_cons, List.forall_mem_append]
    exact ⟨hmember, below_stand hordered value _ hmember, hrest⟩

end

theorem descendants_stand (hordered : document.Ordered) (h : node.Stands document) :
    ∀ inner ∈ descendantsOf node.location node.value, inner.Stands document := by
  rw [descendantsOf, List.forall_mem_cons]
  exact ⟨h, below_stand hordered _ _ h⟩

theorem member_stands (h : node.Stands document) (key : String) :
    ∀ child ∈ node.member key, child.Stands document := by
  intro child hchild
  rw [Stands] at h
  rw [member] at hchild
  split at hchild
  · rename_i members hvalue
    rw [hvalue] at h
    obtain ⟨value, hget, rfl⟩ := Option.map_eq_some_iff.1 (Option.mem_toList.1 hchild)
    exact stands_onward h hget
  · cases hchild

theorem itemAt_stands (h : node.Stands document) (i : Int) :
    ∀ child ∈ node.itemAt i, child.Stands document := by
  intro child hchild
  rw [Stands] at h
  rw [itemAt] at hchild
  split at hchild
  · rename_i items hvalue
    rw [hvalue] at h
    dsimp only at hchild
    generalize (if i < 0 then i + items.length else i) = position at hchild
    split at hchild
    · cases hchild
    · obtain ⟨value, hitem, rfl⟩ := Option.map_eq_some_iff.1 (Option.mem_toList.1 hchild)
      exact stands_item h hitem
  · cases hchild

end Node

theorem Selector.select_stand (hordered : document.Ordered) (h : node.Stands document)
    (selector : Selector) : ∀ found ∈ selector.select root node, found.Stands document := by
  intro found hfound
  cases selector with
  | name key =>
    rw [Selector.select] at hfound
    exact Node.member_stands h key found hfound
  | wildcard =>
    rw [Selector.select] at hfound
    exact Node.children_stand hordered h found hfound
  | index i =>
    rw [Selector.select] at hfound
    exact Node.itemAt_stands h i found hfound
  | slice first last step =>
    rw [Selector.select] at hfound
    split at hfound
    · obtain ⟨i, -, hitem⟩ := List.mem_flatMap.1 hfound
      exact Node.itemAt_stands h i found hitem
    · cases hfound
  | filter test =>
    rw [Selector.select] at hfound
    exact Node.children_stand hordered h found (List.mem_filter.1 hfound).1

theorem selectAll_stand (hordered : document.Ordered) (h : node.Stands document)
    (selectors : List Selector) : ∀ found ∈ selectAll root node selectors, found.Stands document := by
  induction selectors with
  | nil => simp [selectAll]
  | cons selector rest ih =>
    rw [selectAll, List.forall_mem_append]
    exact ⟨selector.select_stand hordered h, ih⟩

theorem Segment.select_stand (hordered : document.Ordered) (segment : Segment) {nodes : List Node}
    (h : ∀ node ∈ nodes, node.Stands document) :
    ∀ found ∈ segment.select root nodes, found.Stands document := by
  obtain ⟨descend, selectors⟩ := segment
  rw [Segment.select]
  intro found hfound
  obtain ⟨start, hstart, hselected⟩ := List.mem_flatMap.1 hfound
  refine selectAll_stand hordered ?_ selectors found hselected
  cases descend with
  | true =>
    obtain ⟨node, hnode, hinner⟩ := List.mem_flatMap.1 hstart
    exact Node.descendants_stand hordered (h node hnode) start hinner
  | false => exact h start hstart

theorem selectSegments_stand (hordered : document.Ordered) (segments : List Segment)
    {nodes : List Node} (h : ∀ node ∈ nodes, node.Stands document) :
    ∀ found ∈ selectSegments root nodes segments, found.Stands document := by
  induction segments generalizing nodes with
  | nil =>
    rw [selectSegments]
    exact h
  | cons segment rest ih =>
    rw [selectSegments]
    exact ih (segment.select_stand hordered h)

/-- Every node that a query selects in a document stands in it. -/
theorem Query.nodes_stand (hordered : document.Ordered) (query : Query) :
    ∀ found ∈ query.nodes document, found.Stands document := by
  obtain ⟨atRoot, segments⟩ := query
  rw [Query.nodes, Query.select]
  refine selectSegments_stand hordered segments fun node hnode => ?_
  rw [ite_self, List.mem_singleton] at hnode
  rw [hnode]
  rfl

end JsonPath
end Arazzo
