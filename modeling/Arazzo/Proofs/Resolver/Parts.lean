import Arazzo.Proofs.Pointer.ReadBack
import Arazzo.Proofs.Resolver.Memory
import Arazzo.Proofs.Template
import Mathlib.Data.List.Forall2

/-! Resolving keeps the shape of arrays and objects: what a part becomes by itself is what stands in its
place when the whole is resolved. Without expressions nothing changes. -/

namespace Arazzo

namespace Resolver

open Json Pointer

variable {context : Option Context} {r r' : Resolver} {value value' part : Json}
  {items items' : List Json} {members members' : Table Json} {tokens : List String} {key : String}

/-- The value is resolved to another one. -/
def Becomes (context : Option Context) (r : Resolver) (value value' : Json) : Prop :=
  ((resolveValue context value).run r).1 = .ok value'

def MemberBecomes (context : Option Context) (r : Resolver) (member member' : String × Json) : Prop :=
  member.1 = member'.1 ∧ Becomes context r member.2 member'.2

theorem Becomes.of_alike (h : Becomes context r value value') (halike : Alike r r') :
    Becomes context r' value value' :=
  (blind_resolveValue context value r r' halike).1.symm.trans h

theorem Blind.alike_after {ε α : Type} {work : Resolving ε α} (h : Blind work)
    (truthful : r.Truthful) : Alike r (work.run r).2 :=
  (h r r truthful.alike).2.1

theorem becomes_items (truthful : r.Truthful)
    (h : ((resolveItems context items).run r).1 = .ok items') :
    List.Forall₂ (Becomes context r) items items' := by
  induction items generalizing r items' with
  | nil =>
    rw [resolveItems] at h
    cases h
    exact .nil
  | cons item rest ih =>
    rw [resolveItems] at h
    obtain ⟨first, hfirst, h⟩ := exists_of_run_bind_ok h
    obtain ⟨others, hothers, h⟩ := exists_of_run_bind_ok h
    cases h
    -- The others are resolved by a resolver that may remember more.
    have halike := (blind_resolveValue context item).alike_after truthful
    exact .cons hfirst ((ih halike.truthful' hothers).imp fun _ _ hitem => hitem.of_alike halike.symm)

theorem becomes_members (truthful : r.Truthful)
    (h : ((resolveMembers context members).run r).1 = .ok members') :
    List.Forall₂ (MemberBecomes context r) members members' := by
  induction members generalizing r members' with
  | nil =>
    rw [resolveMembers] at h
    cases h
    exact .nil
  | cons member rest ih =>
    obtain ⟨key, value⟩ := member
    rw [resolveMembers] at h
    obtain ⟨first, hfirst, h⟩ := exists_of_run_bind_ok h
    obtain ⟨others, hothers, h⟩ := exists_of_run_bind_ok h
    cases h
    have halike := (blind_resolveValue context value).alike_after truthful
    exact .cons ⟨rfl, hfirst⟩
      ((ih halike.truthful' hothers).imp fun _ _ hmember => ⟨hmember.1, hmember.2.of_alike halike.symm⟩)

theorem Becomes.arr (h : Becomes context r (.arr items) value') (truthful : r.Truthful) :
    ∃ items', value' = .arr items' ∧ List.Forall₂ (Becomes context r) items items' := by
  rw [Becomes, resolveValue] at h
  obtain ⟨items', hitems, h⟩ := exists_of_run_bind_ok h
  cases h
  exact ⟨items', rfl, becomes_items truthful hitems⟩

theorem Becomes.obj (h : Becomes context r (.obj members) value') (truthful : r.Truthful) :
    ∃ members', value' = .obj members' ∧
      List.Forall₂ (MemberBecomes context r) members members' := by
  rw [Becomes, resolveValue] at h
  obtain ⟨members', hmembers, h⟩ := exists_of_run_bind_ok h
  cases h
  exact ⟨members', rfl, becomes_members truthful hmembers⟩

theorem exists_item_of_becomes {i : Nat} (h : List.Forall₂ (Becomes context r) items items')
    (hitem : items[i]? = some part) :
    ∃ part', items'[i]? = some part' ∧ Becomes context r part part' := by
  induction h generalizing i with
  | nil => cases hitem
  | cons hfirst _ ih =>
    cases i with
    | zero =>
      obtain rfl := Option.some.inj hitem
      exact ⟨_, rfl, hfirst⟩
    | succ i => exact ih hitem

theorem exists_member_of_becomes (h : List.Forall₂ (MemberBecomes context r) members members')
    (hget : Table.get? key members = some part) :
    ∃ part', Table.get? key members' = some part' ∧ Becomes context r part part' := by
  induction h with
  | nil => cases hget
  | @cons member member' _ _ hfirst _ ih =>
    rw [Table.get?_cons] at hget ⊢
    rw [← hfirst.1]
    split at hget
    · rename_i hsame
      obtain rfl := Option.some.inj hget
      exact ⟨_, if_pos hsame, hfirst.2⟩
    · rename_i hother
      rw [if_neg hother]
      exact ih hget

theorem keys_of_becomes (h : List.Forall₂ (MemberBecomes context r) members members') :
    Table.keys members' = Table.keys members := by
  induction h with
  | nil => rfl
  | cons hfirst _ ih => exact congrArg₂ List.cons hfirst.1.symm ih

/-- In place of a part stands what the part becomes, so putting that there changes nothing. -/
theorem Becomes.assignTokens (h : Becomes context r value value') (truthful : r.Truthful)
    (hordered : value.Ordered) (hfits : value.Addressable)
    (hpart : resolveTokens tokens value = some part) :
    ∃ part', Becomes context r part part' ∧
      Pointer.assignTokens part' tokens value' = (.ok (), value') := by
  induction tokens generalizing value value' with
  | nil =>
    obtain rfl := Option.some.inj hpart
    exact ⟨value', h, rfl⟩
  | cons token rest ih =>
    obtain ⟨child, hchild, hrest⟩ := Option.bind_eq_some_iff.1 hpart
    obtain ⟨key, hreaches⟩ := exists_reaches_of_child? hfits hchild
    have hunder := hreaches.under?_eq
    have inner {child' : Json} (hbecomes : Becomes context r child child') :=
      ih hbecomes (hordered.under? hunder) (hfits.under? hunder) hrest
    cases hreaches with
    | @member members hget =>
      obtain ⟨members', rfl, hmembers⟩ := h.obj truthful
      obtain ⟨child', hget', hchild'⟩ := exists_member_of_becomes hmembers hget
      obtain ⟨part', hpart', hassign⟩ := inner hchild'
      refine ⟨part', hpart', ?_⟩
      rw [(Reaches.member hget').assignTokens_cons, hassign]
      have hsorted : Table.Ascending members' := by
        rw [Table.Ascending, keys_of_becomes hmembers]
        exact hordered.ascending
      exact Prod.ext rfl (putUnder_member_self hsorted hget')
    | @item i items hdash hindex hitem =>
      obtain ⟨items', rfl, hitems⟩ := h.arr truthful
      obtain ⟨child', hitem', hchild'⟩ := exists_item_of_becomes hitems hitem
      obtain ⟨part', hpart', hassign⟩ := inner hchild'
      refine ⟨part', hpart', ?_⟩
      rw [hitems.length_eq] at hindex
      rw [(Reaches.item hdash hindex hitem').assignTokens_cons, hassign]
      exact Prod.ext rfl (putUnder_item_self hitem')

end Resolver

/-- No text within is an expression or holds one. -/
inductive Json.Literal : Json → Prop
  | null : Literal .null
  | bool (value : Bool) : Literal (.bool value)
  | num (number : Number) : Literal (.num number)
  | str {text : String} (hwhole : isExpressionText (Text.trim text) = false)
      (hparts : Template.holdsExpression text.toList = false) : Literal (.str text)
  | arr {items : List Json} (h : ∀ item ∈ items, Literal item) : Literal (.arr items)
  | obj {members : Table Json} (h : ∀ member ∈ members, Literal member.2) : Literal (.obj members)

namespace Resolver

variable {context : Option Context} {r : Resolver} {value : Json} {items : List Json}
  {members : Table Json} {text : String}

theorem resolveTemplate_literal (h : Template.holdsExpression text.toList = false) :
    resolveTemplate text context = pure text := by
  have hsplit : Template.split text = .ok (Template.literalOf text.toList) :=
    Template.splitFrom_literal h []
  rw [resolveTemplate, hsplit]
  dsimp only
  rw [Template.literalOf]
  split
  · rename_i hempty
    rw [String.toList_eq_nil_iff.1 (List.isEmpty_iff.1 hempty)]
    rfl
  · rw [String.ofList_toList]
    simp [segmentText, String.join]

theorem resolveText_literal (hwhole : isExpressionText (Text.trim text) = false)
    (hparts : Template.holdsExpression text.toList = false) :
    resolveText text context = pure (.str text) := by
  rw [resolveText]
  rw [hwhole, if_neg Bool.false_ne_true, resolveTemplate_literal hparts]
  split <;> rfl

theorem resolveItems_literal (h : ∀ item ∈ items, resolveValue context item = pure item) :
    resolveItems context items = pure items := by
  induction items with
  | nil => rw [resolveItems]
  | cons item rest ih =>
    rw [List.forall_mem_cons] at h
    rw [resolveItems, h.1, ih h.2]
    rfl

theorem resolveMembers_literal
    (h : ∀ member ∈ members, resolveValue context member.2 = pure member.2) :
    resolveMembers context members = pure members := by
  induction members with
  | nil => rw [resolveMembers]
  | cons member rest ih =>
    rw [List.forall_mem_cons] at h
    rw [resolveMembers, h.1, ih h.2]
    rfl

theorem resolveValue_literal (h : value.Literal) : resolveValue context value = pure value := by
  induction h with
  | str hwhole hparts =>
    rw [resolveValue, resolveText_literal hwhole hparts]
  | arr _ ih =>
    rw [resolveValue, resolveItems_literal ih]
    rfl
  | obj _ ih =>
    rw [resolveValue, resolveMembers_literal ih]
    rfl
  | _ => simp [resolveValue]

theorem becomes_literal (h : value.Literal) : Becomes context r value value := by
  rw [Becomes, resolveValue_literal h]
  rfl

end Resolver
end Arazzo
