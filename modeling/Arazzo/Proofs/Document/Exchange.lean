import Arazzo.Proofs.Document.Members
import Arazzo.Proofs.Document.Objects

/-! Objects that differ in one member: what is read of them is the same, and the reports differ only
in what is said of that member. -/

namespace Arazzo

namespace Checked

variable {α β : Type} {old new : List Diagnostic} {first second : Checked α}

theorem diagnostics_bind (first : Checked α) (next : α → Checked β) :
    (first >>= next).diagnostics = first.diagnostics ++ (next first.value).diagnostics := rfl

/-- Both find the same, and the second reports `new` where the first reports `old`. -/
structure Exchanges (old new : List Diagnostic) (first second : Checked α) : Prop where
  value : first.value = second.value
  diagnostics : ∃ before after, first.diagnostics = before ++ old ++ after ∧
    second.diagnostics = before ++ new ++ after

theorem exchanges_all (h : first.value = second.value) :
    Exchanges first.diagnostics second.diagnostics first second :=
  ⟨h, [], [], by simp, by simp⟩

theorem Exchanges.bind_left (h : Exchanges old new first second) (next : α → Checked β) :
    Exchanges old new (first >>= next) (second >>= next) := by
  obtain ⟨hvalue, before, after, hfirst, hsecond⟩ := h
  refine ⟨by rw [value_bind, value_bind, hvalue], before,
    after ++ (next second.value).diagnostics, ?_, ?_⟩
  · rw [diagnostics_bind, hfirst, hvalue, List.append_assoc _ after]
  · rw [diagnostics_bind, hsecond, List.append_assoc _ after]

theorem Exchanges.bind_right (first : Checked α) {next next' : α → Checked β}
    (h : Exchanges old new (next first.value) (next' first.value)) :
    Exchanges old new (first >>= next) (first >>= next') := by
  obtain ⟨hvalue, before, after, hnext, hnext'⟩ := h
  refine ⟨hvalue, first.diagnostics ++ before, after, ?_, ?_⟩
  · rw [diagnostics_bind, hnext]
    simp only [List.append_assoc]
  · rw [diagnostics_bind, hnext']
    simp only [List.append_assoc]

end Checked

namespace ObjectReader

open Checked (Exchanges)

/-- The members are the same apart from the one of that name. -/
def Alike (key : String) (first second : Table Json) : Prop :=
  first.filter (fun member => member.1 != key) = second.filter fun member => member.1 != key

variable {α : Type} {permitReserved : Bool} {allowed : List String} {location : Place}
  {members members' : Table Json} {key : String}

theorem alike_insert (key : String) (value : Json) (members : Table Json) :
    Alike key members (Table.insert key value members) :=
  (Table.filter_insert key value members).symm

theorem alike_erase (key : String) (members : Table Json) :
    Alike key members (Table.erase key members) :=
  (Table.filter_erase key members).symm

theorem Alike.get?_eq (h : Alike key members members') {other : String} (hne : other ≠ key) :
    Table.get? other members = Table.get? other members' := by
  have hfilter (table : Table Json) :
      Table.get? other (table.filter fun member => member.1 != key) = Table.get? other table := by
    rw [Table.get?_filter (· != key), if_pos (bne_iff_ne.2 hne)]
  rw [← hfilter members, h, hfilter]

def ownExtension (permitReserved : Bool) (allowed : List String) (location : Place) (key : String)
    (value : Json) : Checked Extensions :=
  if allowed.contains key then pure []
  else if isExtensionKey key then keepExtension permitReserved location key value
  else if key == "extensions" then pure []
  else ⟨[], [⟨.extra, location, some (.member key)⟩]⟩

theorem ownExtensions_cons (key : String) (value : Json) (rest : Table Json) :
    ownExtensions permitReserved allowed location ((key, value) :: rest) =
      (ownExtension permitReserved allowed location key value >>= fun first =>
        ownExtensions permitReserved allowed location rest >>= fun others =>
          pure (first ++ others)) := by
  rw [ownExtensions, ownExtension]
  split
  · rfl
  · split
    · rfl
    · split <;> rfl

theorem ownExtensions_filter (hkey : key ∈ allowed) (members : Table Json) :
    ownExtensions permitReserved allowed location (members.filter fun member => member.1 != key) =
      ownExtensions permitReserved allowed location members := by
  induction members with
  | nil => rfl
  | cons member rest ih =>
    obtain ⟨k, value⟩ := member
    rw [List.filter_cons]
    split
    · rw [ownExtensions_cons, ownExtensions_cons, ih]
    · rename_i hsame
      have hk : k = key := by simpa using hsame
      rw [ih, ownExtensions_cons_allowed value rest (hk ▸ hkey)]

theorem Alike.extensions_eq (h : Alike key members members') (hkey : key ∈ allowed)
    (hne : "extensions" ≠ key) :
    extensions permitReserved allowed ⟨members, location⟩ =
      extensions permitReserved allowed ⟨members', location⟩ := by
  have hown : ownExtensions permitReserved allowed location members =
      ownExtensions permitReserved allowed location members' := by
    rw [← ownExtensions_filter hkey members, h, ownExtensions_filter hkey]
  have hgroup : Table.get? "extensions" members = Table.get? "extensions" members' :=
    h.get?_eq hne
  simp only [extensions, raw?, hown, hgroup, child, report]

/-- A name that nothing is known of. -/
structure Unknown (allowed : List String) (key : String) : Prop where
  foreign : key ∉ allowed
  own : isExtensionKey key = false
  single : key ≠ "extensions"

theorem Unknown.ownExtension_eq (h : Unknown allowed key) (value : Json) :
    ownExtension permitReserved allowed location key value =
      ⟨[], [⟨.extra, location, some (.member key)⟩]⟩ := by
  have hforeign : allowed.contains key = false := by
    rw [← Bool.not_eq_true, List.contains_iff_mem]
    exact h.foreign
  have hsingle : (key == "extensions") = false := beq_eq_false_iff_ne.2 h.single
  rw [ownExtension, hforeign, h.own, hsingle]
  rfl

/-- A member of an unknown name is reported once, and no extension comes or goes with it. -/
theorem Unknown.exchanges_ownExtensions (h : Unknown allowed key) (value : Json)
    (habsent : Table.get? key members = none) :
    Exchanges [] [⟨.extra, location, some (.member key)⟩]
      (ownExtensions permitReserved allowed location members)
      (ownExtensions permitReserved allowed location (Table.insert key value members)) := by
  have hfirst (rest : Table Json) : Exchanges [] [⟨.extra, location, some (.member key)⟩]
      (ownExtensions permitReserved allowed location rest)
      (ownExtensions permitReserved allowed location ((key, value) :: rest)) := by
    rw [ownExtensions_cons, h.ownExtension_eq]
    exact ⟨rfl, [], (ownExtensions permitReserved allowed location rest).diagnostics, rfl, by
      simp [Checked.diagnostics_bind, Checked.pure_eq]⟩
  induction members with
  | nil => exact hfirst []
  | cons member rest ih =>
    obtain ⟨k, v⟩ := member
    rw [Table.get?_cons] at habsent
    split at habsent
    · cases habsent
    · rename_i hother
      rw [Table.insert]
      split
      · exact hfirst _
      · rw [ownExtensions_cons, ownExtensions_cons]
        exact .bind_right _ ((ih habsent).bind_left _)

theorem Unknown.exchanges_extensions (h : Unknown allowed key) (value : Json)
    (habsent : Table.get? key members = none) :
    Exchanges [] [⟨.extra, location, some (.member key)⟩]
      (extensions permitReserved allowed ⟨members, location⟩)
      (extensions permitReserved allowed ⟨Table.insert key value members, location⟩) := by
  have hgroup : Table.get? "extensions" (Table.insert key value members) =
      Table.get? "extensions" members := by
    rw [Table.get?_insert, if_neg h.single]
  simp only [extensions, raw?, hgroup]
  exact (h.exchanges_ownExtensions value habsent).bind_left _

theorem exchanges_readItems {read : Json → Place → Option PlaceStep → Checked (Option α)}
    {old new : List Diagnostic} {items : List Json} {j : Nat} {item item' : Json}
    (hget : items[j]? = some item) (i : Nat)
    (h : Exchanges old new (read item location (some (.item (i + j))))
      (read item' location (some (.item (i + j))))) :
    Exchanges old new (readItems read location i items)
      (readItems read location i (items.set j item')) := by
  induction items generalizing i j with
  | nil => cases hget
  | cons first rest ih =>
    cases j with
    | zero =>
      obtain rfl := Option.some.inj hget
      exact h.bind_left _
    | succ j =>
      have hrest := ih hget (i + 1) (by rwa [Nat.add_right_comm])
      exact .bind_right _ (hrest.bind_left _)

theorem exchanges_readEntries {read : Json → Place → Option PlaceStep → Checked (Option α)}
    {old new : List Diagnostic} {name : String} {value value' : Json} (before after : Table Json)
    (h : Exchanges old new (read value location (some (.member name)))
      (read value' location (some (.member name)))) :
    Exchanges old new (readEntries read location (before ++ (name, value) :: after))
      (readEntries read location (before ++ (name, value') :: after)) := by
  induction before with
  | nil => exact h.bind_left _
  | cons entry rest ih => exact .bind_right _ (ih.bind_left _)

end ObjectReader

end Arazzo
