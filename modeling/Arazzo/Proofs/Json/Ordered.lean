import Arazzo.Json.Reader
import Arazzo.Proofs.Json.Sound

/-! Objects with their members in order, and arrays whose positions fit 64 bits. Whatever is read from
a text is in order. -/

namespace Arazzo.Json

/-- Every object within holds each of its members once, in order. -/
inductive Ordered : Json → Prop
  | null : Ordered .null
  | bool (value : Bool) : Ordered (.bool value)
  | num (number : Number) : Ordered (.num number)
  | str (text : String) : Ordered (.str text)
  | arr {items : List Json} (h : ∀ item ∈ items, Ordered item) : Ordered (.arr items)
  | obj {members : Table Json} (h : Table.Ascending members)
      (h' : ∀ member ∈ members, Ordered member.2) : Ordered (.obj members)

inductive Addressable : Json → Prop
  | null : Addressable .null
  | bool (value : Bool) : Addressable (.bool value)
  | num (number : Number) : Addressable (.num number)
  | str (text : String) : Addressable (.str text)
  | arr {items : List Json} (h : items.length ≤ 2 ^ 64) (h' : ∀ item ∈ items, Addressable item) :
      Addressable (.arr items)
  | obj {members : Table Json} (h : ∀ member ∈ members, Addressable member.2) :
      Addressable (.obj members)

variable {value : Json} {list : List Json} {table : Table Json} {key : String}

theorem Ordered.items (h : Ordered (.arr list)) : ∀ item ∈ list, Ordered item := by
  cases h with
  | arr h => exact h

theorem Ordered.ascending (h : Ordered (.obj table)) : Table.Ascending table := by
  cases h with
  | obj h h' => exact h

theorem Ordered.members (h : Ordered (.obj table)) : ∀ member ∈ table, Ordered member.2 := by
  cases h with
  | obj h h' => exact h'

theorem Ordered.get? (h : Ordered (.obj table)) (hget : Table.get? key table = some value) :
    Ordered value :=
  h.members _ (Table.mem_of_get? hget)

theorem Addressable.length_le (h : Addressable (.arr list)) : list.length ≤ 2 ^ 64 := by
  cases h with
  | arr h h' => exact h

theorem Addressable.items (h : Addressable (.arr list)) : ∀ item ∈ list, Addressable item := by
  cases h with
  | arr h h' => exact h'

theorem Addressable.get? (h : Addressable (.obj table)) (hget : Table.get? key table = some value) :
    Addressable value := by
  cases h with
  | obj h => exact h _ (Table.mem_of_get? hget)

theorem Sound.ordered (h : Sound value) : Ordered value := by
  induction h with
  | null => exact .null
  | bool value => exact .bool value
  | num h => exact .num _
  | str text => exact .str text
  | arr h ih => exact .arr ih
  | obj h h' ih => exact .obj h ih

variable {item? : List Char → Option (Json × List Char)} {cs rest : List Char}

theorem ordered_of_items? (hitem : ∀ cs item rest, item? cs = some (item, rest) → Ordered item)
    {fuel : Nat} (h : items? item? fuel cs = some (list, rest)) : ∀ item ∈ list, Ordered item := by
  induction fuel generalizing cs list rest with
  | zero => cases h
  | succ fuel ih =>
    obtain ⟨⟨first, afterFirst⟩, hfirst, h⟩ := Option.bind_eq_some_iff.1 h
    dsimp only at h
    split at h
    · obtain ⟨⟨others, afterOthers⟩, hothers, h⟩ := Option.bind_eq_some_iff.1 h
      cases h
      simpa using ⟨hitem _ _ _ hfirst, ih hothers⟩
    · cases h
      simpa using hitem _ _ _ hfirst
    · cases h

theorem ordered_of_members? (hvalue : ∀ cs item rest, item? cs = some (item, rest) → Ordered item)
    {fuel : Nat} (h : members? item? fuel cs = some (table, rest)) :
    ∀ member ∈ table, Ordered member.2 := by
  induction fuel generalizing cs table rest with
  | zero => cases h
  | succ fuel ih =>
    obtain ⟨⟨name, afterName⟩, hname, h⟩ := Option.bind_eq_some_iff.1 h
    dsimp only at h
    split at h
    · obtain ⟨⟨first, afterFirst⟩, hfirst, h⟩ := Option.bind_eq_some_iff.1 h
      dsimp only at h
      split at h
      · obtain ⟨⟨others, afterOthers⟩, hothers, h⟩ := Option.bind_eq_some_iff.1 h
        cases h
        simpa using ⟨hvalue _ _ _ hfirst, fun name part => ih hothers (name, part)⟩
      · cases h
        simpa using hvalue _ _ _ hfirst
      · cases h
    · cases h

theorem ordered_ofMembers (h : ∀ member ∈ table, Ordered member.2) : Ordered (ofMembers table) :=
  .obj (Table.ascending_ofList table) fun member hmember => h member (Table.mem_of_mem_ofList hmember)

theorem ordered_of_value? {depth : Nat} (h : value? depth cs = some (value, rest)) :
    Ordered value := by
  induction depth generalizing cs value rest with
  | zero =>
    unfold value? at h
    split at h
    case h_3 | h_4 | h_5 =>
      cases h
      constructor
    case h_6 | h_7 => cases h
    all_goals
      obtain ⟨_, -, heq⟩ := Option.map_eq_some_iff.1 h
      cases heq
      constructor
  | succ depth ih =>
    unfold value? at h
    split at h
    case h_3 | h_4 | h_5 =>
      cases h
      constructor
    case h_6 =>
      dsimp only at h
      split at h
      · cases h
        exact .arr (by simp)
      · obtain ⟨_, hitems, heq⟩ := Option.map_eq_some_iff.1 h
        cases heq
        exact .arr (ordered_of_items? (fun _ _ _ => ih) hitems)
    case h_7 =>
      dsimp only at h
      split at h
      · cases h
        exact .obj Table.ascending_nil (by simp)
      · obtain ⟨_, hmembers, heq⟩ := Option.map_eq_some_iff.1 h
        cases heq
        exact ordered_ofMembers (ordered_of_members? (fun _ _ _ => ih) hmembers)
    all_goals
      obtain ⟨_, -, heq⟩ := Option.map_eq_some_iff.1 h
      cases heq
      constructor

theorem ordered_of_parse? {text : String} (h : parse? text = some value) : Ordered value := by
  unfold parse? at h
  split at h
  · rename_i hread
    split at h <;> cases h
    exact ordered_of_value? hread
  · cases h

end Arazzo.Json
