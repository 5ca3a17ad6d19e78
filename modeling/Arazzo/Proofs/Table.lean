import Arazzo.Table

/-! Tables as maps: what a look-up finds after each operation, which operations keep the order of the
keys, and that a table in order is known by its look-ups. -/

namespace Arazzo.Table

variable {α β : Type} {key k : String} {value : α} {table : Table α}

@[simp] theorem get?_nil (key : String) : get? key ([] : Table α) = none := rfl

theorem get?_cons (key k : String) (v : α) (rest : Table α) :
    get? key ((k, v) :: rest) = if k = key then some v else get? key rest := rfl

theorem get?_insert (key k : String) (v : α) (table : Table α) :
    get? key (insert k v table) = if k = key then some v else get? key table := by
  induction table with
  | nil => rfl
  | cons entry rest ih =>
    obtain ⟨k', v'⟩ := entry
    rw [insert]
    split
    · rw [get?_cons]
    · split
      · rename_i hsame
        simp only [get?_cons, hsame]
        split <;> rfl
      · rename_i hother
        simp only [get?_cons, ih]
        by_cases hkey : k' = key
        · rw [if_pos hkey, if_neg (fun h => hother (hkey.trans h.symm)), if_pos hkey]
        · rw [if_neg hkey, if_neg hkey]

theorem contains_insert (key k : String) (v : α) (table : Table α) :
    contains key (insert k v table) = (decide (k = key) || contains key table) := by
  rw [contains, contains, get?_insert]
  by_cases h : k = key <;> simp [h]

theorem mem_keys_of_mem (h : (key, value) ∈ table) : key ∈ keys table :=
  List.mem_map_of_mem h

theorem get?_eq_none (h : key ∉ keys table) : get? key table = none := by
  cases hget : get? key table with
  | none => rfl
  | some value => exact absurd (mem_keys_of_mem (mem_of_get? hget)) h

theorem contains_iff : contains key table = true ↔ key ∈ keys table := by
  constructor
  · intro h
    obtain ⟨value, hvalue⟩ := Option.isSome_iff_exists.1 h
    exact mem_keys_of_mem (mem_of_get? hvalue)
  · intro h
    induction table with
    | nil => cases h
    | cons entry rest ih =>
      obtain ⟨k, v⟩ := entry
      rw [contains, get?_cons]
      split
      · rfl
      · rename_i hother
        rcases List.mem_cons.1 h with hsame | hrest
        · exact absurd hsame.symm hother
        · exact ih hrest

theorem get?_eq_none_of_lt (h : ∀ other ∈ table, key < other.1) : get? key table = none := by
  refine get?_eq_none fun hmem => ?_
  obtain ⟨other, hother, rfl⟩ := List.mem_map.mp hmem
  exact String.lt_irrefl _ (h other hother)

theorem mem_insert {entry : String × α} (h : entry ∈ insert k value table) :
    entry = (k, value) ∨ entry ∈ table := by
  induction table with
  | nil => exact .inl (List.mem_singleton.mp h)
  | cons first rest ih =>
    obtain ⟨k', v'⟩ := first
    rw [insert] at h
    split at h
    · exact List.mem_cons.mp h
    · split at h
      · exact (List.mem_cons.mp h).imp_right (List.mem_cons_of_mem _)
      · rcases List.mem_cons.mp h with hfirst | hrest
        · exact .inr (hfirst ▸ List.mem_cons_self ..)
        · exact (ih hrest).imp_right (List.mem_cons_of_mem _)

theorem insert_insert (key : String) (first second : α) (table : Table α) :
    insert key second (insert key first table) = insert key second table := by
  induction table with
  | nil => simp [insert]
  | cons entry rest ih =>
    obtain ⟨k, v⟩ := entry
    rw [insert, insert]
    split
    · rw [insert, if_neg (String.lt_irrefl key), if_pos rfl]
    · split
      · rw [insert, if_neg (String.lt_irrefl key), if_pos rfl]
      · rename_i hlt hother
        rw [insert, if_neg hlt, if_neg hother, ih]

theorem ascending_cons {entry : String × α} {rest : Table α} :
    Ascending (entry :: rest) ↔ (∀ other ∈ rest, entry.1 < other.1) ∧ Ascending rest := by
  simp only [Ascending, keys, List.map_cons, List.pairwise_cons, List.mem_map, forall_exists_index,
    and_imp, forall_apply_eq_imp_iff₂]

theorem ascending_nil : Ascending ([] : Table α) := .nil

instance (table : Table α) : Decidable (Ascending table) :=
  inferInstanceAs (Decidable ((keys table).Pairwise (· < ·)))

theorem Ascending.insert (h : Ascending table) (k : String) (v : α) :
    Ascending (insert k v table) := by
  induction table with
  | nil => exact ascending_cons.mpr ⟨by simp, ascending_nil⟩
  | cons entry rest ih =>
    obtain ⟨k', v'⟩ := entry
    obtain ⟨hfirst, hrest⟩ := ascending_cons.mp h
    rw [Table.insert]
    split
    · rename_i hlt
      refine ascending_cons.mpr ⟨?_, h⟩
      rintro other (_ | ⟨_, hother⟩)
      · exact hlt
      · exact String.lt_trans hlt (hfirst other hother)
    · rename_i hle
      split
      · rename_i hsame
        exact ascending_cons.mpr ⟨fun other hother => hsame ▸ hfirst other hother, hrest⟩
      · rename_i hne
        refine ascending_cons.mpr ⟨fun other hother => ?_, ih hrest⟩
        rcases mem_insert hother with rfl | hmem
        · exact Std.lt_of_le_of_ne (String.not_lt.mp hle) hne
        · exact hfirst other hmem

theorem Ascending.insert_present (h : Ascending table) (hget : get? key table = some value) :
    ∃ before after, table = before ++ (key, value) :: after ∧
      ∀ other, Table.insert key other table = before ++ (key, other) :: after := by
  induction table with
  | nil => cases hget
  | cons entry rest ih =>
    obtain ⟨k, v⟩ := entry
    obtain ⟨hfirst, hrest⟩ := ascending_cons.mp h
    rw [get?_cons] at hget
    split at hget
    · rename_i hsame
      subst hsame
      obtain rfl := Option.some.inj hget
      refine ⟨[], rest, rfl, fun other => ?_⟩
      rw [Table.insert, if_neg (String.lt_irrefl k), if_pos rfl]
      rfl
    · rename_i hother
      obtain ⟨before, after, htable, hinsert⟩ := ih hrest hget
      have hlt : k < key := hfirst _ (mem_of_get? hget)
      refine ⟨(k, v) :: before, after, by rw [htable]; rfl, fun other => ?_⟩
      rw [Table.insert, if_neg (fun hgt => String.lt_irrefl _ (String.lt_trans hlt hgt)),
        if_neg hother, hinsert]
      rfl

theorem filter_insert (key : String) (value : α) (table : Table α) :
    (insert key value table).filter (fun entry => entry.1 != key) =
      table.filter fun entry => entry.1 != key := by
  induction table with
  | nil => simp [insert]
  | cons entry rest ih =>
    obtain ⟨k, v⟩ := entry
    rw [insert]
    split
    · simp
    · split
      · rename_i hsame
        simp [hsame]
      · rw [List.filter_cons, List.filter_cons, ih]

theorem filter_erase (key : String) (table : Table α) :
    (erase key table).filter (fun entry => entry.1 != key) =
      table.filter fun entry => entry.1 != key := by
  induction table with
  | nil => rfl
  | cons entry rest ih =>
    obtain ⟨k, v⟩ := entry
    rw [erase]
    split
    · rename_i hsame
      simp [hsame]
    · rw [List.filter_cons, List.filter_cons, ih]

theorem Ascending.filter (h : Ascending table) (p : String × α → Bool) :
    Ascending (table.filter p) := by
  rw [Ascending, keys]
  exact List.Pairwise.sublist (List.filter_sublist.map _) h

theorem erase_sublist (key : String) (table : Table α) : (erase key table).Sublist table := by
  induction table with
  | nil => exact .slnil
  | cons entry rest ih =>
    rw [erase]
    split
    · exact List.sublist_cons_self ..
    · exact ih.cons_cons entry

theorem Ascending.erase (h : Ascending table) (k : String) : Ascending (erase k table) := by
  rw [Ascending, keys]
  exact List.Pairwise.sublist ((erase_sublist k table).map _) h

theorem get?_erase_ne {k : String} (h : k ≠ key) (table : Table α) :
    get? key (erase k table) = get? key table := by
  induction table with
  | nil => rfl
  | cons entry rest ih =>
    obtain ⟨k', v'⟩ := entry
    rw [erase]
    split
    · rename_i hsame
      rw [get?_cons, if_neg (hsame ▸ h)]
    · rw [get?_cons, get?_cons, ih]

theorem Ascending.get?_erase_self (h : Ascending table) (key : String) :
    get? key (Table.erase key table) = none := by
  induction table with
  | nil => rfl
  | cons entry rest ih =>
    obtain ⟨k, v⟩ := entry
    obtain ⟨hfirst, hrest⟩ := ascending_cons.mp h
    rw [Table.erase]
    split
    · rename_i hsame
      subst hsame
      exact get?_eq_none_of_lt hfirst
    · rename_i hne
      rw [get?_cons, if_neg hne, ih hrest]

theorem Ascending.get?_erase (h : Ascending table) (key k : String) :
    get? key (Table.erase k table) = if k = key then none else get? key table := by
  split
  · rename_i hkey
    subst hkey
    exact h.get?_erase_self k
  · rename_i hkey
    exact get?_erase_ne hkey table

theorem Ascending.get?_of_mem (h : Ascending table) (hmem : (key, value) ∈ table) :
    get? key table = some value := by
  induction table with
  | nil => cases hmem
  | cons entry rest ih =>
    obtain ⟨k, v⟩ := entry
    obtain ⟨hfirst, hrest⟩ := ascending_cons.mp h
    rcases List.mem_cons.mp hmem with hsame | hrest_mem
    · obtain ⟨rfl, rfl⟩ := Prod.mk.inj hsame
      rw [get?_cons, if_pos rfl]
    · have hlt : k < key := hfirst _ hrest_mem
      have hne : k ≠ key := by
        rintro rfl
        exact String.lt_irrefl k hlt
      rw [get?_cons, if_neg hne, ih hrest hrest_mem]

theorem Ascending.mem_iff (h : Ascending table) :
    (key, value) ∈ table ↔ get? key table = some value :=
  ⟨h.get?_of_mem, mem_of_get?⟩

theorem eq_of_get?_eq {first second : Table α} (h : Ascending first) (h' : Ascending second)
    (hget : ∀ key, get? key first = get? key second) : first = second := by
  induction first generalizing second with
  | nil =>
    cases second with
    | nil => rfl
    | cons entry rest =>
      have hfound := hget entry.1
      rw [get?_nil, get?_cons, if_pos rfl] at hfound
      cases hfound
  | cons entry rest ih =>
    cases second with
    | nil =>
      have hfound := hget entry.1
      rw [get?_nil, get?_cons, if_pos rfl] at hfound
      cases hfound
    | cons entry' rest' =>
      obtain ⟨hfirst, hrest⟩ := ascending_cons.mp h
      obtain ⟨hfirst', hrest'⟩ := ascending_cons.mp h'
      have hmem : entry ∈ entry' :: rest' := h'.mem_iff.mpr (hget entry.1 ▸ h.mem_iff.mp (by simp))
      have hmem' : entry' ∈ entry :: rest := h.mem_iff.mpr (hget entry'.1 ▸ h'.mem_iff.mp (by simp))
      -- Either entry is the least one of its table, so neither can stand behind the other.
      have heq : entry = entry' := by
        rcases List.mem_cons.mp hmem with heq | hlater
        · exact heq
        · rcases List.mem_cons.mp hmem' with heq | hlater'
          · exact heq.symm
          · exact absurd (String.lt_trans (hfirst _ hlater') (hfirst' _ hlater))
              (String.lt_irrefl _)
      subst heq
      congr 1
      refine ih hrest hrest' fun key => ?_
      have hkey := hget key
      obtain ⟨k, v⟩ := entry
      simp only [get?_cons] at hkey
      by_cases hk : k = key
      · subst hk
        rw [get?_eq_none_of_lt hfirst, get?_eq_none_of_lt hfirst']
      · simpa [hk] using hkey

theorem Ascending.insert_erase (h : Ascending table) (key : String) (value : α) :
    Table.insert key value (Table.erase key table) = Table.insert key value table := by
  refine eq_of_get?_eq ((h.erase key).insert key value) (h.insert key value) fun other => ?_
  rw [get?_insert, get?_insert]
  split
  · rfl
  · rename_i hother
    rw [h.get?_erase, if_neg hother]

theorem get?_filter (p : String → Bool) (key : String) (table : Table α) :
    get? key (table.filter fun entry => p entry.1) = if p key then get? key table else none := by
  induction table with
  | nil => simp
  | cons entry rest ih =>
    obtain ⟨k, v⟩ := entry
    by_cases hk : k = key
    · subst hk
      cases hp : p k with
      | true => simp [hp, get?_cons]
      | false => simpa [hp] using ih
    · cases hp : p k with
      | true => simp [hp, get?_cons, hk, ih]
      | false => simp [hp, get?_cons, hk, ih]

theorem Ascending.union {first : Table α} (h : Ascending first) (second : Table α) :
    Ascending (union first second) := by
  rw [Table.union]
  induction second generalizing first with
  | nil => exact h
  | cons entry rest ih => exact ih (h.insert entry.1 entry.2)

theorem Ascending.nodup (h : Ascending table) : (keys table).Nodup := by
  refine List.Pairwise.imp (fun {a b} (hlt : a < b) => ?_) h
  rintro rfl
  exact String.lt_irrefl _ hlt

theorem get?_union (key : String) (first second : Table α) (h : (keys second).Nodup) :
    get? key (union first second) = (get? key second).or (get? key first) := by
  rw [union]
  induction second generalizing first with
  | nil => rfl
  | cons entry rest ih =>
    obtain ⟨k, v⟩ := entry
    obtain ⟨hfresh, hrest⟩ := List.nodup_cons.mp h
    rw [List.foldl_cons, ih _ hrest, get?_insert, get?_cons]
    by_cases hk : k = key
    · subst hk
      simp [get?_eq_none hfresh]
    · simp [hk]

theorem get?_append (key : String) (first second : Table α) :
    get? key (first ++ second) = (get? key first).or (get? key second) := by
  induction first with
  | nil => exact Option.none_or.symm
  | cons entry rest ih =>
    obtain ⟨k, v⟩ := entry
    rw [List.cons_append, get?_cons, get?_cons, ih]
    split <;> rfl

theorem get?_perm {other : Table α} (h : table.Perm other) (hdistinct : (keys table).Nodup)
    (key : String) : get? key table = get? key other := by
  induction h with
  | nil => rfl
  | cons entry _ ih =>
    obtain ⟨k, v⟩ := entry
    rw [get?_cons, get?_cons, ih (List.nodup_cons.1 hdistinct).2]
  | swap first second rest =>
    obtain ⟨k, v⟩ := first
    obtain ⟨k', v'⟩ := second
    have hne : k' ≠ k := by
      rintro rfl
      exact (List.nodup_cons.1 hdistinct).1 (List.mem_cons_self ..)
    simp only [get?_cons]
    by_cases hk : k = key
    · subst hk
      rw [if_neg hne, if_pos rfl, if_pos rfl]
    · rw [if_neg hk, if_neg hk]
  | trans hfirst _ ih ih' =>
    have hdistinct' : (keys _).Nodup := (hfirst.map Prod.fst).nodup_iff.1 hdistinct
    exact (ih hdistinct).trans (ih' hdistinct')

theorem mem_union {entry : String × α} {first second : Table α} (h : entry ∈ union first second) :
    entry ∈ first ∨ entry ∈ second := by
  rw [union] at h
  induction second generalizing first with
  | nil => exact .inl h
  | cons other rest ih =>
    rcases ih h with hfirst | hrest
    · rcases mem_insert hfirst with rfl | hfirst
      · exact .inr (List.mem_cons_self ..)
      · exact .inl hfirst
    · exact .inr (List.mem_cons_of_mem _ hrest)

theorem ofList_eq_union (entries : List (String × α)) : ofList entries = union [] entries := rfl

theorem get?_ofList (key : String) (entries : List (String × α)) (h : (keys entries).Nodup) :
    get? key (ofList entries) = get? key entries := by
  rw [ofList_eq_union, get?_union key [] entries h, get?_nil, Option.or_none]

theorem ascending_ofList (entries : List (String × α)) : Ascending (ofList entries) :=
  ascending_nil.union entries

theorem mem_of_mem_ofList {entry : String × α} {entries : List (String × α)}
    (h : entry ∈ ofList entries) : entry ∈ entries := by
  rw [ofList_eq_union] at h
  exact (mem_union h).resolve_left (by simp)

end Arazzo.Table
