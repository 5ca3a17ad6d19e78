/-! Finite maps from text, kept as lists in strictly ascending order of the keys. -/

namespace Arazzo

/-- Entries in ascending key order, each key once. -/
abbrev Table (α : Type) := List (String × α)

namespace Table

variable {α β : Type}

def get? (key : String) : Table α → Option α
  | [] => none
  | (k, v) :: rest => if k = key then some v else get? key rest

theorem mem_of_get? {key : String} {value : α} {table : Table α} (h : get? key table = some value) :
    (key, value) ∈ table := by
  induction table with
  | nil => simp [get?] at h
  | cons entry rest ih =>
    obtain ⟨k, v⟩ := entry
    by_cases hk : k = key
    · simp only [get?, hk, if_true, Option.some.injEq] at h
      simp [hk, h]
    · simp only [get?, hk, if_false] at h
      exact List.mem_cons_of_mem _ (ih h)

def contains (key : String) (table : Table α) : Bool :=
  (get? key table).isSome

def insert (key : String) (value : α) : Table α → Table α
  | [] => [(key, value)]
  | (k, v) :: rest =>
    if key < k then (key, value) :: (k, v) :: rest
    else if k = key then (key, value) :: rest
    else (k, v) :: insert key value rest

def erase (key : String) : Table α → Table α
  | [] => []
  | (k, v) :: rest => if k = key then rest else (k, v) :: erase key rest

def keys (table : Table α) : List String := table.map (·.1)

def ofList (entries : List (String × α)) : Table α :=
  entries.foldl (fun table entry => insert entry.1 entry.2 table) []

def union (first second : Table α) : Table α :=
  second.foldl (fun table entry => insert entry.1 entry.2 table) first

def mapValues (f : α → β) (table : Table α) : Table β :=
  table.map fun (key, value) => (key, f value)

/-- The order that `insert` keeps. -/
def Ascending (table : Table α) : Prop := (keys table).Pairwise (· < ·)

end Table
end Arazzo
