import Arazzo.Proofs.Decimal.Whole
import Arazzo.Proofs.Table

/-! The values that a reader of JSON can hand over: members in order, whole numbers of 64 bits and
finite doubles. -/

namespace Arazzo.Json

def Number.Sound : Number → Prop
  | .int n => -2 ^ 63 ≤ n ∧ n < 2 ^ 64
  | .float x => x.isFinite = true

inductive Sound : Json → Prop
  | null : Sound .null
  | bool (value : Bool) : Sound (.bool value)
  | num {number : Number} (h : number.Sound) : Sound (.num number)
  | str (text : String) : Sound (.str text)
  | arr {items : List Json} (h : ∀ item ∈ items, Sound item) : Sound (.arr items)
  | obj {members : Table Json} (h : Table.Ascending members)
      (h' : ∀ member ∈ members, Sound member.2) : Sound (.obj members)

variable {value : Json} {list : List Json} {table : Table Json} {n : Number}

theorem Sound.number (h : Sound (.num n)) : n.Sound := by
  cases h with
  | num h => exact h

theorem Sound.items (h : Sound (.arr list)) : ∀ item ∈ list, Sound item := by
  cases h with
  | arr h => exact h

theorem Sound.ascending (h : Sound (.obj table)) : Table.Ascending table := by
  cases h with
  | obj h h' => exact h

theorem Sound.members (h : Sound (.obj table)) : ∀ member ∈ table, Sound member.2 := by
  cases h with
  | obj h h' => exact h'

theorem Sound.get? {key : String} (h : Sound (.obj table))
    (hget : Table.get? key table = some value) : Sound value :=
  h.members _ (Table.mem_of_get? hget)

theorem Sound.member {key : String} {part : Json} (h : Sound value)
    (hget : value.get? key = some part) : Sound part := by
  cases value <;> try cases hget
  exact h.get? hget

theorem Sound.single (name : String) (h : Sound value) : Sound (.obj [(name, value)]) :=
  .obj (Table.ascending_cons.mpr ⟨by simp, Table.ascending_nil⟩) (by simpa using h)

theorem Number.Sound.toFloat_isFinite (h : n.Sound) : n.toFloat.isFinite = true := by
  cases n with
  | int n =>
    have hbounds : -2 ^ 63 ≤ n ∧ n < 2 ^ 64 := h
    exact Decimal.ofInt_isFinite (by omega)
  | float x => exact h

end Arazzo.Json
