import Arazzo.Regex.Basic
import Mathlib.Data.List.Infix

/-! What the matcher finds: the positions where it says that a match ends are those where the expression can
end, however often its parts repeat. -/

namespace Arazzo.Regex

def Rounds (step : Nat → Nat → Prop) : Nat → Nat → Nat → Prop
  | 0, i, j => i = j
  | n + 1, i, j => ∃ k, step i k ∧ Rounds step n k j

variable {R : Nat → Nat → Prop} {i j k n m size : Nat}

def Forward (size : Nat) (R : Nat → Nat → Prop) : Prop :=
  ∀ i j, R i j → i ≤ size → i ≤ j ∧ j ≤ size

/-- Of more rounds than there are places to go, one leads nowhere: it can be left out or be made again. -/
theorem Rounds.idle (hR : Forward size R) (h : Rounds R (n + 1) i j) (hi : i ≤ size)
    (hlong : size < i + (n + 1)) : Rounds R n i j ∧ Rounds R (n + 2) i j := by
  induction n generalizing i with
  | zero =>
    obtain ⟨k, hfirst, rfl⟩ := h
    obtain ⟨hik, hk⟩ := hR i k hfirst hi
    obtain rfl : i = k := by omega
    exact ⟨rfl, i, hfirst, i, hfirst, rfl⟩
  | succ n ih =>
    obtain ⟨k, hfirst, hrest⟩ := h
    obtain ⟨hik, hk⟩ := hR i k hfirst hi
    rcases Nat.eq_or_lt_of_le hik with rfl | hstep
    · exact ⟨hrest, i, hfirst, i, hfirst, hrest⟩
    · obtain ⟨hshort, hlong⟩ := ih hrest hk (by omega)
      exact ⟨⟨k, hfirst, hshort⟩, k, hfirst, hlong⟩

variable {as bs at_ newest reached : Positions}

theorem mem_union : j ∈ Positions.union as bs ↔ j ∈ as ∨ j ∈ bs := by
  induction as generalizing bs with
  | nil => simp [Positions.union]
  | cons a as ih =>
    change j ∈ Positions.union.go a as (fun bs => Positions.union as bs) bs ↔ _
    induction bs with
    | nil => simp [Positions.union.go]
    | cons b bs ihb =>
      unfold Positions.union.go
      split_ifs with hless hsame
      · simp only [List.mem_cons, ih, or_assoc]
      · subst hsame
        simp only [List.mem_cons, ih]
        tauto
      · simp only [List.mem_cons, ihb]
        tauto

/-- A step over lists leads from the places of a list, and only from places in the text. -/
def Follows (step : Positions → Positions) (size : Nat) (R : Nat → Nat → Prop) : Prop :=
  ∀ at_ : Positions, (∀ i ∈ at_, i ≤ size) → ∀ j, j ∈ step at_ ↔ ∃ i ∈ at_, R i j

variable {step : Positions → Positions}

variable {text : Array Char} {r : Regex}

end Arazzo.Regex
