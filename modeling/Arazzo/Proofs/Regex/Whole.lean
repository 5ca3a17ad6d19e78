import Arazzo.Criterion
import Arazzo.Proofs.Leads
import Arazzo.Proofs.Regex.Matching
import Arazzo.Proofs.Regex.Patterns
import Arazzo.Proofs.Resolver.Body

/-! Matching all of a text by a group around the pattern and marks for both ends: it comes to the pattern's
own match, unless a comment takes the end of the group in or the pattern closes the group itself. -/

namespace Arazzo

open Text

namespace Regex

namespace Pattern

variable {s s' : PatternState} {p t cs : List Char} {b : Branches} {fuel fuel' : Nat}

def reading (p : List Char) : Option (Branches × PatternState) :=
  (alternatives (2 * p.length + 2)).run { rest := p }

/-- The expression between the marks for both ends of a text. -/
def between (r : Regex) : Regex := .seq (.look .textStart) (.seq r (.look .textEnd))

def marked (b : Branches) : Nested Regex := ⟨between b.body, b.depth + 2⟩

end Pattern

open Pattern

variable {p : String} {r : Regex} {b : Branches} {limits : Limits}

def ReadsAs (p : String) (b : Branches) : Prop := ∃ s, reading p.toList = some (b, s) ∧ s.rest = []

/-- Two levels more, or the marks, are too much. -/
def Outgrown (limits : Limits) (p : String) : Prop :=
  ∃ b, ReadsAs p b ∧ (limits.nest < b.depth + 2 ∨ limits.fits (between b.body) = false)

theorem ReadsAs.unique {b' : Branches} (h : ReadsAs p b) (h' : ReadsAs p b') : b = b' := by
  obtain ⟨s, hread, -⟩ := h
  obtain ⟨s', hread', -⟩ := h'
  rw [hread] at hread'
  exact (Prod.mk.inj (Option.some.inj hread')).1

theorem ReadsAs.room (h : ReadsAs p b) (hroom : ¬ Outgrown limits p) :
    b.depth + 2 ≤ limits.nest ∧ limits.fits (between b.body) = true := by
  constructor
  · by_contra hdeep
    exact hroom ⟨b, h, .inl (Nat.not_le.mp hdeep)⟩
  · by_contra hlarge
    exact hroom ⟨b, h, .inr (Bool.not_eq_true _ ▸ hlarge)⟩

end Regex

namespace Criterion

open Regex Regex.Pattern Resolver

variable {context : Context} {c : Criterion} {value : Json} {s s' : Resolver}

def given (x : String) : Context := ⟨"w", .obj [("x", .str x)], none, [], []⟩

end Criterion
end Arazzo
