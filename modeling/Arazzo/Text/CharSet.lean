import Arazzo.Text.Scan

/-! Sets of characters as ascending ranges of code points. -/

namespace Arazzo.Text

/-- Inclusive ranges, ascending and apart from each other. -/
abbrev CharSet := List (Nat × Nat)

def readNumbers (line : String) : List Nat :=
  (splitAll ' ' line.toList).map fun digits => digits.foldl (fun n c => n * 10 + (c.toNat - 48)) 0

namespace CharSet

def topCode : Nat := 0x10ffff

/-- Numbers in turn of characters outside and inside, from code point zero on. -/
def ofRunsFrom (start : Nat) : List Nat → CharSet
  | gap :: size :: rest => (start + gap, start + gap + size - 1) :: ofRunsFrom (start + gap + size) rest
  | _ => []

def ofRuns (lines : List String) : CharSet := ofRunsFrom 0 (lines.flatMap readNumbers)

def contains (n : Nat) : CharSet → Bool
  | [] => false
  | (low, high) :: rest => if n < low then false else if n ≤ high then true else contains n rest

/-- Joins ranges that meet; the ranges come in ascending order of their lower ends. -/
def joined : List (Nat × Nat) → CharSet
  | [] => []
  | range :: rest => go range rest
where
  go (range : Nat × Nat) : List (Nat × Nat) → CharSet
    | [] => [range]
    | next :: rest =>
      if next.1 ≤ range.2 + 1 then go (range.1, max range.2 next.2) rest
      else range :: go next rest

def ofRanges (ranges : List (Nat × Nat)) : CharSet :=
  joined (ranges.mergeSort fun a b => a.1 ≤ b.1)

def ofPoints (points : List Nat) : CharSet := ofRanges (points.map fun n => (n, n))

def union (a b : CharSet) : CharSet := ofRanges (a ++ b)

def complementFrom (start : Nat) : CharSet → CharSet
  | [] => if start ≤ topCode then [(start, topCode)] else []
  | (low, high) :: rest =>
    if start < low then (start, low - 1) :: complementFrom (high + 1) rest
    else complementFrom (high + 1) rest

def complement (a : CharSet) : CharSet := complementFrom 0 a

def inter (a b : CharSet) : CharSet := complement (union (complement a) (complement b))

def diff (a b : CharSet) : CharSet := inter a (complement b)

def symmDiff (a b : CharSet) : CharSet := union (diff a b) (diff b a)

end CharSet
end Arazzo.Text
