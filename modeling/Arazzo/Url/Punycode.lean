/-! Labels of domain names outside ASCII, written in ASCII: the characters that are missing are told
by where each is inserted. -/

namespace Arazzo.Punycode

def symbol (value : Nat) : Char := Char.ofNat (if value ≤ 25 then 97 + value else 22 + value)

def least (bias place : Nat) : Nat := max 1 (min 26 (place - bias))

theorem least_ne_zero (bias place : Nat) : least bias place ≠ 0 := by
  unfold least
  omega

def number (bias place rest : Nat) : List Char :=
  let low := least bias place
  if rest < low then [symbol rest]
  else
    let base := 36 - low
    symbol (low + (rest - low) % base) :: number bias (place + 36) ((rest - low) / base)
termination_by rest
decreasing_by
  exact Nat.lt_of_le_of_lt (Nat.div_le_self _ _)
    (Nat.sub_lt (by have := least_ne_zero bias place; omega)
      (Nat.pos_of_ne_zero (least_ne_zero bias place)))

def settle (rounds size : Nat) : Nat :=
  if size ≤ 455 then 36 * rounds + 36 * size / (size + 38) else settle (rounds + 1) (size / 35)
termination_by size
decreasing_by exact Nat.div_lt_self (by omega) (by omega)

def biasAfter (gap count : Nat) (isFirst : Bool) : Nat :=
  let damped := gap / if isFirst then 700 else 2
  settle 0 (damped + damped / count)

/-- Code points beyond ASCII in ascending order, each with its place among those not above it. -/
def insertions (label : List Char) : List (Nat × Nat) :=
  let codes := label.map Char.toNat
  let placed := codes.zipIdx.map fun (code, i) => (code, ((codes.take i).filter (· ≤ code)).length)
  (placed.filter fun (code, _) => 128 ≤ code).mergeSort fun a b => a.1 ≤ b.1

/-- How many ways to insert are passed over before each insertion; they run through all places for a
code point, and then through those for the next one. -/
def gaps (count code place : Nat) : List (Nat × Nat) → List Nat
  | [] => []
  | (nextCode, nextPlace) :: rest =>
    ((nextCode - code) * (count + 1) + nextPlace - place) ::
      gaps (count + 1) nextCode (nextPlace + 1) rest

def writeGaps (bias count : Nat) (isFirst : Bool) : List Nat → List Char
  | [] => []
  | gap :: rest =>
    number bias 36 gap ++ writeGaps (biasAfter gap (count + 1) isFirst) (count + 1) false rest

/-- The ASCII characters, a hyphen if there are any, and the insertions. -/
def encode (label : List Char) : List Char :=
  let basic := label.filter fun c => c.toNat ≤ 127
  let lead := if basic.isEmpty then [] else basic ++ ['-']
  lead ++ writeGaps 72 basic.length true (gaps basic.length 128 0 (insertions label))

end Arazzo.Punycode
