import Arazzo.Decimal.Binary

/-! Spans of time in whole nanoseconds. -/

namespace Arazzo

structure Duration where
  nanos : Nat
deriving DecidableEq, Repr

namespace Duration

def ofMillis (n : Nat) : Duration := ⟨n * 1000000⟩

def ofSeconds (n : Nat) : Duration := ⟨n * 1000000000⟩

def seconds (d : Duration) : Nat := d.nanos / 1000000000

def subsecond (d : Duration) : Nat := d.nanos % 1000000000

/-- Timers count whole milliseconds and never ring early. -/
def millisUp (d : Duration) : Nat := (d.nanos + 999999) / 1000000

def min (a b : Duration) : Duration := if a.nanos ≤ b.nanos then a else b

def divNearest (n d : Nat) : Nat :=
  let below := n / d
  let twice := 2 * (n % d)
  if twice > d ∨ (twice = d ∧ below % 2 = 1) then below + 1 else below

/-- Seconds as a double, to the nearest nanosecond; none when negative or `2 ^ 64` and more. -/
def ofFloat? (x : Float) : Option Duration :=
  if x < 0.0 then none
  else if x < 18446744073709551616.0 then
    let d := Decimal.Dyadic.ofFloat x
    let numerator := d.mantissa * Nat.pow 2 d.exponent.toNat * 1000000000
    some ⟨divNearest numerator (Nat.pow 2 (-d.exponent).toNat)⟩
  else none

def fractionText (width n : Nat) : String :=
  let digits := Nat.toDigits 10 n
  let padded := List.replicate (width - digits.length) '0' ++ digits
  let kept := (padded.reverse.dropWhile (· == '0')).reverse
  if kept.isEmpty then "" else "." ++ String.ofList kept

def text (d : Duration) : String :=
  if d.nanos ≥ 1000000000 then
    toString (d.nanos / 1000000000) ++ fractionText 9 (d.nanos % 1000000000) ++ "s"
  else if d.nanos ≥ 1000000 then
    toString (d.nanos / 1000000) ++ fractionText 6 (d.nanos % 1000000) ++ "ms"
  else if d.nanos ≥ 1000 then
    toString (d.nanos / 1000) ++ fractionText 3 (d.nanos % 1000) ++ "µs"
  else toString d.nanos ++ "ns"

end Duration
end Arazzo
