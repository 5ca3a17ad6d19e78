import Arazzo.Decimal.Binary

/-! The fewest decimal digits that read back as the same double. -/

namespace Arazzo.Decimal

def Dyadic.leadingExponent (x : Dyadic) : Int :=
  if x.exponent ≥ 0 then digitCount (x.mantissa * Nat.pow 2 x.exponent.toNat) - 1
  else (digitCount (x.mantissa * Nat.pow 10 340 / Nat.pow 2 (-x.exponent).toNat) : Int) - 341

def Dyadic.onGrid? (x : Dyadic) (scale : Int) : Option Nat :=
  let step := Nat.pow 10 scale.toNat * Nat.pow 2 (2 - x.exponent).toNat
  let unit := Nat.pow 10 (-scale).toNat * Nat.pow 2 (x.exponent - 2).toNat
  let value := 4 * x.mantissa * unit
  let low := (4 * x.mantissa - (if x.mantissa = Nat.pow 2 52 ∧ x.exponent > -1074 then 1 else 2)) * unit
  let high := (4 * x.mantissa + 2) * unit
  let inside (n : Nat) : Bool :=
    if x.mantissa % 2 = 0 then low ≤ n * step && n * step ≤ high
    else low < n * step && n * step < high
  let below := value / step
  let above := below + 1
  let gap := value - below * step
  match inside below, inside above with
  | false, false => none
  | true, false => some below
  | false, true => some above
  | true, true =>
    if 2 * gap < step then some below
    else if 2 * gap > step then some above
    else if below % 2 = 0 then some below
    else some above

/-- Digits and scale of the shortest decimal in the rounding interval of a positive number. -/
def Dyadic.shortest (x : Dyadic) : Nat × Int :=
  let top := x.leadingExponent
  let found := (List.range 18).findSome? fun (n : Nat) =>
    let scale : Int := top - n
    (x.onGrid? scale).map fun digits => (digits, scale)
  found.getD (x.mantissa, 0)

def stripZeros : Nat → Nat × Int → Nat × Int
  | 0, d => d
  | fuel + 1, (digits, scale) =>
    if digits % 10 = 0 ∧ digits ≠ 0 then stripZeros fuel (digits / 10, scale + 1) else (digits, scale)

/-- Positional notation for `1e-5 ≤ |x| < 1e16`, otherwise one digit before the point and a signed
exponent. -/
def layout (digits : Nat) (scale : Int) : String :=
  let ds := Nat.toDigits 10 digits
  let top := scale + ds.length - 1
  if -5 ≤ top ∧ top < 16 then
    if scale ≥ 0 then String.ofList (ds ++ List.replicate scale.toNat '0') ++ ".0"
    else if top ≥ 0 then
      String.ofList (ds.take (top.toNat + 1)) ++ "." ++ String.ofList (ds.drop (top.toNat + 1))
    else "0." ++ String.ofList (List.replicate (-top - 1).toNat '0' ++ ds)
  else
    let body := match ds with
      | [d] => [d]
      | d :: more => d :: '.' :: more
      | [] => []
    String.ofList body ++ (if top < 0 then "e-" else "e+") ++ toString top.natAbs

def render (x : Float) : String :=
  let sign := if isNegative x then "-" else ""
  let magnitude := Dyadic.ofFloat x
  if magnitude.mantissa = 0 then sign ++ "0.0"
  else
    let (digits, scale) := stripZeros 20 magnitude.shortest
    sign ++ layout digits scale

end Arazzo.Decimal
