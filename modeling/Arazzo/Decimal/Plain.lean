import Arazzo.Decimal.Shortest

/-! Doubles in positional notation, and exact remainders. -/

namespace Arazzo.Decimal

def positional (digits : Nat) (scale : Int) : String :=
  let ds := Nat.toDigits 10 digits
  let top : Int := scale + ds.length - 1
  if scale ≥ 0 then String.ofList (ds ++ List.replicate scale.toNat '0')
  else if top ≥ 0 then
    String.ofList (ds.take (top.toNat + 1)) ++ "." ++ String.ofList (ds.drop (top.toNat + 1))
  else "0." ++ String.ofList (List.replicate (-top - 1).toNat '0' ++ ds)

def renderPlain (x : Float) : String :=
  if x.isNaN then "NaN"
  else
    let sign := if isNegative x then "-" else ""
    if x.isInf then sign ++ "Infinity"
    else
      let magnitude := Dyadic.ofFloat x
      if magnitude.mantissa = 0 then sign ++ "0"
      else
        let (digits, scale) := stripZeros 20 magnitude.shortest
        sign ++ positional digits scale

/-- What is left of `x` when `y` is taken away as often as possible; it has the sign of `x`. -/
def remainder (x y : Float) : Float :=
  if x.isNaN || y.isNaN || x.isInf || y == 0.0 then 0.0 / 0.0
  else if y.isInf || x == 0.0 then x
  else
    let a := Dyadic.ofFloat x
    let b := Dyadic.ofFloat y
    let low := min a.exponent b.exponent
    let m := (a.mantissa * Nat.pow 2 (a.exponent - low).toNat) % (b.mantissa * Nat.pow 2 (b.exponent - low).toNat)
    let size := Float.scaleB (Float.ofNat m) low
    if isNegative x then -size else size

end Arazzo.Decimal
