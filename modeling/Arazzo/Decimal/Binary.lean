/-! Finite doubles as a whole number times a power of two, and decimals as the nearest double. -/

namespace Arazzo.Decimal

structure Dyadic where
  mantissa : Nat
  exponent : Int

def Dyadic.ofFloat (x : Float) : Dyadic :=
  let bits : Nat := x.toBits.toNat
  let field : Nat := bits / Nat.pow 2 52 % Nat.pow 2 11
  let fraction : Nat := bits % Nat.pow 2 52
  if field = 0 then ⟨fraction, -1074⟩ else ⟨fraction + Nat.pow 2 52, (field : Int) - 1075⟩

def isNegative (x : Float) : Bool := x.toBits.toNat / Nat.pow 2 63 == 1

def digitCount (n : Nat) : Nat := (Nat.toDigits 10 n).length

/-- The double nearest to `digits * 10 ^ exponent`; a huge exponent saturates. -/
def nearest (digits : Nat) (exponent : Int) : Float :=
  if digits = 0 then 0.0
  else
    let top := exponent + digitCount digits
    if top > 320 then 1.0 / 0.0
    else if top < -340 then 0.0
    else if exponent ≥ 0 then Float.ofScientific digits false exponent.toNat
    else Float.ofScientific digits true (-exponent).toNat

/-- Reads `[sign] (digits [. digits] | . digits) [e [sign] digits]`, or an infinity or a NaN by name. -/
def float? (text : List Char) : Option Float :=
  let (negative, body) := match text with
    | '-' :: rest => (true, rest)
    | '+' :: rest => (false, rest)
    | rest => (false, rest)
  let signed (x : Float) : Float := if negative then -x else x
  let name := String.ofList (body.map Char.toLower)
  if name == "inf" || name == "infinity" then some (signed (1.0 / 0.0))
  else if name == "nan" then some (0.0 / 0.0)
  else
    let whole := body.takeWhile Char.isDigit
    let rest := body.dropWhile Char.isDigit
    let (fraction, rest) := match rest with
      | '.' :: more => (more.takeWhile Char.isDigit, more.dropWhile Char.isDigit)
      | more => ([], more)
    if whole.isEmpty && fraction.isEmpty then none
    else
      let digits := (whole ++ fraction).foldl (fun n c => n * 10 + (c.toNat - 48)) 0
      let scaled (shift : Int) : Option Float := some (signed (nearest digits (shift - fraction.length)))
      match rest with
      | [] => scaled 0
      | e :: more =>
        if e != 'e' && e != 'E' then none
        else
          let (down, more) := match more with
            | '-' :: tail => (true, tail)
            | '+' :: tail => (false, tail)
            | tail => (false, tail)
          if more.isEmpty || !more.all Char.isDigit then none
          else
            let size : Int := more.foldl (fun n c => n * 10 + (c.toNat - 48)) 0
            scaled (if down then -size else size)

end Arazzo.Decimal
