import Arazzo.Json.Basic
import Arazzo.Decimal.Binary
import Arazzo.Text.Scan

/-! JSON texts read as values; nesting beyond 127 levels is refused. -/

namespace Arazzo.Json

def isSpace (c : Char) : Bool := c == ' ' || c == '\t' || c == '\n' || c == '\r'

def skipSpace (cs : List Char) : List Char := cs.dropWhile isSpace

def hexQuad? : List Char → Option (Nat × List Char)
  | a :: b :: c :: d :: rest => do
    let a ← Text.hexValue? a
    let b ← Text.hexValue? b
    let c ← Text.hexValue? c
    let d ← Text.hexValue? d
    some (((a * 16 + b) * 16 + c) * 16 + d, rest)
  | _ => none

def unicodeEscape? (cs : List Char) : Option (Char × List Char) := do
  let (n, rest) ← hexQuad? cs
  if 0xDC00 ≤ n ∧ n ≤ 0xDFFF then none
  else if 0xD800 ≤ n ∧ n ≤ 0xDBFF then
    match rest with
    | '\\' :: 'u' :: more =>
      let (low, rest) ← hexQuad? more
      if 0xDC00 ≤ low ∧ low ≤ 0xDFFF then
        some (Char.ofNat (0x10000 + (n - 0xD800) * 0x400 + (low - 0xDC00)), rest)
      else none
    | _ => none
  else some (Char.ofNat n, rest)

def escape? : List Char → Option (Char × List Char)
  | '"' :: rest => some ('"', rest)
  | '\\' :: rest => some ('\\', rest)
  | '/' :: rest => some ('/', rest)
  | 'b' :: rest => some (Char.ofNat 8, rest)
  | 'f' :: rest => some (Char.ofNat 12, rest)
  | 'n' :: rest => some ('\n', rest)
  | 'r' :: rest => some ('\r', rest)
  | 't' :: rest => some ('\t', rest)
  | 'u' :: rest => unicodeEscape? rest
  | _ => none

def stringBody? : Nat → List Char → List Char → Option (String × List Char)
  | 0, _, _ => none
  | _, _, [] => none
  | fuel + 1, acc, c :: cs =>
    if c = '"' then some (String.ofList acc.reverse, cs)
    else if c = '\\' then
      match escape? cs with
      | some (d, rest) => stringBody? fuel (d :: acc) rest
      | none => none
    else if c.toNat < 32 then none
    else stringBody? fuel (c :: acc) cs

def string? : List Char → Option (String × List Char)
  | '"' :: rest => stringBody? (rest.length + 1) [] rest
  | _ => none

def wordLimit : Nat := Nat.pow 2 64

/-- `significand * 10 ^ exponent` by one multiplication or division of doubles, in steps of 308 for
tiny numbers. -/
def scaled? : Nat → Float → Int → Option Float
  | 0, _, _ => none
  | fuel + 1, x, exponent =>
    if exponent.natAbs ≤ 308 then
      let power := Float.ofScientific 1 false exponent.natAbs
      if exponent ≥ 0 then
        let y := x * power
        if y.isInf then none else some y
      else some (x / power)
    else if x == 0.0 then some x
    else if exponent ≥ 0 then none
    else scaled? fuel (x / 1e308) (exponent + 308)

def floatOf? (negative : Bool) (significand : Nat) (exponent : Int) : Option Number := do
  let x ← if exponent < -100000 then some 0.0 else scaled? 400 significand.toUInt64.toFloat exponent
  some (.float (if negative then -x else x))

/-- Digits are taken into the significand as long as it fits 64 bits; the others only count. -/
def takeDigits : Nat → Nat → List Char → Nat × Nat × List Char
  | significand, taken, [] => (significand, taken, [])
  | significand, taken, c :: cs =>
    if c.isDigit then
      let next := significand * 10 + (c.toNat - 48)
      if next < wordLimit then takeDigits next (taken + 1) cs else (significand, taken, c :: cs)
    else (significand, taken, c :: cs)

def exponentPart? (negative : Bool) (significand : Nat) (start : Int) (cs : List Char) :
    Option (Number × List Char) :=
  let (down, cs) := match cs with
    | '-' :: rest => (true, rest)
    | '+' :: rest => (false, rest)
    | rest => (false, rest)
  let digits := cs.takeWhile Char.isDigit
  let rest := cs.dropWhile Char.isDigit
  if digits.isEmpty then none
  else
    let size : Nat := digits.foldl (fun n c => n * 10 + (c.toNat - 48)) 0
    if size ≥ Nat.pow 2 31 then
      if significand ≠ 0 ∧ !down then none
      else some (.float (if negative then -0.0 else 0.0), rest)
    else
      let shift : Int := if down then -(size : Int) else size
      (floatOf? negative significand (start + shift)).map (·, rest)

def afterFraction? (negative : Bool) (significand : Nat) (exponent : Int) :
    List Char → Option (Number × List Char)
  | 'e' :: rest => exponentPart? negative significand exponent rest
  | 'E' :: rest => exponentPart? negative significand exponent rest
  | rest => (floatOf? negative significand exponent).map (·, rest)

def fractionPart? (negative : Bool) (significand : Nat) (start : Int) (cs : List Char) :
    Option (Number × List Char) :=
  let (significand, taken, rest) := takeDigits significand 0 cs
  let more := rest.takeWhile Char.isDigit
  if taken = 0 ∧ more.isEmpty then none
  else afterFraction? negative significand (start - taken) (rest.dropWhile Char.isDigit)

def wholeNumber (negative : Bool) (significand : Nat) : Number :=
  if !negative then .int significand
  else if significand = 0 then .float (-0.0)
  else if significand ≤ Nat.pow 2 63 then .int (-(significand : Int))
  else .float (-significand.toUInt64.toFloat)

def afterWhole? (negative : Bool) (significand : Nat) : List Char → Option (Number × List Char)
  | '.' :: rest => fractionPart? negative significand 0 rest
  | 'e' :: rest => exponentPart? negative significand 0 rest
  | 'E' :: rest => exponentPart? negative significand 0 rest
  | rest => some (wholeNumber negative significand, rest)

/-- A whole part too long for 64 bits: the digits left over become the exponent. -/
def afterLongWhole? (negative : Bool) (significand : Nat) (cs : List Char) :
    Option (Number × List Char) :=
  let extra : Int := (cs.takeWhile Char.isDigit).length
  match cs.dropWhile Char.isDigit with
  | '.' :: rest => fractionPart? negative significand extra rest
  | rest => afterFraction? negative significand extra rest

def number? (negative : Bool) : List Char → Option (Number × List Char)
  | '0' :: rest =>
    match rest with
    | c :: _ => if c.isDigit then none else afterWhole? negative 0 rest
    | [] => afterWhole? negative 0 []
  | cs =>
    let (significand, taken, rest) := takeDigits 0 0 cs
    if taken = 0 then none
    else if (rest.head?.map Char.isDigit).getD false then afterLongWhole? negative significand rest
    else afterWhole? negative significand rest

def items? (item? : List Char → Option (Json × List Char)) :
    Nat → List Char → Option (List Json × List Char)
  | 0, _ => none
  | fuel + 1, cs => do
    let (item, rest) ← item? (skipSpace cs)
    match skipSpace rest with
    | ',' :: rest => let (items, rest) ← items? item? fuel rest; some (item :: items, rest)
    | ']' :: rest => some ([item], rest)
    | _ => none

def members? (value? : List Char → Option (Json × List Char)) :
    Nat → List Char → Option (List (String × Json) × List Char)
  | 0, _ => none
  | fuel + 1, cs => do
    let (key, rest) ← string? (skipSpace cs)
    match skipSpace rest with
    | ':' :: rest =>
      let (value, rest) ← value? (skipSpace rest)
      match skipSpace rest with
      | ',' :: rest =>
        let (members, rest) ← members? value? fuel rest
        some ((key, value) :: members, rest)
      | '\x7d' :: rest => some ([(key, value)], rest)
      | _ => none
    | _ => none

def value? : Nat → List Char → Option (Json × List Char)
  | depth, cs =>
    match cs with
    | '"' :: rest => (stringBody? (rest.length + 1) [] rest).map fun (s, rest) => (.str s, rest)
    | '-' :: rest => (number? true rest).map fun (n, rest) => (.num n, rest)
    | 't' :: 'r' :: 'u' :: 'e' :: rest => some (.bool true, rest)
    | 'f' :: 'a' :: 'l' :: 's' :: 'e' :: rest => some (.bool false, rest)
    | 'n' :: 'u' :: 'l' :: 'l' :: rest => some (.null, rest)
    | '[' :: rest =>
      match depth with
      | 0 => none
      | depth + 1 =>
        match skipSpace rest with
        | ']' :: rest => some (.arr [], rest)
        | rest =>
          (items? (value? depth) (rest.length + 1) rest).map fun (items, rest) => (.arr items, rest)
    | '\x7b' :: rest =>
      match depth with
      | 0 => none
      | depth + 1 =>
        match skipSpace rest with
        | '\x7d' :: rest => some (.obj [], rest)
        | rest =>
          (members? (value? depth) (rest.length + 1) rest).map fun (members, rest) =>
            (ofMembers members, rest)
    | cs => (number? false cs).map fun (n, rest) => (.num n, rest)

def maxDepth : Nat := 127

def parse? (text : String) : Option Json :=
  match value? maxDepth (skipSpace text.toList) with
  | some (value, rest) => if (skipSpace rest).isEmpty then some value else none
  | none => none

end Arazzo.Json
