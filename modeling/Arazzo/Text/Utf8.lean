/-! Texts as bytes in UTF-8, and bytes read back, with or without tolerance for faults. -/

namespace Arazzo.Text

def utf8 (cs : List Char) : List UInt8 := cs.flatMap String.utf8EncodeChar

/-- A character of which some bytes are still to come; the next one lies between two bounds. -/
structure PartialChar where
  value : Nat
  missing : Nat
  lower : Nat
  upper : Nat

namespace PartialChar

/-- What a first byte announces; overlong forms and surrogates are ruled out by the bounds. -/
def ofLead? (b : Nat) : Option PartialChar :=
  if 0xc2 ≤ b ∧ b ≤ 0xdf then some ⟨b - 0xc0, 1, 0x80, 0xbf⟩
  else if b = 0xe0 then some ⟨0, 2, 0xa0, 0xbf⟩
  else if b = 0xed then some ⟨0xd, 2, 0x80, 0x9f⟩
  else if 0xe1 ≤ b ∧ b ≤ 0xef then some ⟨b - 0xe0, 2, 0x80, 0xbf⟩
  else if b = 0xf0 then some ⟨0, 3, 0x90, 0xbf⟩
  else if 0xf1 ≤ b ∧ b ≤ 0xf3 then some ⟨b - 0xf0, 3, 0x80, 0xbf⟩
  else if b = 0xf4 then some ⟨4, 3, 0x80, 0x8f⟩
  else none

end PartialChar

/-- What one byte adds to what came before it: finished characters, `none` for a fault, and what stays
open. -/
def decodeByte (pending : Option PartialChar) (b : Nat) :
    List (Option Char) × Option PartialChar :=
  let fresh : List (Option Char) × Option PartialChar :=
    if b < 0x80 then ([some (Char.ofNat b)], none)
    else
      match PartialChar.ofLead? b with
      | some p => ([], some p)
      | none => ([none], none)
  match pending with
  | none => fresh
  | some p =>
    if p.lower ≤ b ∧ b ≤ p.upper then
      let value := p.value * 64 + b % 64
      if p.missing ≤ 1 then ([some (Char.ofNat value)], none)
      else ([], some ⟨value, p.missing - 1, 0x80, 0xbf⟩)
    else (none :: fresh.1, fresh.2)

/-- The characters of the bytes; each longest start of a character that breaks off is one fault. -/
def decodeFrom (pending : Option PartialChar) : List UInt8 → List (Option Char)
  | [] => if pending.isSome then [none] else []
  | b :: bs =>
    let (done, pending) := decodeByte pending b.toNat
    done ++ decodeFrom pending bs

def decode (bytes : List UInt8) : List (Option Char) := decodeFrom none bytes

def decodeLossy (bytes : List UInt8) : List Char := (decode bytes).map (·.getD '\ufffd')

def decode? (bytes : List UInt8) : Option (List Char) := (decode bytes).mapM id

end Arazzo.Text
