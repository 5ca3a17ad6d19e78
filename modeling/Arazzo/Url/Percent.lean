import Arazzo.Text.Utf8
import Arazzo.Text.Scan

/-! Percent-encoding, with the sets of characters that the parts of a URL keep. -/

namespace Arazzo.Percent

def hexDigit (n : Nat) : Char := if n < 10 then Char.ofNat (48 + n) else Char.ofNat (55 + n)

def encodeByte (b : UInt8) : List Char := ['%', hexDigit (b.toNat / 16), hexDigit (b.toNat % 16)]

def encodeWith (keep : Char → Bool) (cs : List Char) : List Char :=
  cs.flatMap fun c => if keep c then [c] else (String.utf8EncodeChar c).flatMap encodeByte

/-- A percent sign without two hexadecimal digits after it stands for itself. -/
def decodeBytes : List Char → List UInt8
  | '%' :: a :: b :: cs =>
    match Text.hexValue? a, Text.hexValue? b with
    | some x, some y => UInt8.ofNat (16 * x + y) :: decodeBytes cs
    | _, _ => 37 :: decodeBytes (a :: b :: cs)
  | c :: cs => String.utf8EncodeChar c ++ decodeBytes cs
  | [] => []

def isPrintable (c : Char) : Bool := 0x20 ≤ c.toNat && c.toNat < 0x7f

def isUnreserved (c : Char) : Bool := c.isAlphanum || c == '-' || c == '.' || c == '_' || c == '~'

def keepsInFragment (c : Char) : Bool := isPrintable c && !(" \"<>`".toList.contains c)

def keepsInQuery (special : Bool) (c : Char) : Bool :=
  isPrintable c && !(" \"#<>".toList.contains c) && !(special && c == '\'')

def keepsInPath (c : Char) : Bool := keepsInFragment c && !("#?\x7b\x7d".toList.contains c)

def keepsInUserinfo (c : Char) : Bool := keepsInPath c && !("/:;=@[\\]^|".toList.contains c)

def component (cs : List Char) : List Char := encodeWith isUnreserved cs

def keepsInForm (c : Char) : Bool := c.isAlphanum || c == '*' || c == '-' || c == '.' || c == '_'

def formChar (c : Char) : List Char := if c = ' ' then ['+'] else encodeWith keepsInForm [c]

def formText (s : String) : List Char := s.toList.flatMap formChar

def form (pairs : List (String × String)) : List Char :=
  Text.joinWith ['&'] (pairs.map fun (name, value) => formText name ++ '=' :: formText value)

end Arazzo.Percent
