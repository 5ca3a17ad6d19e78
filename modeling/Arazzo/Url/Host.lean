import Arazzo.Text.Case
import Arazzo.Url.Percent
import Arazzo.Url.Punycode

/-! Hosts: domain names and addresses. -/

namespace Arazzo

inductive Host where
  | domain (name : String)
  | ipv4 (address : Nat)
  | ipv6 (pieces : List Nat)
deriving DecidableEq, Repr

namespace Host

/-- A number in decimal, after `0x` in hexadecimal, after `0` in octal. -/
def readNumber? : List Char → Option Nat
  | [] => none
  | '0' :: 'x' :: cs => Text.readDigits? 16 Text.hexValue? cs
  | '0' :: 'X' :: cs => Text.readDigits? 16 Text.hexValue? cs
  | '0' :: c :: cs => Text.readDigits? 8 Text.digitValue? (c :: cs)
  | cs => Text.readDigits? 10 Text.digitValue? cs

/-- The labels of a name; a dot at the end adds none. -/
def labels (cs : List Char) : List (List Char) :=
  match (Text.splitAll '.' cs).reverse with
  | [] :: a :: rest => (a :: rest).reverse
  | parts => parts.reverse

def endsInNumber (cs : List Char) : Bool :=
  match (labels cs).getLast? with
  | some part => (!part.isEmpty && part.all Char.isDigit) || (readNumber? part).isSome
  | none => false

/-- All numbers but the last are single bytes; the last fills what is left. -/
def joinNumbers? (numbers : List Nat) : Option Nat :=
  match numbers.reverse with
  | [] => none
  | last :: before =>
    if before.length > 3 || before.any (· > 255) || last ≥ Nat.pow 256 (4 - before.length) then none
    else some (last + (before.reverse.zipIdx.map fun (n, i) => n * Nat.pow 256 (3 - i)).foldl (· + ·) 0)

def readIpv4? (cs : List Char) : Option Nat := ((labels cs).mapM readNumber?).bind joinNumbers?

def ipv4Text (address : Nat) : String :=
  String.intercalate "." ([16777216, 65536, 256, 1].map fun unit => toString (address / unit % 256))

def readPiece? (cs : List Char) : Option Nat :=
  if cs.isEmpty || cs.length > 4 then none else Text.readDigits? 16 Text.hexValue? cs

def readByte? (cs : List Char) : Option Nat :=
  match cs with
  | '0' :: _ :: _ => none
  | _ => (Text.readNat? cs).bind fun n => if n ≤ 255 then some n else none

def readPieces? : List (List Char) → Option (List Nat)
  | [] => some []
  | [part] =>
    if part.contains '.' then
      match (Text.splitAll '.' part).mapM readByte? with
      | some [a, b, c, d] => some [256 * a + b, 256 * c + d]
      | _ => none
    else (readPiece? part).map fun n => [n]
  | part :: rest => do
    let n ← readPiece? part
    return n :: (← readPieces? rest)

def readSide? (cs : List Char) : Option (List Nat) :=
  if cs.isEmpty then some [] else readPieces? (Text.splitAll ':' cs)

def cutColons? : List Char → Option (List Char × List Char)
  | ':' :: ':' :: cs => some ([], cs)
  | c :: cs => (cutColons? cs).map fun (before, after) => (c :: before, after)
  | [] => none

def readIpv6? (cs : List Char) : Option (List Nat) :=
  match cutColons? cs with
  | none => (readSide? cs).bind fun pieces => if pieces.length = 8 then some pieces else none
  | some (before, after) => do
    if before.contains '.' then none
    let first ← readSide? before
    let second ← readSide? after
    let missing := 8 - (first.length + second.length)
    if missing = 0 then none else return first ++ List.replicate missing 0 ++ second

def zerosAt (pieces : List Nat) (i : Nat) : Nat := ((pieces.drop i).takeWhile (· == 0)).length

/-- The first of the longest runs of two zeros or more. -/
def longestZeros? (pieces : List Nat) : Option (Nat × Nat) :=
  (List.range pieces.length).foldl
    (fun best i =>
      let n := zerosAt pieces i
      if n ≥ 2 && n > (best.map (·.2)).getD 0 then some (i, n) else best)
    none

def piecesText (pieces : List Nat) : String :=
  String.intercalate ":" (pieces.map fun n => String.ofList (Nat.toDigits 16 n))

def ipv6Text (pieces : List Nat) : String :=
  match longestZeros? pieces with
  | none => piecesText pieces
  | some (i, n) => piecesText (pieces.take i) ++ "::" ++ piecesText (pieces.drop (i + n))

def isForbidden (c : Char) : Bool :=
  c.toNat ≤ 0x20 || c.toNat == 0x7f || "#%/:<>?@[\\]^|".toList.contains c

def allowed? (name : List Char) : Option String :=
  if name.isEmpty || name.any isForbidden then none else some (String.ofList name)

def isEncoded (label : List Char) : Bool := Text.startsWith "xn--".toList (label.map Text.asciiLower)

def isPlainName (cs : List Char) : Bool :=
  cs.all (·.toNat < 128) && (Text.splitAll '.' cs).all fun label => !isEncoded label

end Host

/-- How a domain name is written in ASCII. That is a matter of tables of characters, except where the
name is plain. -/
structure Naming where
  ascii? : List Char → Option String
  plain : ∀ cs, Host.isPlainName cs = true → ascii? cs = Host.allowed? (cs.map Text.asciiLower)

namespace Naming

/-- Full stops of other scripts separate labels too, wide forms of ASCII stand for it, and soft hyphens
are dropped. -/
def normalChar (c : Char) : List Char :=
  if c = '\u3002' ∨ c = '\uff61' then ['.']
  else if c = '\u00ad' then []
  else if 0xff01 ≤ c.toNat ∧ c.toNat ≤ 0xff5e then [Char.ofNat (c.toNat - 0xfee0)]
  else [c]

/-- A label that says it stands for others has to say for which. -/
def asciiLabel? (label : List Char) : Option (List Char) :=
  if label == "xn--".toList then none
  else if label.all (·.toNat < 128) then some label
  else some ("xn--".toList ++ Punycode.encode label)

/-- Lower case and Punycode; other mappings of characters are left out. -/
def encoded? (cs : List Char) : Option String := do
  let lower := (Text.toLower (String.ofList (cs.flatMap normalChar))).toList
  let labels ← (Text.splitAll '.' lower).mapM asciiLabel?
  Host.allowed? (Text.joinWith ['.'] labels)

def punycode : Naming where
  ascii? cs := if Host.isPlainName cs then Host.allowed? (cs.map Text.asciiLower) else encoded? cs
  plain _ h := if_pos h

end Naming

namespace Host

def readDomain? (naming : Naming) (cs : List Char) : Option String :=
  (Text.decode? (Percent.decodeBytes cs)).bind naming.ascii?

def bracketed? (cs : List Char) : Option (List Char) :=
  match cs with
  | '[' :: rest => some rest
  | _ => none

def readBracketed? (rest : List Char) : Option Host :=
  if rest.getLast? = some ']' then (readIpv6? rest.dropLast).map .ipv6 else none

def read? (naming : Naming) (cs : List Char) : Option Host :=
  match bracketed? cs with
  | some rest => readBracketed? rest
  | none => do
    let name ← readDomain? naming cs
    if endsInNumber name.toList then (readIpv4? name.toList).map .ipv4 else some (.domain name)

def isForbiddenOpaque (c : Char) : Bool :=
  c.toNat = 0 || "\t\n\r #/:<>?@[\\]^|".toList.contains c

def readOpaque? (cs : List Char) : Option Host :=
  match bracketed? cs with
  | some rest => readBracketed? rest
  | none =>
    if cs.any isForbiddenOpaque then none
    else some (.domain (String.ofList (Percent.encodeWith Percent.isPrintable cs)))

def text : Host → String
  | .domain name => name
  | .ipv4 address => ipv4Text address
  | .ipv6 pieces => "[" ++ ipv6Text pieces ++ "]"

end Host
end Arazzo
