/-! Cutting texts at marks. -/

namespace Arazzo.Text

def startsWith (lead cs : List Char) : Bool := lead.isPrefixOf cs

def afterLead? : List Char → List Char → Option (List Char)
  | [], cs => some cs
  | _ :: _, [] => none
  | l :: lead, c :: cs => if l = c then afterLead? lead cs else none

def splitOnce? (mark : Char) : List Char → Option (List Char × List Char)
  | [] => none
  | c :: cs =>
    if c = mark then some ([], cs)
    else (splitOnce? mark cs).map fun (before, after) => (c :: before, after)

def splitAll (mark : Char) : List Char → List (List Char)
  | [] => [[]]
  | c :: cs =>
    if c = mark then [] :: splitAll mark cs
    else
      match splitAll mark cs with
      | [] => [[c]]
      | part :: parts => (c :: part) :: parts

def afterFirst? (needle : List Char) : List Char → Option (List Char)
  | [] => if needle.isEmpty then some [] else none
  | c :: cs =>
    match afterLead? needle (c :: cs) with
    | some rest => some rest
    | none => afterFirst? needle cs

def contains (needle cs : List Char) : Bool := (afterFirst? needle cs).isSome

/-- Every occurrence of `needle`, from the left and without overlap, becomes `by`. -/
def replaceAll (needle replacement : List Char) (cs : List Char) : List Char :=
  if needle.isEmpty then cs else go cs.length cs
where
  go : Nat → List Char → List Char
    | 0, cs => cs
    | _ + 1, [] => []
    | fuel + 1, c :: cs =>
      match afterLead? needle (c :: cs) with
      | some rest => replacement ++ go fuel rest
      | none => c :: go fuel cs

def joinWith (mark : List Char) : List (List Char) → List Char
  | [] => []
  | [part] => part
  | part :: parts => part ++ mark ++ joinWith mark parts

def asciiLower (c : Char) : Char := if 'A' ≤ c ∧ c ≤ 'Z' then Char.ofNat (c.toNat + 32) else c

def asciiUpper (c : Char) : Char := if 'a' ≤ c ∧ c ≤ 'z' then Char.ofNat (c.toNat - 32) else c

def toAsciiLower (s : String) : String := s.map asciiLower

def sameIgnoringCase (a b : String) : Bool := toAsciiLower a == toAsciiLower b

def digitValue? (c : Char) : Option Nat :=
  if '0' ≤ c ∧ c ≤ '9' then some (c.toNat - 48) else none

def hexValue? (c : Char) : Option Nat :=
  if '0' ≤ c ∧ c ≤ '9' then some (c.toNat - 48)
  else if 'a' ≤ c ∧ c ≤ 'f' then some (c.toNat - 87)
  else if 'A' ≤ c ∧ c ≤ 'F' then some (c.toNat - 55)
  else none

def readDigits? (base : Nat) (value? : Char → Option Nat) (cs : List Char) : Option Nat :=
  cs.foldl (fun acc c => do
    let n ← acc
    let d ← value? c
    if d < base then some (n * base + d) else none) (some 0)

def readNat? (cs : List Char) : Option Nat :=
  if cs.isEmpty then none else readDigits? 10 digitValue? cs

def readSignedNat? (limit : Nat) (cs : List Char) : Option Nat :=
  let digits := match cs with
    | '+' :: rest => rest
    | rest => rest
  (readNat? digits).bind fun n => if n ≤ limit then some n else none

end Arazzo.Text
