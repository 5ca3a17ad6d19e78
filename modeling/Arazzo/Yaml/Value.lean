import Arazzo.Yaml.Node
import Arazzo.Json.Basic
import Arazzo.Decimal.Binary

/-! JSON values of YAML documents: plain scalars are read by the core schema, and every key is text. -/

namespace Arazzo.Yaml

namespace Scalar

def isNull (text : String) : Bool := ["null", "Null", "NULL", "~"].contains text

def bool? (text : String) : Option Bool :=
  if ["true", "True", "TRUE"].contains text then some true
  else if ["false", "False", "FALSE"].contains text then some false
  else none

/-- Digits after a leading zero are text, not a number. -/
def isPaddedDigits (cs : List Char) : Bool :=
  let cs := match cs with
    | '-' :: rest => rest
    | '+' :: rest => rest
    | rest => rest
  match cs with
  | '0' :: d :: rest => (d :: rest).all Char.isDigit
  | _ => false

def startsSigned : List Char → Bool
  | '+' :: _ => true
  | '-' :: _ => true
  | _ => false

def based? : List Char → Option (Nat × List Char)
  | '0' :: 'x' :: digits => some (16, digits)
  | '0' :: 'o' :: digits => some (8, digits)
  | '0' :: 'b' :: digits => some (2, digits)
  | _ => none

def digits? (limit base : Nat) (cs : List Char) : Option Nat :=
  if cs.isEmpty then none
  else (Text.readDigits? base Text.hexValue? cs).bind fun n => if n ≤ limit then some n else none

def natural? (limit : Nat) (cs : List Char) : Option Int :=
  let bare := match cs with
    | '+' :: rest => rest
    | rest => rest
  let prefixed := (based? bare).bind fun (base, digits) => digits? limit base digits
  match prefixed with
  | some n => some n
  | none =>
    if startsSigned bare || isPaddedDigits cs then none
    else (digits? limit 10 bare).map fun n => (n : Int)

def negative? (limit : Nat) (cs : List Char) : Option Int :=
  match cs with
  | '-' :: bare =>
    let prefixed := (based? bare).bind fun (base, digits) => digits? limit base digits
    match prefixed with
    | some n => some (-(n : Int))
    | none => if isPaddedDigits cs then none else (digits? limit 10 bare).map fun n => -(n : Int)
  | _ => none

/-- A whole number; `some none` when it is written well but lies beyond what a value can hold. -/
def int? (text : String) : Option (Option Int) :=
  let cs := text.toList
  match natural? (Nat.pow 2 64 - 1) cs, negative? (Nat.pow 2 63) cs with
  | some n, _ => some (some n)
  | none, some n => some (some n)
  | none, none =>
    if (natural? (Nat.pow 2 128 - 1) cs).isSome || (negative? (Nat.pow 2 127) cs).isSome then some none else none

def float? (text : String) : Option Json :=
  let bare := match text.toList with
    | '+' :: rest => rest
    | rest => rest
  if bare.length < text.length && startsSigned bare then none
  else if [".inf", ".Inf", ".INF"].contains (String.ofList bare) ||
      ["-.inf", "-.Inf", "-.INF", ".nan", ".NaN", ".NAN"].contains text then some .null
  else
    match Decimal.float? bare with
    | some x => if x.isFinite then some (.num (.float x)) else none
    | none => none

def int (text : String) : Option Json :=
  match int? text with
  | some (some n) => some (Json.ofInt n)
  | _ => none

def plainValue? (text : String) : Option Json :=
  if text.isEmpty || isNull text then some .null
  else
    match bool? text, int? text with
    | some b, _ => some (.bool b)
    | none, some (some n) => some (Json.ofInt n)
    | none, some none => none
    | none, none =>
      if isPaddedDigits text.toList then some (.str text)
      else some ((float? text).getD (.str text))

def value? (tag : Option String) (text : String) (plain : Bool) : Option Json :=
  match tag with
  | none => if plain then plainValue? text else some (.str text)
  | some "tag:yaml.org,2002:bool" => (bool? text).map .bool
  | some "tag:yaml.org,2002:int" => int text
  | some "tag:yaml.org,2002:float" => float? text
  | some "tag:yaml.org,2002:null" => if isNull text then some .null else none
  | some tag => if tag.startsWith "!" then none else some (.str text)

end Scalar

/-- Collections may carry a tag, but none of the document's own kind. -/
def isForeignTag (tag : Option String) : Bool := (tag.map (·.startsWith "!")).getD false

/-- What the reader of a document knows: its anchors, and how many aliases it may still follow. -/
structure Reader where
  anchors : List (Nat × Node)
  aliasesLeft : Nat

namespace Reader

/-- Follows an alias; anchors that share a number lead to the last of them. -/
def follow : Node → StateT Reader Option Node
  | .alias number => do
    let reader ← get
    match reader.aliasesLeft, reader.anchors.reverse.find? (·.1 == number) with
    | left + 1, some (_, node) => do
      set { reader with aliasesLeft := left }
      return bare node
    | _, _ => failure
  | node => return bare node
where
  bare : Node → Node
    | .anchored _ node => bare node
    | node => node

def key (node : Node) : StateT Reader Option String := do
  match ← follow node with
  | .scalar _ text _ => return text
  | _ => failure

def value : Nat → Node → StateT Reader Option Json
  | depth, node => do
    match depth, ← follow node with
    | _, .scalar tag text plain => Scalar.value? tag text plain
    | depth + 1, .sequence tag items =>
      if isForeignTag tag then failure
      return .arr (← items.mapM (value depth))
    | depth + 1, .mapping tag entries =>
      if isForeignTag tag then failure
      let members ← entries.mapM fun (k, v) => do
        let name ← key k
        return (name, ← value depth v)
      return .ofMembers members
    | _, _ => failure

end Reader

def parse? (text : String) : Option Json := do
  let tokens ← tokens? text
  match ← Node.ofTokens? tokens with
  | none => some .null
  | some root =>
    let reader : Reader := ⟨root.anchors, root.markCount * 100⟩
    ((Reader.value 128 root).run reader).map (·.1)

end Arazzo.Yaml
