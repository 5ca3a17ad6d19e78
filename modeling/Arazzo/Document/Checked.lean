import Arazzo.Diagnostic
import Arazzo.Document.Basic
import Arazzo.Json.Writer
import Arazzo.Text.Scan

/-! Results together with the faults found on the way to them, and readers of one object's members. -/

namespace Arazzo

structure Checked (α : Type) where
  value : α
  diagnostics : List Diagnostic

namespace Checked

variable {α β : Type}

protected def pure (value : α) : Checked α := ⟨value, []⟩

/-- The faults of the first part come before those of the second. -/
protected def bind (first : Checked α) (next : α → Checked β) : Checked β :=
  let second := next first.value
  ⟨second.value, first.diagnostics ++ second.diagnostics⟩

instance : Monad Checked where
  pure := Checked.pure
  bind := Checked.bind

def report (fault : Fault) (location : Place) (key : Option PlaceStep) : Checked Unit :=
  ⟨(), [⟨fault, location, key⟩]⟩

end Checked

structure ObjectReader where
  members : Table Json
  location : Place

namespace ObjectReader

def report (reader : ObjectReader) (fault : Fault) (key : String) : Checked Unit :=
  Checked.report fault reader.location (some (.member key))

def child (reader : ObjectReader) (key : String) : Place := reader.location ++ [.member key]

def open? (value : Json) (location : Place) (key : Option PlaceStep) (required : Bool) :
    Checked (Option ObjectReader) :=
  match value with
  | .obj members => pure (some ⟨members, location ++ key.toList⟩)
  | _ => do
    Checked.report (.wrongKind "object" required) location key
    return none

def raw? (reader : ObjectReader) (key : String) : Option Json := Table.get? key reader.members

def member? {α : Type} (kind? : Json → Option α) (expected : String) (required : Bool)
    (reader : ObjectReader) (key : String) : Checked (Option α) :=
  match reader.raw? key with
  | none => do
    if required then reader.report .missing key
    return none
  | some value =>
    match kind? value with
    | some found => pure (some found)
    | none => do
      reader.report (.wrongKind expected required) key
      return none

def required? (reader : ObjectReader) (key : String) : Checked (Option Json) :=
  reader.member? some "" true key

def versionText? : Json → Option String
  | .str s => some s
  | .num n => some (n.render)
  | _ => none

def smallNat? (value : Json) : Option Nat :=
  value.asNat?.bind fun n => if n < Nat.pow 2 32 then some n else none

def requiredText (reader : ObjectReader) (key : String) : Checked String := do
  return (← reader.member? Json.asStr? "string" true key).getD ""

def optionalText (reader : ObjectReader) (key : String) : Checked (Option String) :=
  reader.member? Json.asStr? "string" false key

def version (reader : ObjectReader) (key : String) : Checked String := do
  return (← reader.member? versionText? "string" true key).getD ""

def optionalNumber (reader : ObjectReader) (key : String) : Checked (Option Float) :=
  reader.member? (fun v => v.asNum?.map Json.Number.toFloat) "number" false key

def optionalNat (reader : ObjectReader) (key : String) : Checked (Option Nat) :=
  reader.member? smallNat? "integer" false key

def optionalItems (reader : ObjectReader) (key : String) : Checked (Option (List Json)) :=
  reader.member? Json.asArr? "array" false key

def requiredItems (reader : ObjectReader) (key : String) : Checked (Option (List Json)) :=
  reader.member? Json.asArr? "array" true key

def optionalMembers (reader : ObjectReader) (key : String) : Checked (Option (Table Json)) :=
  reader.member? Json.asObj? "object" false key

/-- Reads the items of a list in order and keeps those that could be read. -/
def readItems {α : Type} (read : Json → Place → Option PlaceStep → Checked (Option α))
    (location : Place) : Nat → List Json → Checked (List α)
  | _, [] => pure []
  | i, item :: rest => do
    let first ← read item location (some (.item i))
    let others ← readItems read location (i + 1) rest
    return first.toList ++ others

def readEntries {α : Type} (read : Json → Place → Option PlaceStep → Checked (Option α))
    (location : Place) : Table Json → Checked (Table α)
  | [] => pure []
  | (name, value) :: rest => do
    let first ← read value location (some (.member name))
    let others ← readEntries read location rest
    return (first.map fun v => (name, v)).toList ++ others

def optionalList {α : Type} (read : Json → Place → Option PlaceStep → Checked (Option α))
    (reader : ObjectReader) (key : String) : Checked (List α) := do
  match ← reader.optionalItems key with
  | some items => readItems read (reader.child key) 0 items
  | none => return []

def requiredList {α : Type} (read : Json → Place → Option PlaceStep → Checked (Option α))
    (reader : ObjectReader) (key : String) : Checked (List α) := do
  match ← reader.requiredItems key with
  | some items => readItems read (reader.child key) 0 items
  | none => return []

def optionalTable {α : Type} (read : Json → Place → Option PlaceStep → Checked (Option α))
    (reader : ObjectReader) (key : String) : Checked (Table α) := do
  match ← reader.optionalMembers key with
  | some members => readEntries read (reader.child key) members
  | none => return []

def optionalPart {α : Type} (read : Json → Place → Checked (Option α)) (reader : ObjectReader)
    (key : String) : Checked (Option α) :=
  match reader.raw? key with
  | some value => read value reader.location
  | none => pure none

def requiredPart {α : Type} (read : Json → Place → Checked (Option α)) (reader : ObjectReader)
    (key : String) : Checked (Option α) := do
  match ← reader.required? key with
  | some value => read value reader.location
  | none => return none

def readText (value : Json) (location : Place) (key : Option PlaceStep) :
    Checked (Option String) :=
  match value with
  | .str s => pure (some s)
  | _ => do
    Checked.report (.wrongKind "string" false) location key
    return none

def isExtensionKey (key : String) : Bool := Text.startsWith "x-".toList key.toList

def isReservedKey (key : String) : Bool :=
  ["x-oai-", "x-oas-", "x-arazzo-"].any fun lead => Text.startsWith lead.toList key.toList

def keepExtension (permitReserved : Bool) (location : Place) (key : String) (value : Json) :
    Checked Extensions :=
  if !permitReserved && isReservedKey key then do
    Checked.report .reserved location (some (.member key))
    return []
  else pure [(key, value)]

/-- Extensions among the members; any other unknown member is extra. -/
def ownExtensions (permitReserved : Bool) (allowed : List String) (location : Place) :
    Table Json → Checked Extensions
  | [] => pure []
  | (key, value) :: rest => do
    let first ←
      if allowed.contains key then pure []
      else if isExtensionKey key then keepExtension permitReserved location key value
      else do
        unless key == "extensions" do Checked.report .extra location (some (.member key))
        pure []
    let others ← ownExtensions permitReserved allowed location rest
    return first ++ others

def nestedExtensions (permitReserved : Bool) (location : Place) : Table Json → Checked Extensions
  | [] => pure []
  | (key, value) :: rest => do
    let first ←
      if isExtensionKey key then keepExtension permitReserved location key value
      else do
        Checked.report .extra location (some (.member key))
        pure []
    let others ← nestedExtensions permitReserved location rest
    return first ++ others

/-- The extensions of an object: its own, or those under `extensions` when it has none of its own. -/
def extensions (permitReserved : Bool) (allowed : List String) (reader : ObjectReader) :
    Checked Extensions := do
  let own ← ownExtensions permitReserved allowed reader.location reader.members
  if own.isEmpty then
    match reader.raw? "extensions" with
    | some (.obj members) => nestedExtensions permitReserved (reader.child "extensions") members
    | some _ =>
      reader.report (.wrongKind "object" false) "extensions"
      return []
    | none => return []
  else return own

end ObjectReader
end Arazzo
