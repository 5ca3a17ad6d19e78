import Arazzo.Document.Basic
import Arazzo.Pointer
import Arazzo.Text.Blank

/-! References into a document's components, and following them to what they stand for. -/

namespace Arazzo

inductive Pool where
  | inputs
  | parameters
  | successActions
  | failureActions
deriving DecidableEq, Repr

namespace Pool

def keyword : Pool → String
  | .inputs => "inputs"
  | .parameters => "parameters"
  | .successActions => "successActions"
  | .failureActions => "failureActions"

def ofKeyword? : String → Option Pool
  | "inputs" => some .inputs
  | "parameters" => some .parameters
  | "successActions" => some .successActions
  | "failureActions" => some .failureActions
  | _ => none

end Pool

structure ComponentRef where
  pool : Pool
  name : String
deriving DecidableEq, Repr

inductive ReferenceError where
  | malformed (reference : String)
  | wrongPool (reference : String) (expected : Pool)
  | noComponents (reference : String)
  | notFound (reference : String)
  | cycle (names : List String)
deriving DecidableEq

namespace ReferenceError

def message : ReferenceError → String
  | .malformed r => "`" ++ r ++ "` is not a components reference"
  | .wrongPool r expected => "`" ++ r ++ "` must point into components." ++ expected.keyword
  | .noComponents r => "`" ++ r ++ "` cannot be resolved: the document has no components"
  | .notFound r => "`" ++ r ++ "` does not name an existing component"
  | .cycle names => "reference cycle: " ++ String.intercalate " -> " names

end ReferenceError

namespace ComponentRef

def parts? (cs : List Char) : Option (List Char × List Char) :=
  match Text.afterLead? "$components.".toList cs with
  | some rest => Text.splitOnce? '.' rest
  | none =>
    match Text.afterLead? "#/components/".toList cs with
    | some rest =>
      (Text.splitOnce? '/' rest).map fun (pool, name) =>
        (Pointer.unescapeChars pool, Pointer.unescapeChars name)
    | none => none

def ofParts? (pool name : List Char) : Option ComponentRef :=
  if name.isEmpty || name.contains '/' then none
  else (Pool.ofKeyword? (String.ofList pool)).map fun pool => ⟨pool, String.ofList name⟩

def parse (text : String) : Except ReferenceError ComponentRef :=
  let trimmed := Text.trimChars text.toList
  match (parts? trimmed).bind fun (pool, name) => ofParts? pool name with
  | some ref => .ok ref
  | none => .error (.malformed (String.ofList trimmed))

end ComponentRef

namespace Table

variable {α : Type}

theorem length_erase_lt {key : String} {value : α} {table : Table α}
    (h : Table.get? key table = some value) : (Table.erase key table).length < table.length := by
  induction table with
  | nil => simp [Table.get?] at h
  | cons entry rest ih =>
    obtain ⟨k, v⟩ := entry
    by_cases hk : k = key
    · simp [Table.erase, hk]
    · simp only [Table.get?, hk, if_false] at h
      simp only [Table.erase, hk, if_false, List.length_cons]
      exact Nat.succ_lt_succ (ih h)

end Table

namespace Component

variable {α : Type}

/--
Follows references through a pool to a concrete entry, and keeps the first value on the way.
`visited` holds the names so far; `open` holds the entries that were not visited yet.
-/
def followFrom (expected : Pool) (visited : List String) (unvisited : Table (Entry α))
    (reference : String) (value : Option Json) : Except ReferenceError (α × Option Json) :=
  match ComponentRef.parse reference with
  | .error error => .error error
  | .ok target =>
    if target.pool ≠ expected then .error (.wrongPool reference expected)
    else if target.name ∈ visited then .error (.cycle (visited ++ [target.name]))
    else
      match _h : Table.get? target.name unvisited with
      | none => .error (.notFound reference)
      | some (.concrete found) => .ok (found, value)
      | some (.reusable next) =>
        followFrom expected (visited ++ [target.name]) (Table.erase target.name unvisited)
          next.reference (value.or next.value)
termination_by unvisited.length
decreasing_by exact Table.length_erase_lt _h

def follow (expected : Pool) (pool : Table (Entry α)) (start : Reusable) :
    Except ReferenceError (α × Option Json) :=
  followFrom expected [] pool start.reference start.value

def resolve (expected : Pool) (pool : Components → Table (Entry α))
    (components : Option Components) : Entry α → Except ReferenceError (α × Option Json)
  | .concrete found => .ok (found, none)
  | .reusable start =>
    match components with
    | none => .error (.noComponents start.reference)
    | some components => follow expected (pool components) start

def resolveParameter (components : Option Components) (entry : Entry Parameter) :
    Except ReferenceError Parameter :=
  (resolve .parameters Components.parameters components entry).map fun (found, value) =>
    match value with
    | some value => { found with value }
    | none => found

def resolveSuccessAction (components : Option Components) (entry : Entry SuccessAction) :
    Except ReferenceError SuccessAction :=
  (resolve .successActions Components.successActions components entry).map (·.1)

def resolveFailureAction (components : Option Components) (entry : Entry FailureAction) :
    Except ReferenceError FailureAction :=
  (resolve .failureActions Components.failureActions components entry).map (·.1)

end Component
end Arazzo
