import Arazzo.Place

/-! What can be wrong with a document. -/

namespace Arazzo

inductive Fault where
  | missing
  | wrongKind (expected : String) (required : Bool)
  | extra
  | reserved
  | repeated
  | invalid (reason : String)
  | warning (reason : String)
deriving DecidableEq, Repr

namespace Fault

def name : Fault → String
  | .missing => "missing"
  | .wrongKind .. => "invalidType"
  | .extra => "extra"
  | .reserved => "reserved"
  | .repeated => "unique"
  | .invalid _ => "invalid"
  | .warning _ => "warning"

def isError : Fault → Bool
  | .missing => true
  | .wrongKind _ required => required
  | .extra => false
  | .reserved => true
  | .repeated => true
  | .invalid _ => true
  | .warning _ => false

end Fault

structure Diagnostic where
  fault : Fault
  location : Place
  key : Option PlaceStep
deriving DecidableEq, Repr

namespace Diagnostic

def place (d : Diagnostic) : Place := d.location ++ d.key.toList

def keyText (d : Diagnostic) : String := (d.key.map PlaceStep.key).getD ""

def isError (d : Diagnostic) : Bool := d.fault.isError

def message (d : Diagnostic) : String :=
  let path := d.place.text
  match d.fault with
  | .missing => "attribute " ++ path ++ " is missing"
  | .wrongKind expected _ => "attribute " ++ path ++ " is not of type `" ++ expected ++ "`"
  | .extra => "attribute " ++ path ++ " is unexpected"
  | .repeated => "attribute " ++ path ++ " is repeated"
  | .reserved => "attribute " ++ path ++ " is reserved"
  | .invalid reason => "attribute " ++ path ++ " is invalid: " ++ reason
  | .warning _ => path

end Diagnostic

namespace Diagnostics

def areValid (ds : List Diagnostic) : Bool := !ds.any Diagnostic.isError

def errorCount (ds : List Diagnostic) : Nat := ds.countP Diagnostic.isError

def atPath (path : String) (ds : List Diagnostic) : List Diagnostic := ds.filter (·.place.text == path)

end Diagnostics
end Arazzo
