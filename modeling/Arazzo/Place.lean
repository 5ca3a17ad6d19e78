import Arazzo.Json.Basic

/-! Places in a document tree, such as `$.workflows[0].steps[1]`. -/

namespace Arazzo

inductive PlaceStep where
  /-- A member; a name that is empty or begins with a bracket is written without a dot. -/
  | member (name : String)
  /-- An entry of a pool; the dot is always written. -/
  | entry (name : String)
  | item (index : Nat)
deriving DecidableEq, Repr

abbrev Place := List PlaceStep

namespace PlaceStep

def key : PlaceStep → String
  | .member name => name
  | .entry name => name
  | .item index => "[" ++ toString index ++ "]"

def text : PlaceStep → String
  | .member name =>
    if name.isEmpty then "" else if name.toList.head? = some '[' then name else "." ++ name
  | .entry name => "." ++ name
  | .item index => "[" ++ toString index ++ "]"

def follow? (value : Json) : PlaceStep → Option Json
  | .member name => value.get? name
  | .entry name => value.get? name
  | .item index => value.asArr?.bind fun items => items[index]?

end PlaceStep

namespace Place

def text (place : Place) : String := place.foldl (fun acc step => acc ++ step.text) "$"

def follow? (place : Place) (tree : Json) : Option Json := place.foldlM PlaceStep.follow? tree

end Place
end Arazzo
