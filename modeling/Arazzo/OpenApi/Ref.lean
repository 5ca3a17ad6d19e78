import Arazzo.Pointer

/-! References inside an interface document. -/

namespace Arazzo.OpenApi

inductive RefError where
  | external (reference : String)
  | notFound (reference : String)
  | cycle (reference : String)
deriving DecidableEq

def ref? (value : Json) : Option String := (value.get? "$ref").bind Json.asStr?

mutual

def refsIn : Json → List String
  | .arr items => refsInItems items
  | .obj members => (ref? (.obj members)).toList ++ refsInMembers members
  | _ => []

def refsInItems : List Json → List String
  | [] => []
  | item :: rest => refsIn item ++ refsInItems rest

def refsInMembers : List (String × Json) → List String
  | [] => []
  | (_, value) :: rest => refsIn value ++ refsInMembers rest

end

def target? (document : Json) (fragment : List Char) : Option Json :=
  match fragment with
  | [] => some document
  | '/' :: _ => (Pointer.mk (String.ofList fragment)).resolve? document
  | _ => none

def without (a : String) (xs : List String) : List String := xs.filter (· ≠ a)

theorem length_without_lt {a : String} {xs : List String} (h : a ∈ xs) :
    (without a xs).length < xs.length :=
  List.length_filter_lt_length_iff_exists.mpr ⟨a, h, by simp⟩

/-- Follows references that were not followed yet; any other one closes a cycle. -/
def followFrom (document : Json) (unvisited : List String) (value : Json) :
    Except RefError Json :=
  match ref? value with
  | none => .ok value
  | some reference =>
    match reference.toList with
    | '#' :: fragment =>
      if _h : reference ∈ unvisited then
        match target? document fragment with
        | none => .error (.notFound reference)
        | some next => followFrom document (without reference unvisited) next
      else .error (.cycle reference)
    | _ => .error (.external reference)
termination_by unvisited.length
decreasing_by exact length_without_lt _h

def follow (document value : Json) : Except RefError Json :=
  match ref? value with
  | none => .ok value
  | some reference => followFrom document (reference :: refsIn document) value

end Arazzo.OpenApi
