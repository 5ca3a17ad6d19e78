import Arazzo.Table

/-! JSON values: whole numbers and doubles are kept apart, members are sorted by name. -/

namespace Arazzo

/-- Whole numbers lie between `-2^63` and `2^64 - 1`; every other number is a double. -/
inductive Json.Number where
  | int (value : Int)
  | float (value : Float)

inductive Json where
  | null
  | bool (value : Bool)
  | num (value : Json.Number)
  | str (value : String)
  | arr (items : List Json)
  | obj (members : List (String × Json))

instance : Inhabited Json := ⟨.null⟩

namespace Json

def ofInt (n : Int) : Json := .num (.int n)

def ofNat (n : Nat) : Json := .num (.int n)

def ofFloat (x : Float) : Json :=
  if x.isFinite then .num (.float x) else .null

def ofMembers (entries : List (String × Json)) : Json := .obj (Table.ofList entries)

def ofTable {α : Type} (f : α → Json) (table : Table α) : Json := .obj (Table.mapValues f table)

namespace Number

/-- Whole numbers and doubles never equal each other. -/
def same : Number → Number → Bool
  | .int m, .int n => m == n
  | .float x, .float y => x == y
  | _, _ => false

def toFloat : Number → Float
  | .int n => Float.ofInt n
  | .float x => x

end Number

mutual

def same : Json → Json → Bool
  | .null, .null => true
  | .bool a, .bool b => a == b
  | .num a, .num b => a.same b
  | .str a, .str b => a == b
  | .arr as, .arr bs => sameItems as bs
  | .obj as, .obj bs => sameMembers as bs
  | _, _ => false

def sameItems : List Json → List Json → Bool
  | [], [] => true
  | a :: as, b :: bs => same a b && sameItems as bs
  | _, _ => false

def sameMembers : List (String × Json) → List (String × Json) → Bool
  | [], [] => true
  | (k, a) :: as, (l, b) :: bs => k == l && same a b && sameMembers as bs
  | _, _ => false

end

def get? (key : String) : Json → Option Json
  | .obj members => Table.get? key members
  | _ => none

def asStr? : Json → Option String
  | .str s => some s
  | _ => none

def asArr? : Json → Option (List Json)
  | .arr items => some items
  | _ => none

def asObj? : Json → Option (Table Json)
  | .obj members => some members
  | _ => none

def asBool? : Json → Option Bool
  | .bool b => some b
  | _ => none

def asNum? : Json → Option Number
  | .num n => some n
  | _ => none

def asNat? : Json → Option Nat
  | .num (.int n) => if n ≥ 0 then some n.toNat else none
  | _ => none

def isObj (v : Json) : Bool := v.asObj?.isSome

def isArr (v : Json) : Bool := v.asArr?.isSome

def isNull : Json → Bool
  | .null => true
  | _ => false

end Json
end Arazzo
