import Arazzo.Json.Basic
import Arazzo.Regex.Reader

/-! JSONPath queries and the nodes they select. -/

namespace Arazzo.JsonPath

inductive Comparison where
  | eq
  | ne
  | le
  | ge
  | lt
  | gt
deriving DecidableEq, Repr

mutual

inductive Query where
  | query (atRoot : Bool) (segments : List Segment)

inductive Segment where
  | segment (descend : Bool) (selectors : List Selector)

inductive Selector where
  | name (name : String)
  | wildcard
  | index (i : Int)
  | slice (first last step : Option Int)
  | filter (test : Test)

inductive Test where
  | any (tests : List Test)
  | all (tests : List Test)
  | not (test : Test)
  | present (query : Query)
  | compare (op : Comparison) (left right : Operand)
  | pattern (whole : Bool) (subject pattern : Operand)

/-- Something with at most one value; a query inside it selects at most one node. -/
inductive Operand where
  | literal (value : Json)
  | single (query : Query)
  | length (operand : Operand)
  | count (query : Query)
  | valueOf (query : Query)

end

abbrev Location := List String

structure Node where
  location : Location
  value : Json

mutual

/-- Equality of values; all numbers are compared as doubles. -/
def equal : Json → Json → Bool
  | .null, .null => true
  | .bool a, .bool b => a == b
  | .num a, .num b => a.toFloat == b.toFloat
  | .str a, .str b => a == b
  | .arr as, .arr bs => equalItems as bs
  | .obj as, .obj bs => equalMembers as bs
  | _, _ => false

def equalItems : List Json → List Json → Bool
  | [], [] => true
  | a :: as, b :: bs => equal a b && equalItems as bs
  | _, _ => false

def equalMembers : List (String × Json) → List (String × Json) → Bool
  | [], [] => true
  | (k, a) :: as, (l, b) :: bs => k == l && equal a b && equalMembers as bs
  | _, _ => false

end

def equalValues : Option Json → Option Json → Bool
  | none, none => true
  | some a, some b => equal a b
  | _, _ => false

/-- Numbers and texts have an order; nothing else has. -/
def lessValues : Option Json → Option Json → Bool
  | some (.num a), some (.num b) => a.toFloat < b.toFloat
  | some (.str a), some (.str b) => a < b
  | _, _ => false

def Comparison.holds (left right : Option Json) : Comparison → Bool
  | .eq => equalValues left right
  | .ne => !equalValues left right
  | .lt => lessValues left right
  | .gt => lessValues right left
  | .le => lessValues left right || equalValues left right
  | .ge => lessValues right left || equalValues left right

namespace Node

def children (node : Node) : List Node :=
  match node.value with
  | .arr items => items.mapIdx fun i item => ⟨node.location ++ [toString i], item⟩
  | .obj members => members.map fun (key, value) => ⟨node.location ++ [key], value⟩
  | _ => []

mutual

/-- The node and all nodes below it; each one comes before its children. -/
def descendantsOf (location : Location) (value : Json) : List Node :=
  ⟨location, value⟩ :: below location value

def below (location : Location) : Json → List Node
  | .arr items => belowItems location 0 items
  | .obj members => belowMembers location members
  | _ => []

def belowItems (location : Location) (i : Nat) : List Json → List Node
  | [] => []
  | item :: rest =>
    ⟨location ++ [toString i], item⟩ :: below (location ++ [toString i]) item ++
      belowItems location (i + 1) rest

def belowMembers (location : Location) : List (String × Json) → List Node
  | [] => []
  | (key, value) :: rest =>
    ⟨location ++ [key], value⟩ :: below (location ++ [key]) value ++ belowMembers location rest

end

def member (key : String) (node : Node) : List Node :=
  match node.value with
  | .obj members =>
    ((Table.get? key members).map fun value => ⟨node.location ++ [key], value⟩).toList
  | _ => []

def itemAt (i : Int) (node : Node) : List Node :=
  match node.value with
  | .arr items =>
    let at_ := if i < 0 then i + items.length else i
    if at_ < 0 then []
    else
      (items[at_.toNat]?.map fun value => ⟨node.location ++ [toString at_.toNat], value⟩).toList
  | _ => []

def sliceIndices (length : Nat) (first last step : Option Int) : List Nat :=
  let step := step.getD 1
  let size : Int := length
  let normal (i : Int) : Int := if i ≥ 0 then i else size + i
  if step = 0 then []
  else if step > 0 then
    let low := min (max (normal (first.getD 0)) 0) size
    let high := min (max (normal (last.getD size)) 0) size
    (List.range ((high - low + step - 1) / step).toNat).map fun (k : Nat) =>
        (low + (k : Int) * step).toNat
  else
    let high := min (max (normal (first.getD (size - 1))) (-1)) (size - 1)
    let low := min (max (normal (last.getD (-size - 1))) (-1)) (size - 1)
    (List.range ((high - low - step - 1) / (-step)).toNat).map fun (k : Nat) =>
        (high + (k : Int) * step).toNat

end Node

def textOf? : Option Json → Option String
  | some (.str s) => some s
  | _ => none

def matchesPattern (whole : Bool) (subject pattern : Option Json) : Bool :=
  match textOf? subject, textOf? pattern with
  | some subject, some pattern =>
    let pattern := if whole then "(?R)^(" ++ pattern ++ ")$" else "(?R)(" ++ pattern ++ ")"
    ((Regex.parse? {} pattern).map (·.matchesIn subject)).getD false
  | _, _ => false

def sizeOf? : Option Json → Option Json
  | some (.str s) => some (.ofNat s.length)
  | some (.arr items) => some (.ofNat items.length)
  | some (.obj members) => some (.ofNat members.length)
  | _ => none

mutual

def Query.select (root current : Node) : Query → List Node
  | .query atRoot segments => selectSegments root [if atRoot then root else current] segments

def selectSegments (root : Node) (nodes : List Node) : List Segment → List Node
  | [] => nodes
  | segment :: rest => selectSegments root (segment.select root nodes) rest

def Segment.select (root : Node) (nodes : List Node) : Segment → List Node
  | .segment descend selectors =>
    let starts :=
      if descend then nodes.flatMap fun node => Node.descendantsOf node.location node.value
      else nodes
    starts.flatMap fun node => selectAll root node selectors

def selectAll (root node : Node) : List Selector → List Node
  | [] => []
  | selector :: rest => selector.select root node ++ selectAll root node rest

def Selector.select (root node : Node) : Selector → List Node
  | .name key => node.member key
  | .wildcard => node.children
  | .index i => node.itemAt i
  | .slice first last step =>
    match node.value with
    | .arr items => (Node.sliceIndices items.length first last step).flatMap fun (i : Nat) => node.itemAt i
    | _ => []
  | .filter test => node.children.filter fun child => test.holds root child

def Test.holds (root current : Node) : Test → Bool
  | .any tests => holdsAny root current tests
  | .all tests => holdsAll root current tests
  | .not test => !test.holds root current
  | .present query => !(query.select root current).isEmpty
  | .compare op left right => op.holds (left.value? root current) (right.value? root current)
  | .pattern whole subject pattern =>
    matchesPattern whole (subject.value? root current) (pattern.value? root current)

def holdsAny (root current : Node) : List Test → Bool
  | [] => false
  | test :: rest => test.holds root current || holdsAny root current rest

def holdsAll (root current : Node) : List Test → Bool
  | [] => true
  | test :: rest => test.holds root current && holdsAll root current rest

def Operand.value? (root current : Node) : Operand → Option Json
  | .literal value => some value
  | .single query => (query.select root current).head?.map (·.value)
  | .length operand => sizeOf? (operand.value? root current)
  | .count query => some (.ofNat (query.select root current).length)
  | .valueOf query =>
    match query.select root current with
    | [node] => some node.value
    | _ => none

end

def Query.nodes (query : Query) (document : Json) : List Node :=
  query.select ⟨[], document⟩ ⟨[], document⟩

def Query.first? (query : Query) (document : Json) : Option Json :=
  (query.nodes document).head?.map (·.value)

end Arazzo.JsonPath
