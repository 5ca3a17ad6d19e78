import Arazzo.Decimal.Plain
import Arazzo.Xml.Basic

/-! XPath expressions and their values in a document. -/

namespace Arazzo.XPath

open Text

inductive Axis where
  | ancestor
  | ancestorOrSelf
  | attr
  | child
  | descendant
  | descendantOrSelf
  | following
  | followingSibling
  | spaces
  | parent
  | preceding
  | precedingSibling
  | self
deriving DecidableEq, Repr

inductive NodeTest where
  | name (lead : Option String) (localPart : String)
  | node
  | text
  | comment
  | instruction (target : Option String)
deriving DecidableEq, Repr

inductive Relation where
  | less
  | lessOrEqual
  | greater
  | greaterOrEqual
deriving DecidableEq, Repr

inductive Arithmetic where
  | plus
  | minus
  | times
  | divide
  | modulo
deriving DecidableEq, Repr

mutual

inductive Expr where
  | or (left right : Expr)
  | and (left right : Expr)
  | equal (left right : Expr)
  | notEqual (left right : Expr)
  | relation (op : Relation) (left right : Expr)
  | arithmetic (op : Arithmetic) (left right : Expr)
  | negate (operand : Expr)
  | union (left right : Expr)
  | literal (text : String)
  | number (value : Float)
  | variable
  | call (name : String) (arguments : List Expr)
  | root
  | context
  | path (start : Expr) (steps : List Step)
  | filter (base : Expr) (predicate : Expr)

inductive Step where
  | step (axis : Axis) (test : NodeTest) (predicates : List Expr)

end

inductive AddressStep where
  | attr (index : Nat)
  | child (index : Nat)
deriving DecidableEq, Repr

abbrev Address := List AddressStep

namespace AddressStep

/-- The attributes of an element come before its children. -/
def before : AddressStep → AddressStep → Bool
  | .attr i, .attr j => i < j
  | .attr _, .child _ => true
  | .child _, .attr _ => false
  | .child i, .child j => i < j

end AddressStep

namespace Address

/-- Document order: a node comes before what it contains. -/
def before : Address → Address → Bool
  | _, [] => false
  | [], _ :: _ => true
  | a :: as, b :: bs => a.before b || (a == b && before as bs)

def insert (a : Address) : List Address → List Address
  | [] => [a]
  | b :: rest =>
    if a == b then b :: rest
    else if before a b then a :: b :: rest
    else b :: insert a rest

def sorted (as : List Address) : List Address := as.foldr insert []

end Address

inductive Found where
  | root
  | node (node : Xml.Node)
  | attr (found : Xml.Attribute)

def childAt? : Xml.Node → Nat → Option Xml.Node
  | .element _ _ _ children, i => children[i]?
  | _, _ => none

def findFrom? (node : Xml.Node) : Address → Option Found
  | [] => some (.node node)
  | .child i :: rest =>
    match node with
    | .element _ _ _ children => (children[i]?).bind fun child => findFrom? child rest
    | _ => none
  | .attr i :: rest =>
    match node, rest with
    | .element _ _ attributes _, [] => (attributes[i]?).map .attr
    | _, _ => none

namespace Document

def find? (d : Xml.Document) : Address → Option Found
  | [] => some .root
  | .child i :: rest => (d.children[i]?).bind fun node => findFrom? node rest
  | .attr _ :: _ => none

def childCount (d : Xml.Document) (a : Address) : Nat :=
  match find? d a with
  | some .root => d.children.length
  | some (.node (.element _ _ _ children)) => children.length
  | _ => 0

def attributeCount (d : Xml.Document) (a : Address) : Nat :=
  match find? d a with
  | some (.node (.element _ _ attributes _)) => attributes.length
  | _ => 0

def content (d : Xml.Document) (a : Address) : String :=
  match find? d a with
  | some .root => Xml.Node.contents d.children
  | some (.node node) => node.content
  | some (.attr x) => x.value
  | none => ""

end Document

mutual

def below (a : Address) : Xml.Node → List Address
  | .element _ _ _ children => belowAll a 0 children
  | _ => []

def belowAll (a : Address) (i : Nat) : List Xml.Node → List Address
  | [] => []
  | node :: rest =>
    (a ++ [.child i]) :: below (a ++ [.child i]) node ++ belowAll a (i + 1) rest

end

def descendants (d : Xml.Document) (a : Address) : List Address :=
  match Document.find? d a with
  | some .root => belowAll [] 0 d.children
  | some (.node node) => below a node
  | _ => []

def ancestors : Address → List Address
  | [] => []
  | step :: rest => ((ancestors rest).map fun a => step :: a) ++ [[]]

def siblings (d : Xml.Document) (a : Address) : List Address × List Address :=
  match a.getLast? with
  | some (.child i) =>
    let up := a.dropLast
    let count := Document.childCount d up
    ((List.range i).map fun k => up ++ [.child k],
      (List.range (count - i - 1)).map fun k => up ++ [.child (i + 1 + k)])
  | _ => ([], [])

/-- The nodes of an axis in its own order: backward axes run away from the node. -/
def Axis.addresses (d : Xml.Document) (a : Address) : Axis → List Address
  | .ancestor => ancestors a
  | .ancestorOrSelf => a :: ancestors a
  | .attr => (List.range (Document.attributeCount d a)).map fun i => a ++ [.attr i]
  | .child => (List.range (Document.childCount d a)).map fun i => a ++ [.child i]
  | .descendant => descendants d a
  | .descendantOrSelf => a :: descendants d a
  | .following => (descendants d []).filter fun b => Address.before a b && !a.isPrefixOf b
  | .followingSibling => (siblings d a).2
  | .spaces => []
  | .parent => if a.isEmpty then [] else [a.dropLast]
  | .preceding =>
    ((descendants d []).filter fun b => Address.before b a && !b.isPrefixOf a).reverse
  | .precedingSibling => (siblings d a).1.reverse
  | .self => [a]

/-- Names without a prefix are in no namespace; a prefix is never known. -/
def NodeTest.matches? (axis : Axis) (found : Found) : NodeTest → Option Bool
  | .name (some _) _ => none
  | .name none localPart =>
    let same (name : Xml.Name) : Bool :=
      localPart == "*" || (name.space.isNone && name.localPart == localPart)
    match found with
    | .node (.element n ..) => some (axis != .attr && same n)
    | .attr x => some (axis == .attr && same x.name)
    | _ => some false
  | .node => some true
  | .text =>
    match found with
    | .node (.text _) => some true
    | _ => some false
  | .comment =>
    match found with
    | .node (.comment _) => some true
    | _ => some false
  | .instruction target =>
    match found with
    | .node (.instruction t _) => some ((target.map (· == t)).getD true)
    | _ => some false

inductive Value where
  | boolean (value : Bool)
  | number (value : Float)
  | text (value : String)
  | nodes (addresses : List Address)

def readNumber (s : String) : Float :=
  (Decimal.float? (trimChars s.toList)).getD (0.0 / 0.0)

namespace Value

/-- The text of a set of nodes is that of its first node. -/
def toText (d : Xml.Document) : Value → String
  | .boolean b => if b then "true" else "false"
  | .number x => Decimal.renderPlain x
  | .text s => s
  | .nodes [] => ""
  | .nodes (a :: _) => Document.content d a

def toBool : Value → Bool
  | .boolean b => b
  | .number x => !(x == 0.0) && !x.isNaN
  | .text s => !s.isEmpty
  | .nodes as => !as.isEmpty

def toNumber (d : Xml.Document) : Value → Float
  | .boolean b => if b then 1.0 else 0.0
  | .number x => x
  | value => readNumber (value.toText d)

def addresses? : Value → Option (List Address)
  | .nodes as => some as
  | _ => none

/-- Sets of nodes are equal to anything that one of their nodes is equal to. -/
def equals (d : Xml.Document) (left right : Value) : Bool :=
  let texts (as : List Address) : List String := as.map (Document.content d)
  match left, right with
  | .nodes as, .nodes bs => (texts as).any (texts bs).contains
  | .nodes as, .number x => (texts as).any fun s => readNumber s == x
  | .number x, .nodes as => (texts as).any fun s => readNumber s == x
  | .nodes as, .text s => (texts as).contains s
  | .text s, .nodes as => (texts as).contains s
  | .boolean _, _ => left.toBool == right.toBool
  | _, .boolean _ => left.toBool == right.toBool
  | .number _, _ => left.toNumber d == right.toNumber d
  | _, .number _ => left.toNumber d == right.toNumber d
  | .text a, .text b => a == b

end Value

def Relation.holds (x y : Float) : Relation → Bool
  | .less => x < y
  | .lessOrEqual => x ≤ y
  | .greater => x > y
  | .greaterOrEqual => x ≥ y

def Arithmetic.apply (x y : Float) : Arithmetic → Float
  | .plus => x + y
  | .minus => x - y
  | .times => x * y
  | .divide => x / y
  | .modulo => Decimal.remainder x y

structure Focus where
  document : Xml.Document
  address : Address
  position : Nat
  size : Nat

/-! Functions -/

def roundHalfUp (x : Float) : Float := (x + 0.5).floor

/-- The characters from a place on, both counted from one; the bounds may be fractions. -/
def substring (s : String) (start : Float) (size : Option Float) : String :=
  let first := roundHalfUp start
  let last := (size.map fun n => first + roundHalfUp n).getD (1.0 / 0.0)
  let numbered := s.toList.zipIdx
  String.ofList ((numbered.filter fun (_, i) =>
    let p := Float.ofNat (i + 1)
    p ≥ first && p < last).map (·.1))

def isXmlSpace (c : Char) : Bool := c == ' ' || c == '\t' || c == '\n' || c == '\r'

def normalizeSpace (s : String) : String :=
  let spaced := s.toList.map fun c => if isXmlSpace c then ' ' else c
  String.ofList (joinWith [' '] ((splitAll ' ' spaced).filter fun word => !word.isEmpty))

def translate (s source target : String) : String :=
  let targets := target.toList
  String.ofList (s.toList.filterMap fun c =>
    match source.toList.findIdx? (· == c) with
    | some i => targets[i]?
    | none => some c)

def nameOf (d : Xml.Document) (part : Xml.Name → String) (as : List Address) : String :=
  match as with
  | [] => ""
  | a :: _ =>
    match Document.find? d a with
    | some (.node (.element name ..)) => part name
    | some (.attr x) => part x.name
    | some (.node (.instruction target _)) => part ⟨none, none, target⟩
    | _ => ""

/-- The functions of the core library; nothing for a name or a count of arguments that is not there. -/
def call (focus : Focus) (name : String) (arguments : List Value) : Option Value :=
  let d := focus.document
  let own : Value := .nodes [focus.address]
  let text (v : Value) : String := v.toText d
  let nodesOrOwn : Option (List Address) :=
    match arguments with
    | [] => some [focus.address]
    | [v] => v.addresses?
    | _ => none
  match name, arguments with
  | "last", [] => some (.number (Float.ofNat focus.size))
  | "position", [] => some (.number (Float.ofNat focus.position))
  | "count", [v] => v.addresses?.map fun as => .number (Float.ofNat as.length)
  | "local-name", _ => nodesOrOwn.map fun as => .text (nameOf d (·.localPart) as)
  | "namespace-uri", _ => nodesOrOwn.map fun as => .text (nameOf d (fun n => n.space.getD "") as)
  | "name", _ => nodesOrOwn.map fun as => .text (nameOf d (·.text) as)
  | "string", [] => some (.text (text own))
  | "string", [v] => some (.text (text v))
  | "concat", a :: b :: rest => some (.text (String.join ((a :: b :: rest).map text)))
  | "starts-with", [a, b] => some (.boolean (startsWith (text b).toList (text a).toList))
  | "contains", [a, b] => some (.boolean (contains (text b).toList (text a).toList))
  | "substring-before", [a, b] =>
    let s := (text a).toList
    let mark := (text b).toList
    some (.text (String.ofList (((afterFirst? mark s).map fun rest =>
      s.take (s.length - rest.length - mark.length)).getD [])))
  | "substring-after", [a, b] =>
    some (.text (String.ofList ((afterFirst? (text b).toList (text a).toList).getD [])))
  | "substring", [a, b] => some (.text (substring (text a) (b.toNumber d) none))
  | "substring", [a, b, c] => some (.text (substring (text a) (b.toNumber d) (some (c.toNumber d))))
  | "string-length", [] => some (.number (Float.ofNat (text own).length))
  | "string-length", [v] => some (.number (Float.ofNat (text v).length))
  | "normalize-space", [] => some (.text (normalizeSpace (text own)))
  | "normalize-space", [v] => some (.text (normalizeSpace (text v)))
  | "translate", [a, b, c] => some (.text (translate (text a) (text b) (text c)))
  | "boolean", [v] => some (.boolean v.toBool)
  | "not", [v] => some (.boolean !v.toBool)
  | "true", [] => some (.boolean true)
  | "false", [] => some (.boolean false)
  | "number", [] => some (.number (own.toNumber d))
  | "number", [v] => some (.number (v.toNumber d))
  | "sum", [v] => v.addresses?.map fun as =>
      .number (as.foldl (fun total a => total + readNumber (Document.content d a)) 0.0)
  | "floor", [v] => some (.number (v.toNumber d).floor)
  | "ceiling", [v] => some (.number (v.toNumber d).ceil)
  | "round", [v] => some (.number (roundHalfUp (v.toNumber d)))
  | _, _ => none

def passes (position : Nat) : Value → Bool
  | .number x => Float.ofNat position == x
  | value => value.toBool

def keep (test : Focus → Option Value) (d : Xml.Document) (as : List Address) :
    Option (List Address) := do
  let size := as.length
  let kept ← as.zipIdx.mapM fun (a, i) => do
    let value ← test ⟨d, a, i + 1, size⟩
    return if passes (i + 1) value then some a else none
  return kept.filterMap id

def candidates (d : Xml.Document) (axis : Axis) (test : NodeTest) (a : Address) :
    Option (List Address) := do
  let found ← (axis.addresses d a).mapM fun b => do
    match Document.find? d b with
    | some found => return if ← test.matches? axis found then some b else none
    | none => return none
  return found.filterMap id

mutual

def Expr.value (focus : Focus) : Expr → Option Value
  | .or a b => do
    if (← a.value focus).toBool then return .boolean true
    else return .boolean (← b.value focus).toBool
  | .and a b => do
    if (← a.value focus).toBool then return .boolean (← b.value focus).toBool
    else return .boolean false
  | .equal a b => do
    let left ← a.value focus
    return .boolean (left.equals focus.document (← b.value focus))
  | .notEqual a b => do
    let left ← a.value focus
    return .boolean (!left.equals focus.document (← b.value focus))
  | .relation op a b => do
    let left ← a.value focus
    let right ← b.value focus
    return .boolean (op.holds (left.toNumber focus.document) (right.toNumber focus.document))
  | .arithmetic op a b => do
    let left ← a.value focus
    let right ← b.value focus
    return .number (op.apply (left.toNumber focus.document) (right.toNumber focus.document))
  | .negate a => do
    return .number (-((← a.value focus).toNumber focus.document))
  | .union a b => do
    let left ← (← a.value focus).addresses?
    let right ← (← b.value focus).addresses?
    return .nodes (Address.sorted (left ++ right))
  | .literal s => some (.text s)
  | .number x => some (.number x)
  | .variable => none
  | .call name arguments => do
    call focus name (← values focus arguments)
  | .root => some (.nodes [[]])
  | .context => some (.nodes [focus.address])
  | .path start steps => do
    let nodes ← (← start.value focus).addresses?
    return .nodes (← walk focus.document nodes steps)
  | .filter base predicate => do
    let nodes ← (← base.value focus).addresses?
    return .nodes (← keep (fun inner => predicate.value inner) focus.document nodes)

def values (focus : Focus) : List Expr → Option (List Value)
  | [] => some []
  | e :: rest => do
    let first ← e.value focus
    return first :: (← values focus rest)

def walk (d : Xml.Document) (nodes : List Address) : List Step → Option (List Address)
  | [] => some nodes
  | step :: rest => do
    let found ← nodes.mapM fun a => step.nodes d a
    walk d (Address.sorted found.flatten) rest

def Step.nodes (d : Xml.Document) (a : Address) : Step → Option (List Address)
  | .step axis test predicates => do
    keepAll d (← candidates d axis test a) predicates

def keepAll (d : Xml.Document) (nodes : List Address) : List Expr → Option (List Address)
  | [] => some nodes
  | predicate :: rest => do
    keepAll d (← keep (fun inner => predicate.value inner) d nodes) rest

end

def evaluate (expression : Expr) (d : Xml.Document) : Option Value :=
  expression.value ⟨d, [], 1, 1⟩

end Arazzo.XPath
