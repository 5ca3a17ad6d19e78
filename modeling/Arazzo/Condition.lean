import Arazzo.Text.Blank
import Arazzo.Text.Scan

/-! Conditions such as `$statusCode == 200 && !($response.body#/empty)`, read into trees. -/

namespace Arazzo

inductive Operator where
  | eq
  | ne
  | le
  | ge
  | lt
  | gt
deriving DecidableEq, Repr

namespace Operator

def text : Operator → String
  | .eq => "=="
  | .ne => "!="
  | .le => "<="
  | .ge => ">="
  | .lt => "<"
  | .gt => ">"

/-- The order in which a condition is searched for operators. -/
def all : List Operator := [.eq, .ne, .le, .ge, .lt, .gt]

end Operator

/-- The depth is never further from zero than the number of characters that were read. -/
structure Nesting where
  quote : Option Char := none
  depth : Int := 0
deriving DecidableEq, Repr

namespace Nesting

def atTop (n : Nesting) : Bool := n.quote.isNone && n.depth == 0

def feed (n : Nesting) (c : Char) : Nesting :=
  match n.quote with
  | some q => if c = q then { n with quote := none } else n
  | none =>
    if c = '"' ∨ c = '\'' then { n with quote := some c }
    else if c = '(' ∨ c = '[' then { n with depth := n.depth + 1 }
    else if c = ')' ∨ c = ']' then { n with depth := n.depth - 1 }
    else n

end Nesting

namespace Condition

def extendFirst (c : Char) : List (List Char) → List (List Char)
  | [] => [[c]]
  | part :: parts => (c :: part) :: parts

def splitFrom (mark : Char) (nesting : Nesting) : List Char → List (List Char)
  | [] => [[]]
  | [c] => [[c]]
  | c :: d :: rest =>
    if nesting.atTop ∧ c = mark ∧ d = mark then [] :: splitFrom mark nesting rest
    else extendFirst c (splitFrom mark (nesting.feed c) (d :: rest))

def splitTop (mark : Char) (cs : List Char) : List (List Char) := splitFrom mark {} cs

/-- An operator of one character is not the first half of a longer one. -/
def startsWithOperator (op : Operator) (cs : List Char) : Option (List Char) :=
  match op.text.toList, Text.afterLead? op.text.toList cs with
  | [_], some ('=' :: _) => none
  | _, rest => rest

def cutFrom (op : Operator) (nesting : Nesting) : List Char → Option (List Char × List Char)
  | [] => none
  | c :: cs =>
    match if nesting.atTop then startsWithOperator op (c :: cs) else none with
    | some after => some ([], after)
    | none => (cutFrom op (nesting.feed c) cs).map fun (before, after) => (c :: before, after)

def cut? (cs : List Char) : Option (List Char × Operator × List Char) :=
  Operator.all.findSome? fun op =>
    (cutFrom op {} cs).map fun (before, after) => (before, op, after)

def closesLast (nesting : Nesting) : List Char → Bool
  | [] => true
  | [_] => true
  | c :: cs => !(nesting.feed c).atTop && closesLast (nesting.feed c) cs

def insideParens? (cs : List Char) : Option (List Char) :=
  match cs with
  | '(' :: rest =>
    if rest.getLast? = some ')' ∧ closesLast {} cs then some rest.dropLast else none
  | _ => none

end Condition

inductive Condition where
  | empty
  | any (parts : List Condition)
  | all (parts : List Condition)
  | not (condition : Condition)
  | compare (text left : String) (op : Operator) (right : String)
  | holds (operand : String)

namespace Condition

/-- Disjunction binds weakest, then conjunction, then negation. -/
def ofChars : Nat → List Char → Condition
  | 0, _ => .empty
  | fuel + 1, cs =>
    let cs := Text.trimChars cs
    if cs.isEmpty then .empty
    else
      match splitTop '|' cs with
      | a :: b :: rest => .any ((a :: b :: rest).map (ofChars fuel))
      | _ =>
        match splitTop '&' cs with
        | a :: b :: rest => .all ((a :: b :: rest).map (ofChars fuel))
        | _ => single fuel cs
where
  single (fuel : Nat) (cs : List Char) : Condition :=
    match negated? cs with
    | some rest => .not (ofChars fuel rest)
    | none =>
      match insideParens? cs with
      | some inner => ofChars fuel inner
      | none =>
        match cut? cs with
        | some (left, op, right) =>
          .compare (String.ofList cs) (String.ofList left) op (String.ofList right)
        | none => .holds (String.ofList cs)
  negated? : List Char → Option (List Char)
    | '!' :: '=' :: _ => none
    | '!' :: rest => some rest
    | _ => none

def parse (text : String) : Condition := ofChars (text.length + 1) text.toList

end Condition
end Arazzo
