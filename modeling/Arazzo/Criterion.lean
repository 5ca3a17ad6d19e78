import Arazzo.Condition
import Arazzo.Decimal.Binary
import Arazzo.Resolver
import Arazzo.Text.Case
import Arazzo.Text.Reason
import Arazzo.XPath.Reader

/-! Whether criteria hold in a context. -/

namespace Arazzo

inductive ConditionFault where
  | emptyCondition
  | missingOperand
  | notBoolean (value : Json)

inductive CriterionError where
  | malformed (condition : String) (fault : ConditionFault)
  | incomparable (condition : String) (left right : Json)
  | missingContext (kind : CriterionKind) (condition : String)
  | badRegex (pattern : String)
  /-- A pointer used as a query tells what is wrong with it. -/
  | badJsonPath (query : String) (pointer : Option PointerError)
  | badXml (condition : String)
  | badXPath (condition : String)
  | resolve (error : ResolveError)

namespace ConditionFault

def message : ConditionFault → String
  | .emptyCondition => "empty condition"
  | .missingOperand => "missing operand"
  | .notBoolean value => "operand without an operator must be boolean, got " ++ value.render

end ConditionFault

namespace CriterionError

def message : CriterionError → String
  | .malformed c fault => "malformed condition `" ++ c ++ "`: " ++ fault.message
  | .incomparable c left right =>
    "cannot compare " ++ left.render ++ " with " ++ right.render ++ " in `" ++ c ++ "`"
  | .missingContext kind c => "`" ++ kind.keyword ++ "` criterion `" ++ c ++ "` requires a context"
  | .badRegex pattern => "invalid regex `" ++ pattern ++ "`: " ++ unstatedReason
  | .badJsonPath query none => "invalid JSONPath `" ++ query ++ "`: " ++ unstatedReason
  | .badJsonPath query (some error) => "invalid JSONPath `" ++ query ++ "`: " ++ error.message
  | .badXml c => "invalid XML context for `" ++ c ++ "`: " ++ unstatedReason
  | .badXPath c => "invalid XPath `" ++ c ++ "`: " ++ unstatedReason
  | .resolve error => error.message

end CriterionError

namespace Operator

def holds (order : Ordering) : Operator → Bool
  | .eq => order == .eq
  | .ne => order != .eq
  | .lt => order == .lt
  | .gt => order == .gt
  | .le => order != .gt
  | .ge => order != .lt

end Operator

namespace Comparison

def isCompound : Json → Bool
  | .arr _ => true
  | .obj _ => true
  | _ => false

def number? : Json → Option Float
  | .num n => some n.toFloat
  | .str s => Decimal.float? (Text.trimChars s.toList)
  | _ => none

def foldedText : Json → String
  | .str s => Text.toLower s
  | .null => "null"
  | value => Text.toLower value.render

def orderFloats (x y : Float) : Option Ordering :=
  if x < y then some .lt else if x == y then some .eq else if x > y then some .gt else none

def orderTexts (a b : String) : Ordering :=
  if a < b then .lt else if a = b then .eq else .gt

/-- Two numbers are ordered as numbers, anything else as text without regard to case. -/
def order (left right : Json) : Option Ordering :=
  match number? left, number? right with
  | some x, some y => orderFloats x y
  | _, _ => some (orderTexts (foldedText left) (foldedText right))

end Comparison

/-- Arrays and objects can only be equal to each other or not. -/
def compareValues (condition : String) (left right : Json) (op : Operator) :
    Except CriterionError Bool :=
  if Comparison.isCompound left || Comparison.isCompound right then
    if Comparison.isCompound left && Comparison.isCompound right && (op == .eq || op == .ne) then
      .ok (left.same right == (op == .eq))
    else .error (.incomparable condition left right)
  else
    match Comparison.order left right with
    | some order => .ok (op.holds order)
    | none => .ok (op == .ne)

namespace Condition

def unquoted? (cs : List Char) : Option (List Char) :=
  match cs with
  | q :: rest =>
    if (q = '"' ∨ q = '\'') ∧ rest.getLast? = some q then some rest.dropLast else none
  | [] => none

/-- An expression is resolved; quoted text is text, and anything else is JSON or text. -/
def operand (context : Context) (raw : String) : Resolving CriterionError Json := do
  let text := Text.trim raw
  if text.isEmpty then throw (.malformed text .missingOperand)
  else if isExpressionText text then
    return (← (Resolver.resolve text (some context)).adapt CriterionError.resolve).getD .null
  else
    match unquoted? text.toList with
    | some inner => return .str (String.ofList inner)
    | none => return (Json.parse? text).getD (.str text)

mutual

def evaluate (context : Context) : Condition → Resolving CriterionError Bool
  | .empty => throw (.malformed "" .emptyCondition)
  | .any parts => evaluateAny context parts
  | .all parts => evaluateAll context parts
  | .not condition => return !(← evaluate context condition)
  | .compare text left op right => do
    let l ← operand context left
    let r ← operand context right
    compareValues text l r op
  | .holds text => do
    match ← operand context text with
    | .bool b => return b
    | value => throw (.malformed text (.notBoolean value))

def evaluateAny (context : Context) : List Condition → Resolving CriterionError Bool
  | [] => return false
  | part :: rest => do
    if ← evaluate context part then return true else evaluateAny context rest

def evaluateAll (context : Context) : List Condition → Resolving CriterionError Bool
  | [] => return true
  | part :: rest => do
    if ← evaluate context part then evaluateAll context rest else return false

end

end Condition

namespace Criterion

def subject (context : Context) (c : Criterion) : Resolving CriterionError Json := do
  match c.context with
  | none => throw (.missingContext c.kind c.condition)
  | some expression =>
    return (← (Resolver.resolve expression (some context)).adapt CriterionError.resolve).getD .null

/-- The pattern has to match all of the subject. -/
def matchRegex (limits : Regex.Limits) (pattern subject : String) : Except CriterionError Bool :=
  match Regex.parse? limits ("^(?:" ++ pattern ++ ")$") with
  | some regex => .ok (regex.matchesIn subject)
  | none => .error (.badRegex pattern)

/-- The first value that a pointer or a query selects; a filter sees a lone value as one of a list. -/
def select (query : String) (subject : Json) : Except CriterionError (Option Json) :=
  if query.toList.head? = some '#' then
    match Pointer.parse query with
    | .ok pointer => .ok (pointer.resolve? subject)
    | .error error => .error (.badJsonPath query (some error))
  else
    match JsonPath.Query.parse? query with
    | none => .error (.badJsonPath query none)
    | some path =>
      let target :=
        if Text.startsWith "$[?".toList query.toList && !subject.isArr then .arr [subject] else subject
      .ok (path.first? target)

def matchJsonPath (context : Context) (condition : String) (subject : Json) :
    Resolving CriterionError Bool := do
  match Condition.cut? condition.toList with
  | some (left, op, right) =>
    match ← select (Text.trim (String.ofList left)) subject with
    | none => return false
    | some actual =>
      let expected ← Condition.operand context (String.ofList right)
      compareValues condition actual expected op
  | none => return (← select condition subject).isSome

def matchXPath (condition xml : String) : Except CriterionError Bool :=
  match Xml.parse? xml with
  | none => .error (.badXml condition)
  | some document =>
    match (XPath.Expr.parse? condition).bind fun e => XPath.evaluate e document with
    | some value => .ok value.toBool
    | none => .error (.badXPath condition)

def readSubject : Json → Json
  | .str s => (Json.parse? s).getD (.str s)
  | value => value

def holds (context : Context) (c : Criterion) : Resolving CriterionError Bool := do
  let condition := Text.trim c.condition
  match c.kind with
  | .simple => (Condition.parse condition).evaluate context
  | .regex => matchRegex {} condition (← subject context c).plainText
  | .jsonpath => matchJsonPath context condition (readSubject (← subject context c))
  | .xpath => matchXPath condition (← subject context c).plainText

def allHold (context : Context) : List Criterion → Resolving CriterionError Bool
  | [] => return true
  | c :: rest => do
    if ← holds context c then allHold context rest else return false

end Criterion
end Arazzo
