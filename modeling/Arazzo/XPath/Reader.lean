import Arazzo.XPath.Basic
import Arazzo.Xml.Reader

/-! Reading XPath expressions. -/

namespace Arazzo.XPath

open Text

inductive Token where
  | name (lead : Option String) (localPart : String)
  | number (value : Float)
  | literal (text : String)
  /-- A mark or an operator; a star that multiplies is written `times`. -/
  | sign (text : String)

namespace Token

/-- Two marks that are read as one come before their parts. -/
def signs : List String :=
  ["//", "::", "!=", "<=", ">=", "..", "/", "(", ")", "[", "]", ".", "@", ",", "|", "+", "-", "=",
    "<", ">", "$"]

def operatorNames : List String := ["and", "or", "mod", "div"]

/-- After these a star or a name is never an operator. -/
def opensOperand : Option Token → Bool
  | none => true
  | some (.sign s) => !([")", "]", ".", ".."].contains s)
  | some _ => false

def sign? (cs : List Char) : Option (Token × List Char) :=
  signs.findSome? fun mark => (afterLead? mark.toList cs).map fun rest => (.sign mark, rest)

def number? (cs : List Char) : Option (Token × List Char) :=
  let whole := cs.takeWhile Char.isDigit
  let rest := cs.dropWhile Char.isDigit
  let (digits, rest) := match rest with
    | '.' :: more => (whole ++ '.' :: more.takeWhile Char.isDigit, more.dropWhile Char.isDigit)
    | more => (whole, more)
  (Decimal.float? digits).map fun x => (.number x, rest)

def simpleName? (cs : List Char) : Option (String × List Char) :=
  match cs with
  | c :: rest =>
    if Xml.isNameStart c then
      some (String.ofList (c :: rest.takeWhile Xml.isNameChar), rest.dropWhile Xml.isNameChar)
    else none
  | [] => none

def name? (cs : List Char) : Option (Token × List Char) := do
  let (first, rest) ← simpleName? cs
  match rest with
  | ':' :: '*' :: more => some (.name (some first) "*", more)
  | ':' :: more =>
    match simpleName? more with
    | some (second, more) => some (.name (some first) second, more)
    | none => some (.name none first, rest)
  | _ => some (.name none first, rest)

def literal? (cs : List Char) : Option (Token × List Char) :=
  match cs with
  | '"' :: rest => (splitOnce? '"' rest).map fun (text, more) => (.literal (String.ofList text), more)
  | '\'' :: rest => (splitOnce? '\'' rest).map fun (text, more) => (.literal (String.ofList text), more)
  | _ => none

def startsNumber : List Char → Bool
  | '.' :: c :: _ => c.isDigit
  | c :: _ => c.isDigit
  | [] => false

def next? (previous : Option Token) (cs : List Char) : Option (Token × List Char) :=
  match cs with
  | '*' :: rest =>
    if opensOperand previous then some (.name none "*", rest) else some (.sign "times", rest)
  | c :: _ =>
    if c == '"' || c == '\'' then literal? cs
    else if startsNumber cs then number? cs
    else if Xml.isNameStart c then
      if opensOperand previous then name? cs
      else do
        let (word, rest) ← simpleName? cs
        if operatorNames.contains word then some (.sign word, rest) else none
    else sign? cs
  | [] => none

def readAll : Nat → Option Token → List Char → Option (List Token)
  | 0, _, _ => none
  | fuel + 1, previous, cs =>
    match cs.dropWhile isXmlSpace with
    | [] => some []
    | cs => do
      let (token, rest) ← next? previous cs
      return token :: (← readAll fuel (some token) rest)

end Token

def Axis.ofName? : String → Option Axis
  | "ancestor" => some .ancestor
  | "ancestor-or-self" => some .ancestorOrSelf
  | "attribute" => some .attr
  | "child" => some .child
  | "descendant" => some .descendant
  | "descendant-or-self" => some .descendantOrSelf
  | "following" => some .following
  | "following-sibling" => some .followingSibling
  | "namespace" => some .spaces
  | "parent" => some .parent
  | "preceding" => some .preceding
  | "preceding-sibling" => some .precedingSibling
  | "self" => some .self
  | _ => none

abbrev Reader := StateT (List Token) Option

namespace Reader

def peek? : Reader (Option Token) := return (← get).head?

def bump : Reader Unit := modify (·.drop 1)

def atSign (mark : String) : Reader Bool := do
  match ← peek? with
  | some (.sign s) => return s == mark
  | _ => return false

def bumpIf (mark : String) : Reader Bool := do
  if ← atSign mark then
    bump
    return true
  else return false

def expect (mark : String) : Reader Unit := do
  if !(← bumpIf mark) then failure

def isNodeType (name : String) : Bool :=
  ["comment", "text", "processing-instruction", "node"].contains name

def startsPrimary (tokens : List Token) : Bool :=
  match tokens with
  | .number _ :: _ => true
  | .literal _ :: _ => true
  | .sign "(" :: _ => true
  | .sign "$" :: _ => true
  | .name none name :: .sign "(" :: _ => !isNodeType name
  | .name (some _) _ :: .sign "(" :: _ => true
  | _ => false

def startsStep (tokens : List Token) : Bool :=
  match tokens with
  | .name .. :: _ => true
  | .sign s :: _ => ["@", ".", ".."].contains s
  | _ => false

def anyNode : Step := .step .descendantOrSelf .node []

def nodeTest : Reader NodeTest := do
  match ← get with
  | .name none "comment" :: .sign "(" :: .sign ")" :: rest =>
    set rest
    return .comment
  | .name none "text" :: .sign "(" :: .sign ")" :: rest =>
    set rest
    return .text
  | .name none "node" :: .sign "(" :: .sign ")" :: rest =>
    set rest
    return .node
  | .name none "processing-instruction" :: .sign "(" :: .sign ")" :: rest =>
    set rest
    return .instruction none
  | .name none "processing-instruction" :: .sign "(" :: .literal target :: .sign ")" :: rest =>
    set rest
    return .instruction (some target)
  | .name lead name :: rest =>
    match rest with
    | .sign "(" :: _ => failure
    | _ =>
      set rest
      return .name lead name
  | _ => failure

def binary (operand : Reader Expr) (operators : List (String × (Expr → Expr → Expr))) :
    Nat → Expr → Reader Expr
  | 0, left => return left
  | fuel + 1, left => do
    match ← peek? with
    | some (.sign s) =>
      match operators.find? (·.1 == s) with
      | some (_, make) =>
        bump
        let right ← operand
        binary operand operators fuel (make left right)
      | none => return left
    | _ => return left

def leftToRight (operand : Reader Expr) (operators : List (String × (Expr → Expr → Expr))) :
    Reader Expr := do
  let first ← operand
  binary operand operators (← get).length first

mutual

def expression : Nat → Reader Expr
  | 0 => failure
  | fuel + 1 =>
    let unaries := unary fuel
    let products := leftToRight unaries
      [("times", .arithmetic .times), ("div", .arithmetic .divide), ("mod", .arithmetic .modulo)]
    let sums := leftToRight products [("+", .arithmetic .plus), ("-", .arithmetic .minus)]
    let relations := leftToRight sums
      [("<", .relation .less), ("<=", .relation .lessOrEqual), (">", .relation .greater),
        (">=", .relation .greaterOrEqual)]
    let equalities := leftToRight relations [("=", .equal), ("!=", .notEqual)]
    leftToRight (leftToRight equalities [("and", .and)]) [("or", .or)]

def unary : Nat → Reader Expr
  | 0 => failure
  | fuel + 1 => do
    if ← bumpIf "-" then return .negate (← unary fuel)
    else leftToRight (pathExpression fuel) [("|", .union)]

def pathExpression : Nat → Reader Expr
  | 0 => failure
  | fuel + 1 => do
    if startsPrimary (← get) then
      let base ← primary fuel
      let filtered ← filters fuel base
      if ← bumpIf "//" then return .path filtered (anyNode :: (← steps fuel []))
      else if ← bumpIf "/" then return .path filtered (← steps fuel [])
      else return filtered
    else if ← bumpIf "//" then return .path .root (anyNode :: (← steps fuel []))
    else if ← bumpIf "/" then
      if startsStep (← get) then return .path .root (← steps fuel []) else return .root
    else return .path .context (← steps fuel [])

def filters : Nat → Expr → Reader Expr
  | 0, _ => failure
  | fuel + 1, base => do
    if ← bumpIf "[" then
      let predicate ← expression fuel
      expect "]"
      filters fuel (.filter base predicate)
    else return base

def primary : Nat → Reader Expr
  | 0 => failure
  | fuel + 1 => do
    match ← get with
    | .number x :: rest =>
      set rest
      return .number x
    | .literal s :: rest =>
      set rest
      return .literal s
    | .sign "(" :: rest =>
      set rest
      let inner ← expression fuel
      expect ")"
      return inner
    | .sign "$" :: .name _ _ :: rest =>
      set rest
      return .variable
    | .name lead name :: .sign "(" :: rest =>
      set rest
      let arguments ← if ← bumpIf ")" then pure [] else callArguments fuel []
      match lead with
      | some _ => return .variable
      | none => return .call name arguments
    | _ => failure

def callArguments : Nat → List Expr → Reader (List Expr)
  | 0, _ => failure
  | fuel + 1, acc => do
    let next ← expression fuel
    if ← bumpIf ")" then return (next :: acc).reverse
    expect ","
    callArguments fuel (next :: acc)

def steps : Nat → List Step → Reader (List Step)
  | 0, _ => failure
  | fuel + 1, acc => do
    let next ← step fuel
    if ← bumpIf "//" then steps fuel (anyNode :: next :: acc)
    else if ← bumpIf "/" then steps fuel (next :: acc)
    else return (next :: acc).reverse

def step : Nat → Reader Step
  | 0 => failure
  | fuel + 1 => do
    if ← bumpIf "." then return .step .self .node []
    else if ← bumpIf ".." then return .step .parent .node []
    else
      let axis ←
        if ← bumpIf "@" then pure Axis.attr
        else
          match ← get with
          | .name none name :: .sign "::" :: rest =>
            set rest
            match Axis.ofName? name with
            | some axis => pure axis
            | none => failure
          | _ => pure Axis.child
      let test ← nodeTest
      return .step axis test (← predicates fuel [])

def predicates : Nat → List Expr → Reader (List Expr)
  | 0, _ => failure
  | fuel + 1, acc => do
    if ← bumpIf "[" then
      let predicate ← expression fuel
      expect "]"
      predicates fuel (predicate :: acc)
    else return acc.reverse

end

end Reader

def Expr.parse? (text : String) : Option Expr := do
  let cs := text.toList
  let tokens ← Token.readAll (cs.length + 1) none cs
  let (e, rest) ← (Reader.expression (8 * tokens.length + 8)).run tokens
  if rest.isEmpty then some e else none

end Arazzo.XPath
