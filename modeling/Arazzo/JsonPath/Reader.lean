import Arazzo.JsonPath.Basic
import Arazzo.Json.Reader

/-! Reading JSONPath queries. -/

namespace Arazzo.JsonPath

open Text

abbrev Reader := StateT (List Char) Option

namespace Reader

def peek? : Reader (Option Char) := return (← get).head?

def bump : Reader Unit := modify (·.drop 1)

def bumpIf (lead : String) : Reader Bool := do
  match afterLead? lead.toList (← get) with
  | some rest =>
    set rest
    return true
  | none => return false

def expect (lead : String) : Reader Unit := do
  if !(← bumpIf lead) then failure

def isSpace (c : Char) : Bool := c == ' ' || c == '\t' || c == '\n' || c == '\r'

def skipSpace : Reader Unit := modify (·.dropWhile isSpace)

def bumpAfterSpace (mark : String) : Reader Bool := do
  match afterLead? mark.toList ((← get).dropWhile isSpace) with
  | some rest =>
    set rest
    return true
  | none => return false

def isNameStart (c : Char) : Bool := c.isAlpha || c == '_' || c.toNat ≥ 0x80

def isNameChar (c : Char) : Bool := isNameStart c || c.isDigit

def shorthandName : Reader String := do
  match ← get with
  | c :: cs =>
    if isNameStart c then
      set (cs.dropWhile isNameChar)
      return String.ofList (c :: cs.takeWhile isNameChar)
    else failure
  | [] => failure

def wholeNumber : Reader Int := do
  let negative ← bumpIf "-"
  let digits := (← get).takeWhile Char.isDigit
  modify (·.dropWhile Char.isDigit)
  let n ← (readNat? digits : Option Nat)
  if digits.length > 1 && digits.head? == some '0' || negative && n == 0 || n ≥ Nat.pow 2 53 then failure
  return if negative then -(n : Int) else n

def optionalNumber : Reader (Option Int) := do
  match ← peek? with
  | some c => if c == '-' || c.isDigit then return some (← wholeNumber) else return none
  | none => return none

def hexUnit : Reader Nat := do
  let cs := (← get).take 4
  modify (·.drop 4)
  if cs.length < 4 then failure
  let n ← (readDigits? 16 hexValue? cs : Option Nat)
  return n

def escape (quote : Char) : Reader Char := do
  let some c ← peek? | failure
  bump
  match c with
  | 'b' => return '\x08'
  | 'f' => return '\x0c'
  | 'n' => return '\n'
  | 'r' => return '\r'
  | 't' => return '\t'
  | '/' => return '/'
  | '\\' => return '\\'
  | 'u' =>
    let n ← hexUnit
    if 0xdc00 ≤ n ∧ n < 0xe000 then failure
    else if 0xd800 ≤ n ∧ n < 0xdc00 then
      expect "\\u"
      let low ← hexUnit
      if 0xdc00 ≤ low ∧ low < 0xe000 then
        return Char.ofNat (0x10000 + (n - 0xd800) * 0x400 + (low - 0xdc00))
      else failure
    else return Char.ofNat n
  | c => if c == quote then return c else failure

def quotedRest (quote : Char) : Nat → List Char → Reader String
  | 0, _ => failure
  | fuel + 1, acc => do
    let some c ← peek? | failure
    bump
    if c == quote then return String.ofList acc.reverse
    else if c == '\\' then
      let x ← escape quote
      quotedRest quote fuel (x :: acc)
    else if c.toNat < 0x20 then failure
    else quotedRest quote fuel (c :: acc)

def quoted : Reader String := do
  let cs ← get
  match cs with
  | '"' :: _ => do
    bump
    quotedRest '"' cs.length []
  | '\'' :: _ => do
    bump
    quotedRest '\'' cs.length []
  | _ => failure

def isQuote (c : Char) : Bool := c == '"' || c == '\''

def numberLiteral : Reader Json := do
  let cs ← get
  let isPart (c : Char) : Bool :=
    c.isDigit || c == '-' || c == '+' || c == '.' || c == 'e' || c == 'E'
  let rec longest : Nat → Option (Json × List Char)
    | 0 => none
    | n + 1 =>
      match Json.parse? (String.ofList (cs.take (n + 1))) with
      | some (.num x) => some (.num x, cs.drop (n + 1))
      | _ => longest n
  let (value, rest) ← longest (cs.takeWhile isPart).length
  set rest
  return value

def literal : Reader Json := do
  match ← peek? with
  | some c =>
    if isQuote c then return .str (← quoted)
    else if c == '-' || c.isDigit then numberLiteral
    else if ← bumpIf "true" then return .bool true
    else if ← bumpIf "false" then return .bool false
    else if ← bumpIf "null" then return .null
    else failure
  | none => failure

def startsLiteral (cs : List Char) : Bool :=
  match cs with
  | c :: _ =>
    isQuote c || c == '-' || c.isDigit || startsWith "true".toList cs ||
      startsWith "false".toList cs || startsWith "null".toList cs
  | [] => false

def comparison? : Reader (Option Comparison) := do
  if ← bumpIf "==" then return some .eq
  else if ← bumpIf "!=" then return some .ne
  else if ← bumpIf "<=" then return some .le
  else if ← bumpIf ">=" then return some .ge
  else if ← bumpIf "<" then return some .lt
  else if ← bumpIf ">" then return some .gt
  else return none

def isSingle : Query → Bool
  | .query _ segments => segments.all fun
    | .segment false [.name _] => true
    | .segment false [.index _] => true
    | _ => false

inductive Term where
  | operand (value : Operand)
  | nodes (query : Query)
  | test (test : Test)

def Term.operand? : Term → Option Operand
  | .operand x => some x
  | .nodes query => if isSingle query then some (.single query) else none
  | .test _ => none

def functionName : Reader String := do
  let cs ← get
  let isName (c : Char) : Bool := ('a' ≤ c && c ≤ 'z') || c == '_' || c.isDigit
  let name := cs.takeWhile isName
  set (cs.dropWhile isName)
  return String.ofList name

def call? (name : String) (arguments : List Term) : Option Term :=
  match name, arguments with
  | "length", [a] => (Term.operand? a).map fun a => .operand (.length a)
  | "count", [.nodes query] => some (.operand (.count query))
  | "value", [.nodes query] => some (.operand (.valueOf query))
  | "match", [a, b] => do
    let a ← Term.operand? a
    let b ← Term.operand? b
    some (.test (.pattern true a b))
  | "search", [a, b] => do
    let a ← Term.operand? a
    let b ← Term.operand? b
    some (.test (.pattern false a b))
  | _, _ => none

mutual

def segments : Nat → List Segment → Reader (List Segment)
  | 0, _ => failure
  | fuel + 1, acc => do
    let before ← get
    skipSpace
    match ← get with
    | '.' :: '.' :: rest =>
      set rest
      let selectors ← afterDots fuel
      segments fuel (.segment true selectors :: acc)
    | '.' :: rest =>
      set rest
      let selector ← if ← bumpIf "*" then pure Selector.wildcard else Selector.name <$> shorthandName
      segments fuel (.segment false [selector] :: acc)
    | '[' :: _ =>
      let selectors ← bracketed fuel
      segments fuel (.segment false selectors :: acc)
    | _ =>
      set before
      return acc.reverse

def afterDots : Nat → Reader (List Selector)
  | 0 => failure
  | fuel + 1 => do
    match ← peek? with
    | some '[' => bracketed fuel
    | some '*' =>
      bump
      return [.wildcard]
    | _ => return [.name (← shorthandName)]

def bracketed : Nat → Reader (List Selector)
  | 0 => failure
  | fuel + 1 => do
    expect "["
    skipSpace
    selectors fuel []

def selectors : Nat → List Selector → Reader (List Selector)
  | 0, _ => failure
  | fuel + 1, acc => do
    let next ← selector fuel
    skipSpace
    if ← bumpIf "]" then return (next :: acc).reverse
    expect ","
    skipSpace
    selectors fuel (next :: acc)

def selector : Nat → Reader Selector
  | 0 => failure
  | fuel + 1 => do
    let some c ← peek? | failure
    if isQuote c then return .name (← quoted)
    else if c == '*' then
      bump
      return .wildcard
    else if c == '?' then
      bump
      skipSpace
      return .filter (← disjunction fuel)
    else
      let first ← optionalNumber
      if ← bumpAfterSpace ":" then
        skipSpace
        let last ← optionalNumber
        if ← bumpAfterSpace ":" then
          skipSpace
          return .slice first last (← optionalNumber)
        else return .slice first last none
      else
        match first with
        | some i => return .index i
        | none => failure

def disjunction : Nat → Reader Test
  | 0 => failure
  | fuel + 1 => do
    let first ← conjunction fuel
    if ← bumpAfterSpace "||" then
      skipSpace
      match ← disjunction fuel with
      | .any rest => return .any (first :: rest)
      | rest => return .any [first, rest]
    else return first

def conjunction : Nat → Reader Test
  | 0 => failure
  | fuel + 1 => do
    let first ← basic fuel
    if ← bumpAfterSpace "&&" then
      skipSpace
      match ← conjunction fuel with
      | .all rest => return .all (first :: rest)
      | rest => return .all [first, rest]
    else return first

def basic : Nat → Reader Test
  | 0 => failure
  | fuel + 1 => do
    if ← bumpIf "!" then
      skipSpace
      if (← peek?) == some '(' then return .not (← parenthesized fuel)
      match ← term fuel with
      | .nodes query => return .not (.present query)
      | .test test => return .not test
      | .operand _ => failure
    else if (← peek?) == some '(' then parenthesized fuel
    else
      let left ← term fuel
      let before ← get
      skipSpace
      match ← comparison? with
      | some op =>
        skipSpace
        let right ← term fuel
        match left.operand?, right.operand? with
        | some left, some right => return .compare op left right
        | _, _ => failure
      | none =>
        set before
        match left with
        | .nodes query => return .present query
        | .test test => return test
        | .operand _ => failure

def parenthesized : Nat → Reader Test
  | 0 => failure
  | fuel + 1 => do
    expect "("
    skipSpace
    let test ← disjunction fuel
    skipSpace
    expect ")"
    return test

def term : Nat → Reader Term
  | 0 => failure
  | fuel + 1 => do
    match ← get with
    | '$' :: rest =>
      set rest
      return .nodes (.query true (← segments fuel []))
    | '@' :: rest =>
      set rest
      return .nodes (.query false (← segments fuel []))
    | cs =>
      if startsLiteral cs then return .operand (.literal (← literal))
      else
        let name ← functionName
        expect "("
        skipSpace
        let arguments ← if ← bumpIf ")" then pure [] else callArguments fuel []
        match call? name arguments with
        | some result => return result
        | none => failure

def callArguments : Nat → List Term → Reader (List Term)
  | 0, _ => failure
  | fuel + 1, acc => do
    let next ← term fuel
    skipSpace
    if ← bumpIf ")" then return (next :: acc).reverse
    expect ","
    skipSpace
    callArguments fuel (next :: acc)

end

end Reader

def Query.parse? (text : String) : Option Query :=
  match text.toList with
  | '$' :: cs =>
    match (Reader.segments (8 * cs.length + 16) []).run cs with
    | some (segments, []) => some (.query true segments)
    | _ => none
  | _ => none

end Arazzo.JsonPath
