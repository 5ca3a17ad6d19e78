import Arazzo.Expression

/-! Texts with runtime expressions in braces. -/

namespace Arazzo

inductive Segment where
  | literal (text : String)
  | expression (text : String)
deriving DecidableEq, Repr

inductive TemplateError where
  | badExpression (error : ExpressionError)
  | unclosed
deriving DecidableEq

namespace TemplateError

def message : TemplateError → String
  | .badExpression error => "invalid runtime expression: " ++ error.message
  | .unclosed => "unclosed embedded expression (missing '\x7d')"

end TemplateError

namespace Template

def literalOf (chars : List Char) : List Segment :=
  if chars.isEmpty then [] else [.literal (String.ofList chars)]

def startsExpression (cs : List Char) : Bool :=
  match cs.dropWhile Text.isBlank with
  | '$' :: _ => true
  | _ => false

/-- `pending` is the literal so far, `inner?` the inside of a brace that is open. -/
def splitFrom (pending : List Char) (inner? : Option (List Char)) :
    List Char → Except TemplateError (List Segment)
  | [] => if inner?.isSome then .error .unclosed else .ok (literalOf pending)
  | c :: cs =>
    match inner? with
    | some inner =>
      if c = '\x7d' then do
        let rest ← splitFrom [] none cs
        return literalOf pending ++ .expression (String.ofList (Text.trimChars inner)) :: rest
      else splitFrom pending (some (inner ++ [c])) cs
    | none =>
      if c = '\x7b' ∧ startsExpression cs then splitFrom pending (some []) cs
      else splitFrom (pending ++ [c]) none cs

def split (text : String) : Except TemplateError (List Segment) := splitFrom [] none text.toList

def checkExpression (text : String) : Except TemplateError Unit :=
  match Expression.parse text with
  | .ok _ => .ok ()
  | .error error => .error (.badExpression error)

def checkSegment : Segment → Except TemplateError Unit
  | .literal _ => .ok ()
  | .expression text => checkExpression text

def parse (text : String) : Except TemplateError (List Segment) := do
  let segments ← split text
  segments.forM checkSegment
  return segments

def checkText (text : String) : Except TemplateError Unit :=
  let trimmed := Text.trim text
  if trimmed.toList.head? = some '$' then checkExpression trimmed
  else (parse text).map fun _ => ()

mutual

def checkValue : Json → Except TemplateError Unit
  | .str text => checkText text
  | .arr items => checkItems items
  | .obj members => checkMembers members
  | _ => .ok ()

def checkItems : List Json → Except TemplateError Unit
  | [] => .ok ()
  | item :: rest => do
    checkValue item
    checkItems rest

def checkMembers : List (String × Json) → Except TemplateError Unit
  | [] => .ok ()
  | (_, value) :: rest => do
    checkValue value
    checkMembers rest

end

end Template
end Arazzo
