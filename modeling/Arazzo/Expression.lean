import Arazzo.Pointer
import Arazzo.Text.Blank

/-! Runtime expressions such as `$response.body#/id` or `$steps.login.outputs.token`. -/

namespace Arazzo

inductive Side where
  | request
  | response
deriving DecidableEq, Repr

inductive BodyAccess where
  | whole
  | pointer (pointer : Pointer)
  /-- The rest of a query, from its first `.` or `[`. -/
  | path (text : String)
deriving DecidableEq, Repr

inductive MessagePart where
  | header (name : String)
  | query (name : String)
  | path (name : String)
  | body (access : BodyAccess)
deriving DecidableEq, Repr

inductive Scope where
  | inputs
  | outputs
  | steps
  | workflows
  | sourceDescriptions
  | components
deriving DecidableEq, Repr

structure NamePath where
  root : String
  rest : List String
  pointer : Option Pointer
deriving DecidableEq, Repr

inductive Expression where
  | url
  | method
  | statusCode
  | message (side : Side) (part : MessagePart)
  | named (scope : Scope) (path : NamePath)
  | componentParameter (name : String)
deriving DecidableEq, Repr

inductive ExpressionError where
  | noDollar
  | unknown (head : String)
  | badSource (text : String)
  | emptyName
  | badName (name : String)
  | badHeader (name : String)
  | badPointer (error : PointerError)
  | pointerNotAllowed
deriving DecidableEq

namespace ExpressionError

def message : ExpressionError → String
  | .noDollar => "runtime expression must start with '$'"
  | .unknown head => "unknown runtime expression: " ++ head
  | .badSource text => "invalid source reference: " ++ text
  | .emptyName => "name segment must not be empty"
  | .badName name => "invalid name segment: " ++ name
  | .badHeader name => "invalid header token: " ++ name
  | .badPointer error => "invalid json pointer: " ++ error.message
  | .pointerNotAllowed => "json pointer is not allowed on this runtime expression"

end ExpressionError

namespace Side

def keyword : Side → String
  | .request => "request"
  | .response => "response"

end Side

namespace Scope

def keyword : Scope → String
  | .inputs => "inputs"
  | .outputs => "outputs"
  | .steps => "steps"
  | .workflows => "workflows"
  | .sourceDescriptions => "sourceDescriptions"
  | .components => "components"

def ofKeyword? : String → Option Scope
  | "inputs" => some .inputs
  | "outputs" => some .outputs
  | "steps" => some .steps
  | "workflows" => some .workflows
  | "sourceDescriptions" => some .sourceDescriptions
  | "components" => some .components
  | _ => none

end Scope

namespace Expression

def isNameChar (c : Char) : Bool := c.isAlphanum || c == '.' || c == '-' || c == '_'

def isHeaderChar (c : Char) : Bool := c.isAlphanum || "!#$%&'*+-.^_`|~".toList.contains c

def checkName (cs : List Char) : Except ExpressionError String :=
  if cs.isEmpty then .error .emptyName
  else if cs.all isNameChar then .ok (String.ofList cs)
  else .error (.badName (String.ofList cs))

def readNamePath (cs : List Char) (pointer : Option Pointer) : Except ExpressionError NamePath :=
  let parts := Text.splitAll '.' cs
  if parts.any List.isEmpty then .error .emptyName
  else do
    let names ← parts.mapM checkName
    return ⟨names.headD "", names.tail, pointer⟩

def readBody (cs suffix : List Char) (pointer : Option Pointer) :
    Except ExpressionError MessagePart :=
  match suffix, pointer with
  | [], some pointer => .ok (.body (.pointer pointer))
  | [], none => .ok (.body .whole)
  | _ :: _, some _ => .error .pointerNotAllowed
  | c :: more, none =>
    if c = '.' ∨ c = '[' then
      if more.isEmpty then .error .emptyName else .ok (.body (.path (String.ofList suffix)))
    else .error (.badSource (String.ofList cs))

def readPart (cs : List Char) (pointer : Option Pointer) : Except ExpressionError MessagePart :=
  match Text.afterLead? "body".toList cs with
  | some suffix => readBody cs suffix pointer
  | none =>
    if pointer.isSome then .error .pointerNotAllowed
    else
      match Text.splitOnce? '.' cs with
      | some (kind, name) =>
        if kind = "header".toList then
          if name.isEmpty then .error .emptyName
          else if name.all isHeaderChar then .ok (.header (String.ofList name))
          else .error (.badHeader (String.ofList name))
        else if kind = "query".toList then (checkName name).map .query
        else if kind = "path".toList then (checkName name).map .path
        else .error (.badSource (String.ofList cs))
      | none => .error (.badSource (String.ofList cs))

def readNamed (scope : Scope) (cs : List Char) (pointer : Option Pointer) :
    Except ExpressionError Expression :=
  match scope, Text.afterLead? "parameters.".toList cs with
  | .components, some name => do
    let name ← checkName name
    if pointer.isSome then .error .pointerNotAllowed else return .componentParameter name
  | _, _ => (readNamePath cs pointer).map (.named scope)

def readHead (head : List Char) (pointer : Option Pointer) : Except ExpressionError Expression :=
  let bare (e : Expression) : Except ExpressionError Expression :=
    if pointer.isSome then .error .pointerNotAllowed else .ok e
  if head = "url".toList then bare .url
  else if head = "method".toList then bare .method
  else if head = "statusCode".toList then bare .statusCode
  else
    match Text.splitOnce? '.' head with
    | none => .error (.unknown (String.ofList head))
    | some (keyword, rest) =>
      if keyword = "request".toList then (readPart rest pointer).map (.message .request)
      else if keyword = "response".toList then (readPart rest pointer).map (.message .response)
      else
        match Scope.ofKeyword? (String.ofList keyword) with
        | some scope => readNamed scope rest pointer
        | none => .error (.unknown (String.ofList head))

def readPointer (cs : List Char) : Except ExpressionError Pointer :=
  match Pointer.parse (String.ofList cs) with
  | .ok pointer => .ok pointer
  | .error error => .error (.badPointer error)

def parseChars (cs : List Char) : Except ExpressionError Expression :=
  match Text.trimChars cs with
  | '$' :: cs =>
    match Text.splitOnce? '#' cs with
    | some (head, fragment) => do readHead head (some (← readPointer fragment))
    | none => readHead cs none
  | _ => .error .noDollar

def parse (text : String) : Except ExpressionError Expression := parseChars text.toList

def pointerText : Option Pointer → String
  | some pointer => "#" ++ pointer.text
  | none => ""

def partText : MessagePart → String
  | .header name => "header." ++ name
  | .query name => "query." ++ name
  | .path name => "path." ++ name
  | .body .whole => "body"
  | .body (.pointer pointer) => "body#" ++ pointer.text
  | .body (.path text) => "body" ++ text

def namesText (path : NamePath) : String := String.intercalate "." (path.root :: path.rest)

def render : Expression → String
  | .url => "$url"
  | .method => "$method"
  | .statusCode => "$statusCode"
  | .message side part => "$" ++ side.keyword ++ "." ++ partText part
  | .named scope path => "$" ++ scope.keyword ++ "." ++ namesText path ++ pointerText path.pointer
  | .componentParameter name => "$components.parameters." ++ name

end Expression
end Arazzo
