import Arazzo.Component
import Arazzo.Context
import Arazzo.Document.Writer
import Arazzo.JsonPath.Reader
import Arazzo.Json.Writer
import Arazzo.Template

/-! What runtime expressions stand for, given a document, published outputs and a context. -/

namespace Arazzo

inductive Absence where
  | exchange
  | header (side : Side) (name : String)
  | pathParameter (name : String)
  | queryParameter (name : String)
  | responseParameters
  | body (side : Side)
  | bodyItem
deriving DecidableEq

inductive ResolveError where
  | syntaxError (expression : String) (error : ExpressionError)
  | missing (expression : String) (absence : Absence)
  | templateError (text : String) (error : TemplateError)
deriving DecidableEq

namespace Absence

def message : Absence → String
  | .exchange => "no HTTP exchange has happened yet"
  | .header side name => "no " ++ side.keyword ++ " header `" ++ name ++ "`"
  | .pathParameter name => "no path parameter `" ++ name ++ "`"
  | .queryParameter name => "no query parameter `" ++ name ++ "`"
  | .responseParameters => "responses carry no path or query parameters"
  | .body side => side.keyword ++ " has no body"
  | .bodyItem => "no such item in the body"

end Absence

namespace ResolveError

def message : ResolveError → String
  | .syntaxError e error => "invalid runtime expression `" ++ e ++ "`: " ++ error.message
  | .missing e absence => "cannot resolve `" ++ e ++ "`: " ++ absence.message
  | .templateError text error => "malformed template `" ++ text ++ "`: " ++ error.message

end ResolveError

def stepInto? (name : String) : Json → Option Json
  | .obj members => Table.get? name members
  | .arr items => (Text.readSignedNat? (Nat.pow 2 64 - 1) name.toList).bind fun i => items[i]?
  | _ => none

def walk? (names : List String) (value : Json) : Option Json :=
  names.foldlM (fun value name => stepInto? name value) value

def atPointer? (pointer : Option Pointer) (value : Json) : Option Json :=
  match pointer with
  | some pointer => pointer.resolve? value
  | none => some value

def NamePath.within? (path : NamePath) (value : Json) : Option Json :=
  (walk? path.rest value).bind (atPointer? path.pointer)

/-- A dotted path that is no query, such as one with a hyphen in a name. -/
def dotted? (suffix : String) (body : Json) : Option Json :=
  let names := Text.splitAll '.' (suffix.toList.dropWhile (· == '.'))
  walk? (names.map String.ofList) body

def BodyAccess.find? (access : BodyAccess) (body : Json) : Option Json :=
  match access with
  | .whole => some body
  | .pointer p => p.resolve? body
  | .path suffix =>
    match JsonPath.Query.parse? ("$" ++ suffix) with
    | some query => query.first? body
    | none => dotted? suffix body

def MessagePart.find (side : Side) (part : MessagePart) (exchange : Exchange) :
    Except Absence Json :=
  let text (absence : Absence) (found : Option String) : Except Absence Json :=
    match found with
    | some s => .ok (.str s)
    | none => .error absence
  match side, part with
  | .request, .header name => text (.header side name) (header? name exchange.requestHeaders)
  | .response, .header name => text (.header side name) (header? name exchange.responseHeaders)
  | .request, .path name => text (.pathParameter name) (Table.get? name exchange.pathParams)
  | .request, .query name => text (.queryParameter name) (Table.get? name exchange.queryParams)
  | .response, .path _ => .error .responseParameters
  | .response, .query _ => .error .responseParameters
  | side, .body access =>
    let body := match side with
      | .request => exchange.requestBody
      | .response => exchange.responseBody
    match body with
    | none => .error (.body side)
    | some body =>
      match access.find? body with
      | some value => .ok value
      | none => .error .bodyItem

def outputKey (scope : Scope) (id name : String) : String :=
  "$" ++ scope.keyword ++ "." ++ id ++ ".outputs." ++ name

namespace Document

def componentsJson? (document : Document) : Option Json := document.components.map Components.toJson

/-- What `#/components…` points at; `fragment` is what follows that lead. -/
def componentsPointer? (fragment : List Char) (document : Document) : Option Json :=
  match document.componentsJson?, Pointer.parse (String.ofList fragment) with
  | some components, .ok pointer => pointer.resolve? components
  | _, _ => none

def componentParameter? (name : String) (document : Document) : Option Json :=
  document.components.bind fun components =>
    (Table.get? name components.parameters).bind fun entry =>
      match Component.resolveParameter document.components entry with
      | .ok parameter => some parameter.value
      | .error _ => none

def definitionOrOutput? (document : Document) (published : Table Json) (scope : Scope)
    (path : NamePath) : Option Json :=
  match path.rest with
  | "outputs" :: name :: rest =>
    (Table.get? (outputKey scope path.root name) published).bind fun value =>
      (walk? rest value).bind (atPointer? path.pointer)
  | ["outputs"] => none
  | _ =>
    let definition : Option Json := match scope with
      | .workflows => (document.workflow? path.root).map Workflow.toJson
      | _ => (document.findStep? path.root).map fun (_, step) => step.toJson
    definition.bind path.within?

end Document

namespace Expression

/-- Whether the value depends on the document alone. -/
def isFixed : Expression → Bool
  | .named .sourceDescriptions _ => true
  | .named .components _ => true
  | .componentParameter _ => true
  | _ => false

def ofExchange (context : Option Context) (find : Exchange → Except Absence Json) :
    Except Absence (Option Json) :=
  match context.bind (·.exchange) with
  | none => .error .exchange
  | some exchange => (find exchange).map some

def value (document : Document) (published : Table Json) (context : Option Context) :
    Expression → Except Absence (Option Json)
  | .url => ofExchange context fun exchange => .ok (.str exchange.url)
  | .method => ofExchange context fun exchange => .ok (.str exchange.method)
  | .statusCode => ofExchange context fun exchange => .ok (.ofNat exchange.status)
  | .message side part => ofExchange context (part.find side)
  | .named .inputs path =>
    .ok (context.bind fun c => (stepInto? path.root c.inputs).bind path.within?)
  | .named .outputs path =>
    .ok (context.bind fun c => (Table.get? path.root c.outputs).bind path.within?)
  | .named .sourceDescriptions path =>
    .ok ((document.source? path.root).bind fun source => path.within? source.toJson)
  | .named .components path =>
    .ok (document.componentsJson?.bind fun c => (c.get? path.root).bind path.within?)
  | .named .workflows path => .ok (document.definitionOrOutput? published .workflows path)
  | .named .steps path => .ok (document.definitionOrOutput? published .steps path)
  | .componentParameter name => .ok (document.componentParameter? name)

end Expression

def componentsLead : List Char := "#/components".toList

def isExpressionText (text : String) : Bool :=
  text.toList.head? == some '$' || Text.startsWith componentsLead text.toList

/-- What a text stands for without any memory of earlier answers, and whether it may be remembered. -/
def evaluateText (document : Document) (published : Table Json) (context : Option Context)
    (text : String) : Except ResolveError (Option Json) × Bool :=
  match Text.afterLead? componentsLead text.toList with
  | some fragment => (.ok (document.componentsPointer? fragment), true)
  | none =>
    match Expression.parse text with
    | .error (.unknown _) => (.ok (some (.str text)), false)
    | .error .noDollar => (.ok (some (.str text)), false)
    | .error error => (.error (.syntaxError text error), false)
    | .ok expression =>
      match expression.value document published context with
      | .ok value => (.ok value, expression.isFixed)
      | .error absence => (.error (.missing text absence), false)

/-- Answers for one document over one run; what depends on the document alone is remembered. -/
structure Resolver where
  document : Document
  published : Table Json := []
  memory : Table Json := []

/-- Work with a resolver that may fail; what the resolver learned is kept either way. -/
abbrev Resolving (ε : Type) := ExceptT ε (StateM Resolver)

namespace Resolver

def publish (key : String) (value : Json) (r : Resolver) : Resolver :=
  { r with published := Table.insert key value r.published }

def remember (text : String) (value : Option Json) (r : Resolver) : Resolver :=
  match value with
  | none => r
  | some value =>
    if value.asStr? = some text then r else { r with memory := Table.insert text value r.memory }

def resolve (expression : String) (context : Option Context) :
    Resolving ResolveError (Option Json) := do
  let text := Text.trim expression
  let r ← get
  match Table.get? text r.memory with
  | some value => return some value
  | none =>
    match evaluateText r.document r.published context text with
    | (.error error, _) => throw error
    | (.ok value, fixed) =>
      if fixed then set (r.remember text value)
      return value

def segmentText (context : Option Context) : Segment → Resolving ResolveError String
  | .literal text => return text
  | .expression text => do
    return ((← resolve text context).map Json.plainText).getD ""

/-- The text with every embedded expression replaced; what is not there is left empty. -/
def resolveTemplate (text : String) (context : Option Context) :
    Resolving ResolveError String := do
  match Template.split text with
  | .error error => throw (.templateError text error)
  | .ok segments => return String.join (← segments.mapM (segmentText context))

def resolveText (text : String) (context : Option Context) : Resolving ResolveError Json := do
  let trimmed := Text.trim text
  if isExpressionText trimmed then return (← resolve trimmed context).getD .null
  else if text.toList.contains '\x7b' then return .str (← resolveTemplate text context)
  else return .str text

mutual

def resolveValue (context : Option Context) : Json → Resolving ResolveError Json
  | .str text => resolveText text context
  | .arr items => return .arr (← resolveItems context items)
  | .obj members => return .obj (← resolveMembers context members)
  | value => return value

def resolveItems (context : Option Context) : List Json → Resolving ResolveError (List Json)
  | [] => return []
  | item :: rest => do
    let first ← resolveValue context item
    return first :: (← resolveItems context rest)

def resolveMembers (context : Option Context) :
    List (String × Json) → Resolving ResolveError (List (String × Json))
  | [] => return []
  | (key, value) :: rest => do
    let first ← resolveValue context value
    return (key, first) :: (← resolveMembers context rest)

end

end Resolver
end Arazzo
