import Arazzo.Diagnostic
import Arazzo.Template

/-! Rules that texts inside a document must keep. -/

namespace Arazzo.Validation

abbrev Findings := List Diagnostic

def invalid (location : Place) (key : Option PlaceStep) (reason : String) : Findings :=
  [⟨.invalid reason, location, key⟩]

def invalidAt (location : Place) (key reason : String) : Findings :=
  invalid location (some (.member key)) reason

def repeated (location : Place) (key : PlaceStep) : Findings := [⟨.repeated, location, some key⟩]

def warningAt (location : Place) (key reason : String) : Findings :=
  [⟨.warning reason, location, some (.member key)⟩]

def require (holds : Bool) (findings : Findings) : Findings := if holds then [] else findings

def isIdText (s : String) : Bool :=
  !s.isEmpty && s.toList.all fun c => c.isAlphanum || c == '_' || c == '-'

def isKeyText (s : String) : Bool := !s.isEmpty && s.toList.all Expression.isNameChar

def idText (location : Place) (key : String) (id : String) : Findings :=
  require (isIdText id) (invalidAt location key "must match [A-Za-z0-9_\\-]+")

def notBlank (location : Place) (key : String) (text : String) : Findings :=
  require (!Text.isBlankText text) (invalidAt location key "must not be empty")

def tableKeys (location : Place) (keys : List String) : Findings :=
  keys.flatMap fun key =>
    require (isKeyText key) (invalidAt location key "map key must match ^[a-zA-Z0-9\\.\\-_]+$")

def startsWithDollar (text : String) : Bool := text.toList.head? == some '$'

def expression (location : Place) (key : PlaceStep) (text : String) : Findings :=
  match Expression.parse text with
  | .ok _ => []
  | .error error => invalid location (some key) ("invalid runtime expression: " ++ error.message)

def template (location : Place) (key text : String) : Findings :=
  match Template.parse text with
  | .ok _ => []
  | .error error => invalidAt location key ("invalid template expression: " ++ error.message)

def expressionIfMarked (location : Place) (key text : String) : Findings :=
  let trimmed := Text.trim text
  if startsWithDollar trimmed then expression location (.member key) trimmed else []

/-- An output is an expression, a pointer into the components, or a template. -/
def output (location : Place) (key text : String) : Findings :=
  let trimmed := Text.trim text
  if startsWithDollar trimmed then expression location (.member key) trimmed
  else if Text.startsWith ['#', '/'] trimmed.toList then []
  else template location key text

def outputs (location : Place) (table : Table String) : Findings :=
  tableKeys location (Table.keys table) ++
    table.flatMap fun (key, text) => output location key text

def value (location : Place) (key : String) (v : Json) : Findings :=
  match Template.checkValue v with
  | .ok _ => []
  | .error error => invalidAt location key ("invalid expression inside value: " ++ error.message)

def eachItem {α : Type} (rule : Nat → α → List α → Findings) (items : List α) : Findings :=
  go [] 0 items
where
  go (earlier : List α) (i : Nat) : List α → Findings
    | [] => []
    | item :: rest => rule i item earlier ++ go (earlier ++ [item]) (i + 1) rest

end Arazzo.Validation
