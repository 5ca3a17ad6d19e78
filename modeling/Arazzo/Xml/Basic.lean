import Arazzo.Text.Blank
import Arazzo.Text.Scan

/-! XML documents as trees, and their text. -/

namespace Arazzo.Xml

structure Name where
  lead : Option String := none
  space : Option String := none
  localPart : String
deriving DecidableEq, Repr

namespace Name

def same (a b : Name) : Bool := a.space == b.space && a.localPart == b.localPart

def text (name : Name) : String :=
  match name.lead with
  | some lead => lead ++ ":" ++ name.localPart
  | none => name.localPart

end Name

structure Attribute where
  name : Name
  value : String
deriving DecidableEq, Repr

structure Scope where
  plain : Option String := none
  leads : List (String × String) := []
deriving DecidableEq, Repr

inductive Node where
  | element (name : Name) (scope : Scope) (attributes : List Attribute) (children : List Node)
  | text (text : String)
  | comment (text : String)
  | instruction (target : String) (value : Option String)

instance : Inhabited Node := ⟨.text ""⟩

structure Document where
  children : List Node

namespace Node

mutual

def content : Node → String
  | .element _ _ _ children => contents children
  | .text s => s
  | .comment s => s
  | .instruction _ value => value.getD ""

/-- Comments and instructions inside an element add nothing. -/
def contents : List Node → String
  | [] => ""
  | .comment _ :: rest => contents rest
  | .instruction .. :: rest => contents rest
  | node :: rest => content node ++ contents rest

end

end Node

def escapeText (s : String) : String :=
  String.join (s.toList.map fun c =>
    if c = '<' then "&lt;" else if c = '>' then "&gt;" else if c = '&' then "&amp;"
    else String.singleton c)

def escapeValue (s : String) : String :=
  String.join (s.toList.map fun c =>
    if c = '<' then "&lt;" else if c = '>' then "&gt;" else if c = '&' then "&amp;"
    else if c = '\'' then "&apos;" else if c = '"' then "&quot;"
    else String.singleton c)

def renderAttribute (a : Attribute) : String :=
  " " ++ a.name.text ++ "='" ++ escapeValue a.value ++ "'"

/-- Prefixes that an element and its attributes use and that the element around them does not know. -/
def newLeads (name : Name) (scope outer : Scope) (attributes : List Attribute) :
    List (String × String) :=
  let used := (name :: attributes.map (·.name)).filterMap (·.lead)
  scope.leads.filter fun lead => used.contains lead.1 && !outer.leads.contains lead

def renderScope (name : Name) (scope outer : Scope) (attributes : List Attribute) : String :=
  let plain := match scope.plain with
    | some uri => if outer.plain == some uri then "" else " xmlns='" ++ uri ++ "'"
    | none => ""
  plain ++ String.join ((newLeads name scope outer attributes).map fun (lead, uri) =>
    " xmlns:" ++ lead ++ "='" ++ uri ++ "'")

namespace Node

mutual

def render (outer : Scope) : Node → String
  | .element name scope attributes children =>
    let start := "<" ++ name.text ++ String.join (attributes.map renderAttribute) ++
      renderScope name scope outer attributes
    if children.isEmpty then start ++ "/>"
    else start ++ ">" ++ renderAll scope children ++ "</" ++ name.text ++ ">"
  | .text s => escapeText s
  | .comment s => "<!--" ++ s ++ "-->"
  | .instruction target none => "<?" ++ target ++ "?>"
  | .instruction target (some value) => "<?" ++ target ++ " " ++ value ++ "?>"

def renderAll (outer : Scope) : List Node → String
  | [] => ""
  | node :: rest => render outer node ++ renderAll outer rest

end

end Node

def Document.render (d : Document) : String :=
  "<?xml version='1.0'?>" ++ Node.renderAll {} d.children

end Arazzo.Xml
