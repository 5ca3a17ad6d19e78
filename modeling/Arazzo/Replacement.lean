import Arazzo.Json.Reader
import Arazzo.Json.Writer
import Arazzo.JsonPath.Reader
import Arazzo.Pointer
import Arazzo.Text.Reason
import Arazzo.XPath.Reader

/-! Replacing parts of a payload that pointers, queries and XPath expressions name. -/

namespace Arazzo

inductive ReplacementError where
  | pointer (target : String) (error : PointerError)
  | notJson (target : String)
  | notXml (target : String)
  | unmatched (target : String)
  | badXml
  | badXPath (target : String)
  | notNodes (target : String)
  | notReplaceable (target : String)
deriving DecidableEq

namespace ReplacementError

def message : ReplacementError → String
  | .pointer t error => "replacement target `" ++ t ++ "`: " ++ error.message
  | .notJson t => "replacement target `" ++ t ++ "` needs a JSON payload"
  | .notXml t => "replacement target `" ++ t ++ "` needs an XML payload"
  | .unmatched t => "replacement target `" ++ t ++ "` matched nothing"
  | .badXml => "invalid XML payload: " ++ unstatedReason
  | .badXPath t => "invalid XPath target `" ++ t ++ "`: " ++ unstatedReason
  | .notNodes t => "invalid XPath target `" ++ t ++ "`: expression does not select nodes"
  | .notReplaceable t =>
    "invalid XPath target `" ++ t ++ "`: only elements, attributes and text can be replaced"

end ReplacementError

namespace Payload

def xmlText? : Json → Option String
  | .str s => if (Text.trimStartChars s.toList).head? = some '<' then some s else none
  | _ => none

/-- A payload that can be looked into; a text has to hold an object or an array. -/
def structured (target : String) (payload : Json) : Except ReplacementError Json :=
  match payload with
  | .str s =>
    match Json.parse? s with
    | some (.obj members) => .ok (.obj members)
    | some (.arr items) => .ok (.arr items)
    | _ => .error (.notJson target)
  | payload => .ok payload

def putAt (new : Json) : List String → Json → Json
  | [], _ => new
  | token :: rest, .obj members =>
    match Table.get? token members with
    | some child => .obj (Table.insert token (putAt new rest child) members)
    | none => .obj members
  | token :: rest, .arr items =>
    match Pointer.readIndex? token with
    | some i =>
      match items[i]? with
      | some child => .arr (items.set i (putAt new rest child))
      | none => .arr items
    | none => .arr items
  | _, value => value

def isPlainToken (token : List Char) : Bool :=
  !token.isEmpty && token.all fun c => !("[]*?()".toList.contains c)

def dottedTokens? (target : String) : Option (List String) :=
  (Text.afterLead? "$.".toList target.toList).bind fun rest =>
    let tokens := Text.splitAll '.' rest
    if tokens.all isPlainToken then some (tokens.map String.ofList) else none

def selected (target : String) (payload : Json) : List JsonPath.Location :=
  match JsonPath.Query.parse? target with
  | some query => (query.nodes payload).map (·.location)
  | none => []

/-- Writes to every place that a query selects; a path of names that selects none is created. -/
def replaceJsonPath (target : String) (new payload : Json) : Except ReplacementError Json :=
  match selected target payload with
  | [] =>
    match dottedTokens? target with
    | none => .error (.unmatched target)
    | some tokens =>
      match (Pointer.ofTokens tokens).assign new payload with
      | (.ok (), value) => .ok value
      | (.error error, _) => .error (.pointer target error)
  | places => .ok (places.foldl (fun value place => putAt new place value) payload)

def replacePointer (target : String) (new payload : Json) : Except ReplacementError Json :=
  match Pointer.parse target with
  | .error error => .error (.pointer target error)
  | .ok pointer =>
    match structured target payload with
    | .error error => .error error
    | .ok payload =>
      match pointer.assign new payload with
      | (.ok (), value) => .ok value
      | (.error error, _) => .error (.pointer target error)

inductive XmlEdit where
  | element
  | attribute (name : Xml.Name)
  | text

/-- An attribute that is written goes to the end. -/
def setAttribute (name : Xml.Name) (value : String) (attributes : List Xml.Attribute) :
    List Xml.Attribute :=
  attributes.filter (fun a => !a.name.same name) ++ [⟨name, value⟩]

def editHere (edit : XmlEdit) (value : String) (node : Xml.Node) : Xml.Node :=
  match edit, node with
  | .element, .element name scope attributes _ => .element name scope attributes [.text value]
  | .attribute name, .element own scope attributes children =>
    .element own scope (setAttribute name value attributes) children
  | .text, .text _ => .text value
  | _, node => node

def editFrom (edit : XmlEdit) (value : String) : List Nat → Xml.Node → Xml.Node
  | [], node => editHere edit value node
  | i :: rest, .element name scope attributes children =>
    .element name scope attributes (children.modify i (editFrom edit value rest))
  | _, node => node

def editDocument (edit : XmlEdit) (value : String) (place : List Nat) (d : Xml.Document) :
    Xml.Document :=
  match place with
  | [] => d
  | i :: rest => ⟨d.children.modify i (editFrom edit value rest)⟩

def childPlace (a : XPath.Address) : List Nat :=
  a.filterMap fun
    | .child i => some i
    | .attr _ => none

def editFor? (found : Option XPath.Found) : Option XmlEdit :=
  match found with
  | some (.node (.element ..)) => some .element
  | some (.node (.text _)) => some .text
  | some (.attr a) => some (.attribute a.name)
  | _ => none

/-- Nodes inside an element whose content was replaced before are no longer part of the document. -/
def isDetached (replaced : List (List Nat)) (edit : XmlEdit) (place : List Nat) : Bool :=
  replaced.any fun outer =>
    outer.isPrefixOf place &&
      match edit with
      | .attribute _ => outer != place
      | _ => outer.length < place.length

def applyEdits (value : String) : List (XmlEdit × List Nat) → List (List Nat) → Xml.Document →
    Xml.Document
  | [], _, d => d
  | (edit, place) :: rest, replaced, d =>
    if isDetached replaced edit place then applyEdits value rest replaced d
    else
      let replaced := match edit with
        | .element => place :: replaced
        | _ => replaced
      applyEdits value rest replaced (editDocument edit value place d)

def replaceXPath (target value xml : String) : Except ReplacementError Json :=
  match Xml.parse? xml with
  | none => .error .badXml
  | some document =>
    match (XPath.Expr.parse? target).bind fun e => XPath.evaluate e document with
    | none => .error (.badXPath target)
    | some (.nodes []) => .error (.unmatched target)
    | some (.nodes addresses) =>
      let edits := addresses.mapM fun a =>
        (editFor? (XPath.Document.find? document a)).map fun edit => (edit, childPlace a)
      match edits with
      | none => .error (.notReplaceable target)
      | some edits => .ok (.str (applyEdits value edits [] document).render)
    | some _ => .error (.notNodes target)

def replace (target : String) (value payload : Json) : Except ReplacementError Json :=
  let target := Text.trim target
  let cs := target.toList
  if cs.head? = some '$' then
    match structured target payload with
    | .error error => .error error
    | .ok payload => replaceJsonPath target value payload
  else
    match xmlText? payload with
    | some xml => replaceXPath target value.plainText xml
    | none =>
      if cs.head? = some '/' || Text.startsWith ['#', '/'] cs then
        replacePointer target value payload
      else .error (.notXml target)

def replaceAll (payload : Json) : List (String × Json) → Except ReplacementError Json
  | [] => .ok payload
  | (target, value) :: rest => do replaceAll (← replace target value payload) rest

end Payload
end Arazzo
