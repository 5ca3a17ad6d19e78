import Arazzo.Xml.Basic

/-! Reading XML documents. -/

namespace Arazzo.Xml

open Text

def isSpace (c : Char) : Bool := c == ' ' || c == '\t' || c == '\n' || c == '\r'

def isNameStart (c : Char) : Bool :=
  let n := c.toNat
  c.isAlpha || c == '_' || (0xc0 ≤ n && n ≤ 0xd6) || (0xd8 ≤ n && n ≤ 0xf6) ||
    (0xf8 ≤ n && n ≤ 0x2ff) || (0x370 ≤ n && n ≤ 0x37d) || (0x37f ≤ n && n ≤ 0x1fff) ||
    (0x200c ≤ n && n ≤ 0x200d) || (0x2070 ≤ n && n ≤ 0x218f) || (0x2c00 ≤ n && n ≤ 0x2fef) ||
    (0x3001 ≤ n && n ≤ 0xd7ff) || (0xf900 ≤ n && n ≤ 0xfdcf) || (0xfdf0 ≤ n && n ≤ 0xfffd) ||
    (0x10000 ≤ n && n ≤ 0xeffff)

def isNameChar (c : Char) : Bool :=
  let n := c.toNat
  isNameStart c || c.isDigit || c == '-' || c == '.' || n == 0xb7 ||
    (0x300 ≤ n && n ≤ 0x36f) || (0x203f ≤ n && n ≤ 0x2040)

abbrev Reader := StateT (List Char) Option

namespace Reader

def peek? : Reader (Option Char) := return (← get).head?

def bumpIf (lead : String) : Reader Bool := do
  match afterLead? lead.toList (← get) with
  | some rest =>
    set rest
    return true
  | none => return false

def expect (lead : String) : Reader Unit := do
  if !(← bumpIf lead) then failure

def skipSpace : Reader Bool := do
  let cs ← get
  let rest := cs.dropWhile isSpace
  set rest
  return rest.length < cs.length

def simpleName : Reader String := do
  match ← get with
  | c :: cs =>
    if isNameStart c then
      set (cs.dropWhile isNameChar)
      return String.ofList (c :: cs.takeWhile isNameChar)
    else failure
  | [] => failure

def prefixedName : Reader (Option String × String) := do
  let first ← simpleName
  if ← bumpIf ":" then return (some first, ← simpleName) else return (none, first)

def upTo (mark : String) : Reader String := do
  let cs ← get
  match afterFirst? mark.toList cs with
  | some rest =>
    set rest
    return String.ofList (cs.take (cs.length - rest.length - mark.length))
  | none => failure

def character (n : Nat) : Reader Char :=
  if n.isValidChar then return Char.ofNat n else failure

def reference : Reader Char := do
  let name ← upTo ";"
  match name.toList with
  | '#' :: 'x' :: digits =>
    if digits.isEmpty then failure
    let n ← (readDigits? 16 hexValue? digits : Option Nat)
    character n
  | '#' :: digits =>
    let n ← (readNat? digits : Option Nat)
    character n
  | _ =>
    match name with
    | "lt" => return '<'
    | "gt" => return '>'
    | "amp" => return '&'
    | "apos" => return '\''
    | "quot" => return '"'
    | _ => failure

def attributeRest (quote : Char) : Nat → List Char → Reader String
  | 0, _ => failure
  | fuel + 1, acc => do
    match ← get with
    | [] => failure
    | c :: cs =>
      set cs
      if c == quote then return String.ofList acc.reverse
      else if c == '<' then failure
      else if c == '&' then
        let x ← reference
        attributeRest quote fuel (x :: acc)
      else attributeRest quote fuel (c :: acc)

def attributeValue : Reader String := do
  let cs ← get
  if ← bumpIf "\"" then attributeRest '"' cs.length []
  else if ← bumpIf "'" then attributeRest '\'' cs.length []
  else failure

def attributes : Nat → List ((Option String × String) × String) →
    Reader (List ((Option String × String) × String))
  | 0, _ => failure
  | fuel + 1, acc => do
    let spaced ← skipSpace
    match ← peek? with
    | some c =>
      if c == '>' || c == '/' then return acc.reverse
      if !spaced then failure
      let name ← prefixedName
      let _ ← skipSpace
      expect "="
      let _ ← skipSpace
      attributes fuel ((name, ← attributeValue) :: acc)
    | none => failure

def comment : Reader Node := do
  let text ← upTo "--"
  expect ">"
  return .comment text

def instruction : Reader Node := do
  let target ← simpleName
  if toAsciiLower target == "xml" then failure
  if ← bumpIf "?>" then return .instruction target none
  if !(← skipSpace) then failure
  let value ← upTo "?>"
  return .instruction target (if value.isEmpty then none else some value)

end Reader

def declared (outer : Scope) (written : List ((Option String × String) × String)) : Option Scope :=
  let plains := written.filter fun ((lead, name), _) => lead.isNone && name == "xmlns"
  let leads := (written.filter fun ((lead, _), _) => lead == some "xmlns").map
    fun ((_, name), uri) => (name, uri)
  let names := leads.map (·.1)
  if plains.length > 1 || names.eraseDups.length < names.length ||
      leads.any (fun (_, uri) => uri.isEmpty) then none
  else
    let plain := match plains with
      | (_, uri) :: _ => if uri.isEmpty then none else some uri
      | [] => outer.plain
    some ⟨plain, leads ++ outer.leads.filter fun (name, _) => !names.contains name⟩

def Scope.find? (scope : Scope) (lead : String) : Option String :=
  if lead == "xml" then some "xml" else (scope.leads.find? (·.1 == lead)).map (·.2)

def resolveName? (scope : Scope) (plain : Option String) :
    Option String × String → Option Name
  | (none, name) => some ⟨none, plain, name⟩
  | (some lead, name) => (scope.find? lead).map fun uri => ⟨some lead, some uri, name⟩

/-- The attributes of a start tag other than its declarations of namespaces; no two are written with
one name. -/
def ownAttributes? (scope : Scope) (written : List ((Option String × String) × String)) :
    Option (List Attribute) := do
  let own := written.filter fun ((lead, name), _) =>
    !(lead == some "xmlns" || (lead.isNone && name == "xmlns"))
  if (own.map (·.1)).eraseDups.length < own.length then none
  else own.mapM fun (name, value) => do return ⟨← resolveName? scope none name, value⟩

namespace Reader

mutual

def element (outer : Scope) : Nat → Reader Node
  | 0 => failure
  | fuel + 1 => do
    let written ← prefixedName
    let found ← attributes fuel []
    let scope ← (declared outer found : Option Scope)
    let name ← (resolveName? scope scope.plain written : Option Name)
    let own ← (ownAttributes? scope found : Option (List Attribute))
    if ← bumpIf "/>" then return .element name scope own []
    expect ">"
    let children ← content scope fuel []
    expect "</"
    let closing ← prefixedName
    let _ ← skipSpace
    expect ">"
    if closing == written then return .element name scope own children else failure

/-- What stands in an element, up to its end tag; each reference is a text of its own. -/
def content (scope : Scope) : Nat → List Node → Reader (List Node)
  | 0, _ => failure
  | fuel + 1, acc => do
    let cs ← get
    match cs with
    | [] => failure
    | '<' :: '/' :: _ => return acc.reverse
    | '<' :: '!' :: '-' :: '-' :: rest =>
      set rest
      content scope fuel ((← comment) :: acc)
    | '<' :: '?' :: rest =>
      set rest
      content scope fuel ((← instruction) :: acc)
    | '<' :: rest =>
      if ← bumpIf "<![CDATA[" then
        content scope fuel (.text (← upTo "]]>") :: acc)
      else
        set rest
        content scope fuel ((← element scope fuel) :: acc)
    | '&' :: rest =>
      set rest
      let c ← reference
      content scope fuel (.text (String.singleton c) :: acc)
    | cs =>
      let text := cs.takeWhile fun c => c != '<' && c != '&'
      if Text.contains "]]>".toList text then failure
      set (cs.drop text.length)
      content scope fuel (.text (String.ofList text) :: acc)

end

def isVersion (value : String) : Bool :=
  match value.toList with
  | '1' :: '.' :: digits => !digits.isEmpty && digits.all Char.isDigit
  | _ => false

def isEncoding (value : String) : Bool :=
  match value.toList with
  | c :: rest => c.isAlpha && rest.all fun c => c.isAlphanum || c == '.' || c == '_' || c == '-'
  | [] => false

/-- What a declaration may say, in this order; the version has to be there. -/
def isDeclaration : List (String × String) → Bool
  | ("version", v) :: rest =>
    isVersion v &&
      match rest with
      | [] => true
      | [("encoding", e)] => isEncoding e
      | [("standalone", s)] => s == "yes" || s == "no"
      | [("encoding", e), ("standalone", s)] => isEncoding e && (s == "yes" || s == "no")
      | _ => false
  | _ => false

def declaration : Reader Unit := do
  if ← bumpIf "<?xml" then
    let found ← pseudoAttributes 4 []
    expect "?>"
    if !isDeclaration found then failure
where
  pseudoAttributes : Nat → List (String × String) → Reader (List (String × String))
    | 0, acc => return acc.reverse
    | fuel + 1, acc => do
      let spaced ← skipSpace
      if (← peek?) == some '?' then return acc.reverse
      if !spaced then failure
      let name ← simpleName
      let _ ← skipSpace
      expect "="
      let _ ← skipSpace
      pseudoAttributes fuel ((name, ← attributeValue) :: acc)

/-- A document type; what it declares is passed over. -/
def doctype : Reader Unit := do
  let cs ← get
  let inner := cs.takeWhile fun c => c != '[' && c != '>'
  set (cs.drop inner.length)
  if ← bumpIf "[" then
    let _ ← upTo "]"
    let _ ← skipSpace
  expect ">"

def topLevel : Nat → Bool → List Node → Reader (List Node)
  | 0, _, _ => failure
  | fuel + 1, rooted, acc => do
    let _ ← skipSpace
    match ← get with
    | [] => if rooted then return acc.reverse else failure
    | '<' :: '!' :: '-' :: '-' :: rest =>
      set rest
      topLevel fuel rooted ((← comment) :: acc)
    | '<' :: '?' :: rest =>
      set rest
      topLevel fuel rooted ((← instruction) :: acc)
    | '<' :: rest =>
      if rooted then failure
      if ← bumpIf "<!DOCTYPE" then
        doctype
        topLevel fuel rooted acc
      else
        set rest
        topLevel fuel true ((← element {} fuel) :: acc)
    | _ => failure

end Reader

def parse? (text : String) : Option Document := do
  let cs := text.toList
  let read : Reader (List Node) := do
    Reader.declaration
    Reader.topLevel (cs.length + 2) false []
  let (children, _) ← read.run cs
  some ⟨children⟩

end Arazzo.Xml
