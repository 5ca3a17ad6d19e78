import Arazzo.Json.Basic
import Arazzo.Text.Scan

/-! JSON pointers: reading a place in a value, and writing there. -/

namespace Arazzo

structure Pointer where
  text : String
deriving DecidableEq, Repr

inductive PointerError where
  | noLeadingSlash
  | badEscape
  | badIndex (token : String)
  | notAContainer (token : String)
deriving DecidableEq

namespace PointerError

def message : PointerError → String
  | .noLeadingSlash => "json pointer must start with '/'"
  | .badEscape => "json pointer contains invalid escape (only ~0 and ~1 are allowed)"
  | .badIndex token => "json pointer index out of range or malformed: " ++ token
  | .notAContainer token => "json pointer token '" ++ token ++ "' does not address an object or array"

end PointerError

namespace Pointer

def escapeChars : List Char → List Char
  | [] => []
  | c :: cs =>
    if c = '~' then '~' :: '0' :: escapeChars cs
    else if c = '/' then '~' :: '1' :: escapeChars cs
    else c :: escapeChars cs

def escapeToken (token : String) : String := String.ofList (escapeChars token.toList)

/-- First `~1` becomes a slash, then `~0` a tilde; any other tilde stays. -/
def unescapeChars (cs : List Char) : List Char :=
  Text.replaceAll ['~', '0'] ['~'] (Text.replaceAll ['~', '1'] ['/'] cs)

def unescapeToken (token : String) : String := String.ofList (unescapeChars token.toList)

def escapesOk : List Char → Bool
  | [] => true
  | '~' :: '0' :: cs => escapesOk cs
  | '~' :: '1' :: cs => escapesOk cs
  | c :: cs => c != '~' && escapesOk cs

def parseChars (cs : List Char) : Except PointerError Pointer :=
  match cs with
  | [] => .ok ⟨""⟩
  | '/' :: _ => if escapesOk cs then .ok ⟨String.ofList cs⟩ else .error .badEscape
  | _ => .error .noLeadingSlash

/-- A pointer may be written as a fragment, with a `#` before it. -/
def parse (text : String) : Except PointerError Pointer :=
  match text.toList with
  | '#' :: cs => parseChars cs
  | cs => parseChars cs

def ofTokens (tokens : List String) : Pointer :=
  ⟨String.ofList (tokens.flatMap fun token => '/' :: escapeChars token.toList)⟩

def tokens (pointer : Pointer) : List String :=
  match pointer.text.toList with
  | [] => []
  | _ :: cs => (Text.splitAll '/' cs).map fun part => String.ofList (unescapeChars part)

/-- A position in an array as a reader takes it: no sign and no padding. -/
def readIndex? (token : String) : Option Nat :=
  match token.toList with
  | '0' :: _ :: _ => none
  | cs => Text.readNat? cs

def child? (token : String) : Json → Option Json
  | .obj members => Table.get? token members
  | .arr items => (readIndex? token).bind fun i => items[i]?
  | _ => none

def resolveTokens : List String → Json → Option Json
  | [], value => some value
  | token :: rest, value => (child? token value).bind (resolveTokens rest)

def resolve? (pointer : Pointer) (value : Json) : Option Json := resolveTokens pointer.tokens value

/-- A missing container is an array when the next token is `-`, otherwise an object. -/
def freshFor : List String → Json
  | "-" :: _ => .arr []
  | _ => .obj []

/-- A position in an array as a writer takes it: a plus sign and padding are allowed. -/
def writeIndex? (token : String) (length : Nat) : Option Nat :=
  (Text.readSignedNat? (Nat.pow 2 64 - 1) token.toList).bind fun i => if i < length then some i else none

/-- A null that stands in the way becomes a container: an object, unless the last token is `-`. -/
def openedFor (tokens : List String) (value : Json) : Json :=
  match value with
  | .null => if tokens.length = 1 then freshFor tokens else .obj []
  | value => value

/--
Writes `new` in its place: what came of it, and the value as it stands then. Missing containers are
put in along the way, and whatever was written stays when a later token fails.
-/
def assignTokens (new : Json) : List String → Json → Except PointerError Unit × Json
  | [], _ => (.ok (), new)
  | token :: rest, value =>
    match openedFor (token :: rest) value with
    | .obj members =>
      let held := (Table.get? token members).getD (freshFor rest)
      (assignTokens new rest held).map id fun child => .obj (Table.insert token child members)
    | .arr items =>
      if token = "-" then
        (assignTokens new rest (freshFor rest)).map id fun child => .arr (items ++ [child])
      else
        match writeIndex? token items.length with
        | none => (.error (.badIndex token), .arr items)
        | some i =>
          (assignTokens new rest (items[i]?.getD .null)).map id fun child => .arr (items.set i child)
    | opened => (.error (.notAContainer token), opened)

def assign (pointer : Pointer) (new : Json) (value : Json) : Except PointerError Unit × Json :=
  assignTokens new pointer.tokens value

end Pointer
end Arazzo
