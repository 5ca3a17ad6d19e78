import Arazzo.Url.Host

/-! URLs: their parts, their text, and changing a part. -/

namespace Arazzo

inductive UrlPath where
  | whole (text : String)
  | segments (names : List String)
deriving DecidableEq, Repr

/-- All parts are kept percent-encoded. -/
structure Url where
  scheme : String
  username : String := ""
  password : Option String := none
  host : Option Host := none
  port : Option Nat := none
  path : UrlPath
  query : Option String := none
  fragment : Option String := none
deriving DecidableEq, Repr

namespace UrlPath

def text : UrlPath → String
  | .whole text => text
  | .segments names => String.join (names.map ("/" ++ ·))

end UrlPath

namespace Url

def isWeb (scheme : String) : Bool := scheme == "http" || scheme == "https"

/-- Schemes that always name a host, but for files. -/
def isSpecial (scheme : String) : Bool :=
  isWeb scheme || scheme == "ws" || scheme == "wss" || scheme == "ftp" || scheme == "file"

def defaultPort? : String → Option Nat
  | "http" => some 80
  | "ws" => some 80
  | "https" => some 443
  | "wss" => some 443
  | "ftp" => some 21
  | _ => none

def credentialsText (u : Url) : String :=
  match u.password with
  | some password => u.username ++ ":" ++ password ++ "@"
  | none => if u.username.isEmpty then "" else u.username ++ "@"

def portText (u : Url) : String :=
  match u.port with
  | some port => ":" ++ toString port
  | none => ""

/-- Without a host, a path that begins with an empty name is kept apart from the scheme by `/.`. -/
def authorityText (u : Url) : String :=
  match u.host, u.path with
  | some host, _ => "//" ++ u.credentialsText ++ host.text ++ u.portText
  | none, .segments ("" :: _ :: _) => "/."
  | none, _ => ""

def marked (mark : String) : Option String → String
  | some text => mark ++ text
  | none => ""

def text (u : Url) : String :=
  u.scheme ++ ":" ++ u.authorityText ++ u.path.text ++ marked "?" u.query ++ marked "#" u.fragment

def isLetterPair (mark : Char → Bool) : List Char → Bool
  | [c, d] => c.isAlpha && mark d
  | _ => false

def isDriveLetter (cs : List Char) : Bool := isLetterPair (fun d => d == ':' || d == '|') cs

def isNormalDrive (cs : List Char) : Bool := isLetterPair (· == ':') cs

def dots (cs : List Char) : String :=
  (String.ofList (Text.replaceAll "%2e".toList ['.'] (cs.map Text.asciiLower)))

def isSingleDot (cs : List Char) : Bool := dots cs == "."

def isDoubleDot (cs : List Char) : Bool := dots cs == ".."

/-- One level up; a drive letter stays. -/
def shorten (isFile : Bool) (names : List String) : List String :=
  match names with
  | [name] => if isFile && isNormalDrive name.toList then [name] else []
  | names => names.dropLast

/-- A name is added to the end of a path; the last one leaves an empty name where it is only dots. -/
def addSegment (isFile last : Bool) (names : List String) (segment : List Char) : List String :=
  if isDoubleDot segment then shorten isFile names ++ (if last then [""] else [])
  else if isSingleDot segment then names ++ (if last then [""] else [])
  else
    let encoded := Percent.encodeWith Percent.keepsInPath segment
    match isFile && names.isEmpty && isDriveLetter encoded, encoded with
    | true, c :: _ => names ++ [String.ofList [c, ':']]
    | _, _ => names ++ [String.ofList encoded]

def addSegments (isFile : Bool) (names : List String) : List (List Char) → List String
  | [] => names
  | [segment] => addSegment isFile true names segment
  | segment :: rest => addSegments isFile (addSegment isFile false names segment) rest

def splitPath (special : Bool) (cs : List Char) : List (List Char) :=
  Text.splitAll '/' (if special then cs.map fun c => if c = '\\' then '/' else c else cs)

/-- The path of a local file never begins with an empty name. -/
def trimFilePath (isFile : Bool) (names : List String) : List String :=
  if isFile then
    match names.dropWhile String.isEmpty with
    | [] => [""]
    | names => names
  else names

def pathFrom (scheme : String) (before : List String) (cs : List Char) : List String :=
  let isFile := scheme == "file"
  trimFilePath isFile (addSegments isFile before (splitPath (isSpecial scheme) cs))

/-- A path from the root; only special schemes have one where the text is empty. -/
def rootPath (scheme : String) (cs : List Char) : List String :=
  match cs with
  | [] => if isSpecial scheme then [""] else []
  | '/' :: rest => pathFrom scheme [] rest
  | '\\' :: rest => pathFrom scheme [] (if isSpecial scheme then rest else '\\' :: rest)
  | cs => pathFrom scheme [] cs

/-- Tabs and line ends do not count, wherever they stand. -/
def withoutBreaks (cs : List Char) : List Char :=
  cs.filter fun c => !(c == '\t' || c == '\n' || c == '\r')

/-- The URL with another path; marks of queries and fragments are part of it. -/
def setPath (path : String) (u : Url) : Url :=
  let encoded (cs : List Char) : String :=
    String.ofList (Percent.encodeWith Percent.isPrintable (withoutBreaks cs))
  match u.path, path.toList with
  | .whole _, '/' :: cs => { u with path := .whole ("%2F" ++ encoded cs) }
  | .whole _, cs => { u with path := .whole (encoded cs) }
  | .segments _, cs => { u with path := .segments (rootPath u.scheme (withoutBreaks cs)) }

/-- A scheme's own port is not written. -/
def setPort (port : Nat) (u : Url) : Url :=
  { u with port := if defaultPort? u.scheme = some port then none else some port }

def addToQuery (pairs : List (String × String)) (u : Url) : Url :=
  if pairs.isEmpty then u
  else
    let added := String.ofList (Percent.form pairs)
    match u.query with
    | none => { u with query := some added }
    | some "" => { u with query := some added }
    | some query => { u with query := some (query ++ "&" ++ added) }

def filePath? (u : Url) : Option String :=
  match u.path, u.host with
  | .segments names, host =>
    if host.isNone || host == some (.domain "") then
      let path := names.flatMap fun name => '/' :: Text.decodeLossy (Percent.decodeBytes name.toList)
      match path.reverse with
      | d :: c :: _ :: _ =>
        some (String.ofList (if isDriveLetter [c, d] then path ++ ['/'] else path))
      | _ => some (String.ofList path)
    else none
  | _, _ => none

end Url
end Arazzo
