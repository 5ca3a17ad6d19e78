import Arazzo.Url.Basic

/-! Reading URLs, on their own or relative to another. -/

namespace Arazzo

inductive UrlError where
  | relativeWithoutBase
  | malformed
deriving DecidableEq

namespace Url

structure Cut where
  head : List Char
  query : Option (List Char)
  fragment : Option (List Char)

def cut (cs : List Char) : Cut :=
  let (rest, fragment) := match Text.splitOnce? '#' cs with
    | some (rest, fragment) => (rest, some fragment)
    | none => (cs, none)
  match Text.splitOnce? '?' rest with
  | some (head, query) => ⟨head, some query, fragment⟩
  | none => ⟨rest, none, fragment⟩

def queryText (scheme : String) (cs : List Char) : String :=
  String.ofList (Percent.encodeWith (Percent.keepsInQuery (isSpecial scheme)) cs)

def fragmentText (cs : List Char) : String :=
  String.ofList (Percent.encodeWith Percent.keepsInFragment cs)

def withTail (c : Cut) (u : Url) : Url :=
  { u with query := c.query.map (queryText u.scheme), fragment := c.fragment.map fragmentText }

def isSchemeChar (c : Char) : Bool := c.isAlphanum || c == '+' || c == '-' || c == '.'

def cutScheme? (cs : List Char) : Option (String × List Char) :=
  match Text.splitOnce? ':' cs with
  | some (c :: name, rest) =>
    if c.isAlpha && name.all isSchemeChar then
      some (String.ofList ((c :: name).map Text.asciiLower), rest)
    else none
  | _ => none

def isSlash (special : Bool) (c : Char) : Bool := c == '/' || (special && c == '\\')

def cutUserinfo? (cs : List Char) : Option (List Char × List Char) :=
  (Text.splitOnce? '@' cs.reverse).map fun (after, before) => (before.reverse, after.reverse)

def encodeUserinfo (cs : List Char) : String :=
  String.ofList (Percent.encodeWith Percent.keepsInUserinfo cs)

def credentials (cs : List Char) : String × Option String :=
  match Text.splitOnce? ':' cs with
  | none => (encodeUserinfo cs, none)
  | some (user, []) => (encodeUserinfo user, none)
  | some (user, password) => (encodeUserinfo user, some (encodeUserinfo password))

/-- The host ends at the first colon outside brackets. -/
def cutPort (inside : Bool) : List Char → List Char × Option (List Char)
  | [] => ([], none)
  | c :: cs =>
    if c = ':' ∧ !inside then ([], some cs)
    else
      let (host, port) := cutPort (if c = '[' then true else if c = ']' then false else inside) cs
      (c :: host, port)

def readPort (scheme : String) : Option (List Char) → Except UrlError (Option Nat)
  | none => .ok none
  | some [] => .ok none
  | some cs =>
    match Text.readNat? cs with
    | some port =>
      if port > 65535 then .error .malformed
      else .ok (if defaultPort? scheme = some port then none else some port)
    | none => .error .malformed

section

variable (naming : Naming)

def readHost (scheme : String) (cs : List Char) : Except UrlError Host :=
  match if isSpecial scheme then Host.read? naming cs else Host.readOpaque? cs with
  | some host => .ok host
  | none => .error .malformed

def readAuthority (scheme : String) (c : Cut) : Except UrlError Url := do
  let special := isSpecial scheme
  let authority := c.head.takeWhile fun x => !isSlash special x
  let rest := c.head.dropWhile fun x => !isSlash special x
  let (userinfo, address) := (cutUserinfo? authority).getD ([], authority)
  let (username, password) := credentials userinfo
  let (name, portDigits) := cutPort false address
  if name.isEmpty && (special || portDigits.isSome || !username.isEmpty || password.isSome) then
    throw .malformed
  let host ← readHost naming scheme name
  let port ← readPort scheme portDigits
  return withTail c
    { scheme, username, password, host := some host, port,
      path := .segments (rootPath scheme rest) }

/-- The host of a file is empty, also where it is written `localhost`. -/
def readFileHost (cs : List Char) : Except UrlError Host :=
  if cs.isEmpty then .ok (.domain "")
  else
    match Host.read? naming cs with
    | some (.domain "localhost") => .ok (.domain "")
    | some host => .ok host
    | none => .error .malformed

def readFileAuthority (c : Cut) : Except UrlError Url := do
  let name := c.head.takeWhile fun x => !isSlash true x
  let rest := c.head.dropWhile fun x => !isSlash true x
  let file (host : Host) (rest : List Char) : Url :=
    withTail c { scheme := "file", host := some host, path := .segments (rootPath "file" rest) }
  if isDriveLetter name then return file (.domain "") c.head
  return file (← readFileHost naming name) rest

def startsWithSlashes (special : Bool) : List Char → Bool
  | c :: d :: _ => isSlash special c && isSlash special d
  | _ => false

def readRelative (base : Url) (cs : List Char) : Except UrlError Url :=
  let c := cut cs
  let special := isSpecial base.scheme
  if startsWithSlashes true c.head then
    if base.scheme == "file" then readFileAuthority naming { c with head := c.head.drop 2 }
    else if Text.startsWith "//".toList c.head then
      readAuthority naming base.scheme { c with head := c.head.drop 2 }
    else readAuthority naming base.scheme { c with head := c.head.dropWhile (isSlash true) }
  else
    match c.head, base.path with
    | [], _ =>
      match c.query with
      | none => .ok { base with fragment := c.fragment.map fragmentText }
      | some _ => .ok (withTail c base)
    | x :: rest, .segments names =>
      if isSlash special x then
        .ok (withTail c { base with path := .segments (pathFrom base.scheme [] rest) })
      else
        .ok (withTail c { base with
          path := .segments (pathFrom base.scheme (shorten (base.scheme == "file") names) (x :: rest)) })
    | _, .whole _ => .error .malformed

def readFile (base : Option Url) (cs : List Char) : Except UrlError Url :=
  match base with
  | some base => readRelative naming base cs
  | none =>
    let c := cut cs
    if startsWithSlashes true c.head then readFileAuthority naming { c with head := c.head.drop 2 }
    else
      .ok (withTail c
        { scheme := "file", host := some (.domain ""), path := .segments (rootPath "file" c.head) })

def readAfterScheme (base : Option Url) (scheme : String) (cs : List Char) : Except UrlError Url :=
  let c := cut cs
  let peer := base.filter (·.scheme == scheme)
  if scheme == "file" then readFile naming peer cs
  else if isSpecial scheme then
    match peer with
    | some base =>
      if startsWithSlashes true c.head then
        readAuthority naming scheme { c with head := c.head.dropWhile (isSlash true) }
      else readRelative naming base cs
    | none => readAuthority naming scheme { c with head := c.head.dropWhile (isSlash true) }
  else if Text.startsWith "//".toList c.head then
    readAuthority naming scheme { c with head := c.head.drop 2 }
  else
    match c.head with
    | '/' :: rest => .ok (withTail c { scheme, path := .segments (pathFrom scheme [] rest) })
    | head =>
      .ok (withTail c
        { scheme, path := .whole (String.ofList (Percent.encodeWith Percent.isPrintable head)) })

def isPadding (c : Char) : Bool := c.toNat ≤ 0x20

/-- Control characters and blanks around the text do not count either. -/
def cleaned (s : String) : List Char :=
  let start := s.toList.dropWhile isPadding
  withoutBreaks (start.reverse.dropWhile isPadding).reverse

def readWith (base : Option Url) (s : String) : Except UrlError Url :=
  let cs := cleaned s
  match cutScheme? cs, base with
  | some (scheme, rest), base => readAfterScheme naming base scheme rest
  | none, none => .error .relativeWithoutBase
  | none, some base =>
    match base.path, cs with
    | .segments _, _ => readRelative naming base cs
    | .whole _, '#' :: fragment => .ok { base with fragment := some (fragmentText fragment) }
    | .whole _, _ => .error .malformed

def parse (s : String) : Except UrlError Url := readWith naming none s

def parse? (s : String) : Option Url := (parse naming s).toOption

def join (reference : String) (base : Url) : Except UrlError Url := readWith naming (some base) reference

end

end Url
end Arazzo
