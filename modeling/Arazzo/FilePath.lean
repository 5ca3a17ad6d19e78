import Arazzo.Text.Scan

/-! Paths of files, with slashes between their names. -/

namespace Arazzo.FilePath

/-- The leading slash, or the leading dot of a path that starts in the working directory. -/
def lead (cs : List Char) : List Char × List Char :=
  match cs with
  | '/' :: rest => (['/'], rest)
  | ['.'] => (['.'], [])
  | '.' :: '/' :: rest => (['.'], '/' :: rest)
  | cs => ([], cs)

def isIdle (name : List Char) : Bool := name.isEmpty || name == ['.']

/-- The directory that holds the file; none for a root and for an empty path. -/
def parent? (path : String) : Option String :=
  let (root, body) := lead path.toList
  match (Text.splitAll '/' body).reverse.dropWhile isIdle with
  | _ :: before =>
    some (String.ofList (root ++ Text.joinWith ['/'] (before.dropWhile isIdle).reverse))
  | [] => if root = ['.'] then some "" else none

def isAbsolute (path : String) : Bool := path.toList.head? == some '/'

def join (directory path : String) : String :=
  if isAbsolute path || directory.isEmpty then path
  else if directory.toList.getLast? = some '/' then directory ++ path
  else directory ++ "/" ++ path

/-- The path from the root: idle names are left out, and a slash at the end stays. -/
def absolute (directory path : String) : String :=
  let cs := path.toList
  let names := (Text.splitAll '/' cs).filter fun name => !isIdle name
  let (start, names) : String × List (List Char) :=
    match cs with
    | '/' :: '/' :: '/' :: _ => ("/", names)
    | '/' :: '/' :: _ => ("//", names)
    | '/' :: _ => ("/", names)
    | _ => (directory, names)
  let path := names.foldl (fun path name => join path (String.ofList name)) start
  if cs.getLast? = some '/' ∧ path.toList.getLast? ≠ some '/' then path ++ "/" else path

end Arazzo.FilePath
