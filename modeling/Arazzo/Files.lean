import Arazzo.Table
import Arazzo.Text.Scan

/-! Reading files by their paths. -/

namespace Arazzo

inductive FileFault where
  | notFound
  | notADirectory
  | isDirectory
  | nameTooLong
  | nulInName
  | other (text : String)
deriving DecidableEq

namespace FileFault

def message : FileFault → String
  | .notFound => "No such file or directory (os error 2)"
  | .notADirectory => "Not a directory (os error 20)"
  | .isDirectory => "Is a directory (os error 21)"
  | .nameTooLong => "File name too long (os error 36)"
  | .nulInName => "file name contained an unexpected NUL byte"
  | .other text => text

end FileFault

structure Files where
  read : String → Except FileFault String

namespace Files

inductive Found where
  | file (text : String)
  | directory
  | nothing

def find (files : Table String) (path : List String) : Found :=
  let name := String.intercalate "/" path
  match Table.get? name files with
  | some text => .file text
  | none =>
    if path.isEmpty || files.any fun (key, _) => key.startsWith (name ++ "/") then .directory
    else .nothing

/-- Walks down from a directory of the tree; a step above its top leads nowhere. -/
def walk (files : Table String) (here : List String) : List String → Except FileFault String
  | [] =>
    match find files here with
    | .file text => .ok text
    | .directory => .error .isDirectory
    | .nothing => .error .notFound
  | name :: rest =>
    match find files here with
    | .nothing => .error .notFound
    | .file _ => .error .notADirectory
    | .directory =>
      if name = "" ∨ name = "." then walk files here rest
      else if name = ".." then
        if here.isEmpty then .error .notFound else walk files here.dropLast rest
      else walk files (here ++ [name]) rest

def below? (directory path : String) : Option String :=
  if path.toList.head? = some '/' then
    (Text.afterLead? (directory ++ "/").toList path.toList).map String.ofList
  else some path

def ofTable (directory : String) (files : Table String) : Files where
  read path :=
    let names := (Text.splitAll '/' path.toList).map String.ofList
    if path.isEmpty then .error .notFound
    else if path.toList.contains '\x00' then .error .nulInName
    else if path.utf8ByteSize > 4095 || names.any (·.utf8ByteSize > 255) then .error .nameTooLong
    else
      match below? directory path with
      | some path => walk files [] ((Text.splitAll '/' path.toList).map String.ofList)
      | none => .error .notFound

end Files
end Arazzo
