import Arazzo.Cli.Execute

/-! The program: files and arguments come from the machine, and requests have no network. -/

namespace Arazzo.Program

abbrev Known := List (String × Except FileFault String)

def faultOf : IO.Error → FileFault
  | .noFileOrDirectory .. => .notFound
  | .inappropriateType _ 20 _ => .notADirectory
  | .inappropriateType _ 21 _ => .isDirectory
  | .inappropriateType none _ _ => .isDirectory
  | error => .other (toString error)

def readPath (path : String) : IO (Except FileFault String) := do
  try
    return .ok (← IO.FS.readFile path)
  catch error => return .error (faultOf error)

def filesOf (known : Known) : Files where
  read path := (known.lookup path).getD (.error .notFound)

def namedPaths (arguments : List String) : List String :=
  match Cli.Invocation.read arguments with
  | .run command =>
    command.path ::
      match command.task with
      | .execute options => options.inputs.toList
      | _ => []
  | _ => []

/-- Works with what is known, and again whenever a file was missed. -/
def attempt (directory : String) (arguments : List String) : Nat → Known → IO Cli.Outcome
  | 0, known => return (Cli.run { files := filesOf known, directory } arguments).1
  | rounds + 1, known => do
    let (outcome, trace) := Cli.run { files := filesOf known, directory } arguments
    match trace.reads.find? fun path => (known.lookup path).isNone with
    | none => return outcome
    | some path => attempt directory arguments rounds ((path, ← readPath path) :: known)

def run (arguments : List String) : IO Cli.Outcome := do
  let directory := toString (← IO.currentDir)
  let known ← (namedPaths arguments).mapM fun path => do return (path, ← readPath path)
  attempt directory arguments 10000 known

end Arazzo.Program

def main (arguments : List String) : IO UInt32 := do
  let outcome ← Arazzo.Program.run arguments
  IO.print outcome.stdout
  IO.eprint outcome.stderr
  return UInt32.ofNat outcome.exit.code
