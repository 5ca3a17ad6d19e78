import Arazzo.Text.Scan

/-! The command line: three commands and their options. -/

namespace Arazzo.Cli

inductive OutputFormat where
  | text
  | json
deriving DecidableEq, Repr

structure Output where
  format : OutputFormat := .text
  quiet : Bool := false
deriving DecidableEq, Repr

/-- Options of a run; times are in seconds but for the timeout, which is in milliseconds. -/
structure ExecuteOptions where
  workflow : Option String := none
  inputs : Option String := none
  settings : List String := []
  sources : List String := []
  timeout : Nat := 30000
  deadline : Option Nat := none
  maxResponseBytes : Nat := 10485760
  maxRetryDelay : Nat := 60
  maxSteps : Nat := 1000
  localhostPort : Nat := 8080
  contentType : String := "application/json"
deriving DecidableEq, Repr

inductive Task where
  | validate
  | workflows
  | execute (options : ExecuteOptions)
deriving DecidableEq, Repr

structure Command where
  task : Task
  path : String
  permitReserved : Bool
  output : Output
deriving DecidableEq, Repr

inductive Invocation where
  | run (command : Command)
  | help
  | version
  | misuse
deriving DecidableEq, Repr

structure Options where
  flags : List String
  valued : List String

def sharedOptions : Options := ⟨["quiet", "permit-reserved-author"], ["format"]⟩

def executeOptions : Options :=
  ⟨sharedOptions.flags, sharedOptions.valued ++
    ["workflow", "inputs", "set", "openapi", "timeout", "deadline", "max-response-bytes",
      "max-retry-delay", "max-steps", "localhost-port", "content-type"]⟩

structure Sorted where
  flags : List String := []
  values : List (String × String) := []
  positional : List String := []

inductive Failure where
  | help
  | misuse
deriving DecidableEq, Repr

inductive Token where
  | flag (name : String)
  | valued (name value : String)
  | opens (name : String)
  | positional (text : String)
  | rest
  | help
  | unknown

def longToken (options : Options) (cs : List Char) : Token :=
  let (name, value) := match Text.splitOnce? '=' cs with
    | some (name, value) => (String.ofList name, some (String.ofList value))
    | none => (String.ofList cs, none)
  if options.flags.contains name then if value.isSome then .unknown else .flag name
  else if options.valued.contains name then
    match value with
    | some value => .valued name value
    | none => .opens name
  else if name = "help" ∧ value.isNone then .help
  else .unknown

def token (options : Options) (argument : String) : Token :=
  match argument.toList with
  | ['-', '-'] => .rest
  | '-' :: '-' :: cs => longToken options cs
  | ['-', 'q'] => .flag "quiet"
  | ['-', 'h'] => .help
  | '-' :: _ :: _ => .unknown
  | _ => .positional argument

def isValue (argument : String) : Bool :=
  match argument.toList with
  | '-' :: _ :: _ => false
  | _ => true

def sort (options : Options) (sorted : Sorted) : List String → Except Failure Sorted
  | [] => .ok sorted
  | argument :: rest =>
    match token options argument with
    | .flag name => sort options { sorted with flags := sorted.flags ++ [name] } rest
    | .valued name value =>
      sort options { sorted with values := sorted.values ++ [(name, value)] } rest
    | .opens name =>
      match rest with
      | [] => .error .misuse
      | value :: rest =>
        if isValue value then
          sort options { sorted with values := sorted.values ++ [(name, value)] } rest
        else .error .misuse
    | .positional text =>
      sort options { sorted with positional := sorted.positional ++ [text] } rest
    | .rest => .ok { sorted with positional := sorted.positional ++ rest }
    | .help => .error .help
    | .unknown => .error .misuse

namespace Sorted

def all (name : String) (s : Sorted) : List String :=
  (s.values.filter (·.1 == name)).map (·.2)

def one (name : String) (s : Sorted) : Except Failure (Option String) :=
  match s.all name with
  | [] => .ok none
  | [value] => .ok (some value)
  | _ => .error .misuse

def flag (name : String) (s : Sorted) : Except Failure Bool :=
  match (s.flags.filter (· == name)).length with
  | 0 => .ok false
  | 1 => .ok true
  | _ => .error .misuse

def number (name : String) (limit : Nat) (s : Sorted) : Except Failure (Option Nat) := do
  match ← s.one name with
  | none => return none
  | some text =>
    match Text.readSignedNat? limit text.toList with
    | some n => return some n
    | none => throw .misuse

def path (name : String) (s : Sorted) : Except Failure (Option String) := do
  match ← s.one name with
  | some "" => throw .misuse
  | value => return value

def format (s : Sorted) : Except Failure OutputFormat := do
  match ← s.one "format" with
  | none => return .text
  | some "text" => return .text
  | some "json" => return .json
  | some _ => throw .misuse

def execute (s : Sorted) : Except Failure ExecuteOptions := do
  let word := Nat.pow 2 64 - 1
  let d : ExecuteOptions := {}
  return {
    workflow := ← s.one "workflow"
    inputs := ← s.path "inputs"
    settings := s.all "set"
    sources := s.all "openapi"
    timeout := (← s.number "timeout" word).getD d.timeout
    deadline := ← s.number "deadline" word
    maxResponseBytes := (← s.number "max-response-bytes" word).getD d.maxResponseBytes
    maxRetryDelay := (← s.number "max-retry-delay" word).getD d.maxRetryDelay
    maxSteps := (← s.number "max-steps" word).getD d.maxSteps
    localhostPort := (← s.number "localhost-port" 65535).getD d.localhostPort
    contentType := (← s.one "content-type").getD d.contentType }

end Sorted

def optionsOf : String → Option Options
  | "validate" => some sharedOptions
  | "workflows" => some sharedOptions
  | "execute" => some executeOptions
  | _ => none

def taskOf (name : String) (s : Sorted) : Except Failure Task :=
  match name with
  | "validate" => .ok .validate
  | "workflows" => .ok .workflows
  | _ => s.execute.map .execute

def readCommand (name : String) (options : Options) (arguments : List String) :
    Except Failure Command := do
  let s ← sort options {} arguments
  let task ← taskOf name s
  let output : Output := { format := ← s.format, quiet := ← s.flag "quiet" }
  let permitReserved ← s.flag "permit-reserved-author"
  match s.positional with
  | [path] => if path.isEmpty then throw .misuse else return { task, path, permitReserved, output }
  | _ => throw .misuse

def Invocation.read : List String → Invocation
  | [] => .misuse
  | name :: arguments =>
    if name = "--version" ∨ name = "-V" then .version
    else if name = "--help" ∨ name = "-h" ∨ name = "help" then .help
    else
      match optionsOf name with
      | none => .misuse
      | some options =>
        match readCommand name options arguments with
        | .ok command => .run command
        | .error .help => .help
        | .error .misuse => .misuse

end Arazzo.Cli
