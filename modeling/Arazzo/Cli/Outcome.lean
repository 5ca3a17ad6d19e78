import Arazzo.Cli.Arguments
import Arazzo.Json.Writer

/-! What a command leaves behind: an exit code and two texts. -/

namespace Arazzo.Cli

inductive Exit where
  | success
  | invalidDocument
  | runFailed
  | runtimeError
deriving DecidableEq, Repr

def Exit.code : Exit → Nat
  | .success => 0
  | .invalidDocument => 2
  | .runFailed => 3
  | .runtimeError => 4

structure Outcome where
  exit : Exit
  stdout : String := ""
  stderr : String := ""

def objectText (members : List (String × String)) : String :=
  "\x7b" ++ String.intercalate "," (members.map fun (key, text) => Json.quote key ++ ":" ++ text) ++
    "\x7d"

def listText (texts : List String) : String := "[" ++ String.intercalate "," texts ++ "]"

def boolText (b : Bool) : String := if b then "true" else "false"

def nonEmpty (key : String) (texts : List String) : List (String × String) :=
  if texts.isEmpty then [] else [(key, listText texts)]

def present (key : String) : Option String → List (String × String)
  | some text => [(key, Json.quote text)]
  | none => []

def lines (texts : List String) : String := String.join (texts.map (· ++ "\n"))

def Outcome.failure (output : Output) (exit : Exit) (message : String) : Outcome :=
  if output.quiet then { exit }
  else
    match output.format with
    | .text => { exit, stderr := lines ["error: " ++ message] }
    | .json => { exit, stderr := lines [objectText [("error", Json.quote message)]] }

end Arazzo.Cli
