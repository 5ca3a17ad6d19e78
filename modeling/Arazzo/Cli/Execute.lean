import Arazzo.Cli.Inspect
import Arazzo.Run

/-! The command `execute`, which runs a workflow. -/

namespace Arazzo.Cli

structure Setting where
  files : Files
  directory : String
  client : HttpClient := .offline
  runId : String := ""
  /-- The time since the start of 1970 when the command starts. -/
  start : Duration := ⟨0⟩

def readInputs (files : Files) (path : String) : Except String Json :=
  match files.read path with
  | .error fault => .error ("failed to read inputs " ++ path ++ ": " ++ fault.message)
  | .ok text =>
    match Json.parse? text <|> Yaml.parse? text with
    | some value => .ok value
    | none => .error "inputs file is neither valid JSON nor YAML"

def cutPair (option pattern text : String) : Except String (String × String) :=
  match Text.splitOnce? '=' text.toList with
  | some (key, value) => .ok (String.ofList key, String.ofList value)
  | none => .error ("--" ++ option ++ " expects " ++ pattern ++ ", got `" ++ text ++ "`")

def addSetting (members : Table Json) (setting : String) : Except String (Table Json) := do
  let (key, value) ← cutPair "set" "KEY=VALUE" setting
  return Table.insert key ((Json.parse? value).getD (.str value)) members

def addSettings (settings : List String) (inputs : Json) : Except String Json :=
  match settings, inputs with
  | [], inputs => .ok inputs
  | settings, .obj members => (settings.foldlM addSetting members).map .obj
  | _, _ => .error "--set needs the inputs file to hold an object"

def collectInputs (files : Files) (options : ExecuteOptions) : Except String Json := do
  let inputs : Json ← match options.inputs with
    | some path => readInputs files path
    | none => pure (.obj [])
  addSettings options.settings inputs

def addSource (directory : String) (locations : Table String) (source : String) :
    Except String (Table String) := do
  let (name, path) ← cutPair "openapi" "NAME=PATH" source
  if path.isEmpty then throw "invalid path : cannot make an empty path absolute"
  return Table.insert name (FilePath.absolute directory path) locations

def configOf (options : ExecuteOptions) : Config :=
  { requestTimeout := .ofMillis options.timeout
    deadline := options.deadline.map .ofSeconds
    localhostPort := options.localhostPort
    contentType := options.contentType
    maxResponseBytes := options.maxResponseBytes
    maxRetryDelay := .ofSeconds options.maxRetryDelay
    maxSteps := options.maxSteps }

def recordText (r : StepRecord) : String :=
  objectText [("workflowId", Json.quote r.workflowId), ("stepId", Json.quote r.stepId),
    ("attempt", toString r.attempt), ("status", (r.status.map toString).getD "null"),
    ("success", boolText r.success)]

def succeeded (output : Output) (runId : String) (elapsed : Nat) (report : Report) : Outcome :=
  if output.quiet then { exit := .success }
  else
    match output.format with
    | .text =>
      { exit := .success
        stdout := lines [(Json.obj report.outputs).renderIndented 0]
        stderr := lines ["ok: workflow `" ++ report.workflowId ++ "` succeeded (" ++
          toString report.steps.length ++ " steps, " ++ toString elapsed ++ " ms)"] }
    | .json =>
      { exit := .success
        stdout := lines [objectText [("run_id", Json.quote runId),
          ("workflow_id", Json.quote report.workflowId), ("status", Json.quote "succeeded"),
          ("outputs", (Json.obj report.outputs).render),
          ("steps", listText (report.steps.map recordText)),
          ("elapsed_ms", toString elapsed)]] }

/-- Sources that cannot be loaded are no fault of the run. -/
def failureExit : RunFault → Exit
  | .sources _ => .runtimeError
  | _ => .runFailed

def chooseWorkflow (document : Document) (wanted : Option String) : Except String String :=
  match wanted.or (document.workflows.head?.map (·.workflowId)) with
  | none => .error "document has no workflows"
  | some id =>
    if (document.workflow? id).isSome then .ok id else .error ("workflow `" ++ id ++ "` not found")

def requireValid (parsed : ParseOutcome) : Except String Document :=
  match parsed.usable? with
  | some document => .ok document
  | none =>
    .error ("document failed validation (" ++ toString (Diagnostics.errorCount parsed.diagnostics) ++
      " errors); run `arazzo validate` for details")

def prepare (setting : Setting) (output : Output) (options : ExecuteOptions)
    (parsed : ParseOutcome) : Except Outcome (Document × String × Json × Table String) := do
  let or {α : Type} (exit : Exit) (result : Except String α) : Except Outcome α :=
    result.mapError (Outcome.failure output exit)
  let document ← or .invalidDocument (requireValid parsed)
  let workflowId ← or .invalidDocument (chooseWorkflow document options.workflow)
  let inputs ← or .runtimeError (collectInputs setting.files options)
  let locations ← or .runtimeError (options.sources.foldlM (addSource setting.directory) [])
  return (document, workflowId, inputs, locations)

def execute (setting : Setting) (command : Command) (options : ExecuteOptions)
    (parsed : ParseOutcome) : Outcome × Trace :=
  match prepare setting command.output options parsed with
  | .error outcome => (outcome, {})
  | .ok (document, workflowId, inputs, locations) =>
    let config := configOf options
    let env : Environment := { client := setting.client, config, epoch := setting.start }
    let loader : Loader :=
      { client := setting.client, files := setting.files, locations,
        permitReserved := command.permitReserved, timeout := config.requestTimeout,
        maxBytes := config.maxResponseBytes }
    let (result, trace) := (Run.document env loader document workflowId inputs).run {}
    match result with
    | .ok report => (succeeded command.output setting.runId trace.clock report, trace)
    | .error error =>
      (.failure command.output (failureExit error.fault) error.message, trace)

def versionText : String := "arazzo 0.2.0"

def usageText : String :=
  lines ["Validate and run Arazzo workflows", "", "Usage: arazzo <COMMAND>", "", "Commands:",
    "  validate   Parses and validates a document, reporting every diagnostic",
    "  workflows  Lists the workflows of a document",
    "  execute    Runs a workflow and prints its outputs"]

def runCommand (setting : Setting) (command : Command) : Outcome × Trace :=
  match loadDocument setting.files command with
  | .error outcome => (outcome, {})
  | .ok parsed =>
    match command.task with
    | .validate => (validate command.output parsed, {})
    | .workflows => (workflows command.output command.path parsed, {})
    | .execute options => execute setting command options parsed

def run (setting : Setting) (arguments : List String) : Outcome × Trace :=
  match Invocation.read arguments with
  | .run command => runCommand setting command
  | .version => ({ exit := .success, stdout := lines [versionText] }, {})
  | .help => ({ exit := .success, stdout := usageText }, {})
  | .misuse => ({ exit := .invalidDocument, stderr := usageText }, {})

end Arazzo.Cli
