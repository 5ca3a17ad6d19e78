import Arazzo.Cli.Outcome
import Arazzo.Files
import Arazzo.Format
import Arazzo.Validation.Document

/-! Commands that look at a document: `validate` and `workflows`. -/

namespace Arazzo.Cli

def loadDocument (files : Files) (command : Command) : Except Outcome ParseOutcome :=
  match files.read command.path with
  | .error fault =>
    .error (.failure command.output .runtimeError
      ("failed to read " ++ command.path ++ ": " ++ fault.message))
  | .ok text =>
    match Format.auto.load text with
    | .error error => .error (.failure command.output .invalidDocument error.message)
    | .ok tree => .ok (Document.parse command.permitReserved (some command.path) tree)

def entryMessage (d : Diagnostic) : String :=
  match d.fault with
  | .warning reason => reason
  | _ => d.message

def entryText (d : Diagnostic) : String :=
  objectText [("kind", Json.quote d.fault.name), ("path", Json.quote d.place.text),
    ("message", Json.quote (entryMessage d))]

def validationExit (valid : Bool) : Exit := if valid then .success else .invalidDocument

def validate (output : Output) (parsed : ParseOutcome) : Outcome :=
  let errors := parsed.diagnostics.filter Diagnostic.isError
  let warnings := parsed.diagnostics.filter fun d => !d.isError
  let exit := validationExit parsed.valid
  if output.quiet then { exit }
  else
    match output.format with
    | .json =>
      { exit, stdout := lines [objectText
          ([("valid", boolText parsed.valid)] ++ nonEmpty "errors" (errors.map entryText) ++
            nonEmpty "warnings" (warnings.map entryText))] }
    | .text =>
      let told := warnings.map fun d => "warning: " ++ d.place.text ++ ": " ++ entryMessage d
      if parsed.valid then { exit, stdout := lines ["ok: valid Arazzo document"], stderr := lines told }
      else
        let head := "error: validation failed (" ++ toString errors.length ++ " errors)"
        { exit, stderr := lines (told ++ head :: errors.map fun d => "- " ++ entryMessage d) }

def workflowText (w : Workflow) : String :=
  objectText ([("workflow_id", Json.quote w.workflowId)] ++ present "summary" w.summary ++
    present "description" w.description ++ [("step_count", toString w.steps.length)] ++
    nonEmpty "depends_on" (w.dependsOn.map Json.quote))

def workflowLines (w : Workflow) : List String :=
  ("  - " ++ w.workflowId ++ " (" ++ toString w.steps.length ++ " steps)") ::
    (w.summary.map ("    " ++ ·)).toList ++
    (if w.dependsOn.isEmpty then []
      else ["    depends on: " ++ String.intercalate ", " w.dependsOn])

def workflows (output : Output) (path : String) (parsed : ParseOutcome) : Outcome :=
  match parsed.document with
  | none => .failure output .invalidDocument "document root is not an object"
  | some document =>
    if output.quiet then { exit := .success }
    else
      match output.format with
      | .json =>
        { exit := .success
          stdout := lines [objectText [("valid", boolText parsed.valid),
            ("workflows", listText (document.workflows.map workflowText))]] }
      | .text =>
        { exit := .success
          stdout := lines (("Workflows in " ++ path ++ ":") :: document.workflows.flatMap workflowLines)
          stderr :=
            if parsed.valid then ""
            else lines
              ["warning: document has validation errors; run `arazzo validate` for details"] }

end Arazzo.Cli
