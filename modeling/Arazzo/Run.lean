import Arazzo.Run.Workflow
import Arazzo.Sources.Loader

/-! Loading the sources of a document and running one of its workflows. -/

namespace Arazzo.Run

/-- Loads the sources first; the run starts when they are there. -/
def document (env : Environment) (loader : Loader) (document : Document) (workflowId : String)
    (inputs : Json) : StateM Trace (Except RunError Report) := do
  match ← (loader.load document).run with
  | .error error => return .error ⟨workflowId, none, .sources error⟩
  | .ok registry => withSources env registry workflowId inputs

end Arazzo.Run
