import Arazzo.Json.Basic
import Arazzo.Text.Scan

/-! The state of one invocation of a workflow. -/

namespace Arazzo

structure Exchange where
  method : String := ""
  url : String := ""
  requestHeaders : Table String := []
  pathParams : Table String := []
  queryParams : Table String := []
  requestBody : Option Json := none
  status : Nat := 0
  responseHeaders : Table String := []
  /-- Read as JSON when it is JSON, otherwise text; nothing when it is empty. -/
  responseBody : Option Json := none

structure Context where
  workflowId : String
  inputs : Json
  exchange : Option Exchange := none
  stepOutputs : Table (Table Json) := []
  outputs : Table Json := []

def header? (name : String) (headers : Table String) : Option String :=
  (headers.find? fun (key, _) => Text.sameIgnoringCase key name).map (·.2)

end Arazzo
