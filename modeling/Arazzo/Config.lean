import Arazzo.Duration
import Arazzo.Url.Host

/-! Settings of a run. -/

namespace Arazzo

structure Config where
  requestTimeout : Duration := .ofSeconds 30
  deadline : Option Duration := none
  /-- For servers on `localhost` that name no port. -/
  localhostPort : Nat := 8080
  contentType : String := "application/json"
  maxResponseBytes : Nat := 10485760
  maxRetryDelay : Duration := .ofSeconds 60
  /-- Step executions of a whole run. -/
  maxSteps : Nat := 1000
  naming : Naming := .punycode

end Arazzo
