import Arazzo.Duration
import Arazzo.Table
import Arazzo.Url.Basic

/-! Requests, what comes back, and clients. -/

namespace Arazzo

structure HttpRequest where
  method : String
  url : Url
  headers : Table String
  body : List UInt8
  timeout : Duration
  maxBytes : Nat

structure HttpResponse where
  status : Nat
  headers : Table String
  body : List UInt8

inductive HttpError where
  | timeout
  | network (detail : String)
  | tooLarge (maxBytes : Nat)
  | other (detail : String)
deriving DecidableEq

namespace HttpError

def message : HttpError → String
  | .timeout => "timeout"
  | .network detail => "connect/dns/tls error: " ++ detail
  | .tooLarge maxBytes => "response too large (>" ++ toString maxBytes ++ " bytes)"
  | .other detail => "http error: " ++ detail

end HttpError

structure HttpReply where
  latency : Duration
  result : Except HttpError HttpResponse

/-- A client answers a request in the light of all requests before it. -/
structure HttpClient where
  answer : List HttpRequest → HttpRequest → HttpReply

namespace HttpClient

def unreachable (request : HttpRequest) : HttpError :=
  if Url.isWeb request.url.scheme then
    .network ("error sending request for url (" ++ request.url.text ++ ")")
  else .other ("builder error for url (" ++ request.url.text ++ ")")

def offline : HttpClient := ⟨fun _ request => ⟨⟨0⟩, .error (unreachable request)⟩⟩

end HttpClient
end Arazzo
