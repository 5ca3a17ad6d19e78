import Arazzo.Config
import Arazzo.Http
import Arazzo.OpenApi.Basic
import Arazzo.Replacement
import Arazzo.Resolver
import Arazzo.Url.Reader

/-! The request of a step, from its operation, parameters and body. -/

namespace Arazzo

inductive RequestError where
  | resolve (error : ResolveError)
  | payload (error : ReplacementError)
  | badUrl (url : String)
  | missingPathParameter (name : String)
  | notAnObject (found : Json)

namespace RequestError

def message : RequestError → String
  | .resolve error => error.message
  | .payload error => error.message
  | .badUrl url => "invalid request url `" ++ url ++ "`: " ++ unstatedReason
  | .missingPathParameter name => "path parameter `" ++ name ++ "` has no value"
  | .notAnObject found =>
    "cannot encode request body: body parameters need an object payload, found " ++ found.render

end RequestError

structure BuiltRequest where
  request : HttpRequest
  exchange : Exchange

namespace Request

structure Parts where
  headers : Table String := []
  query : List (String × String) := []
  path : Table String := []
  cookies : List (String × String) := []
  body : Table Json := []

/-- The location that is written, else the one that is declared, else the query. -/
def locationOf (operation : Operation) (p : Parameter) : ParameterLocation :=
  (p.location.or (operation.parameterLocation? p.name)).getD .query

def Parts.add (location : ParameterLocation) (name : String) (value : Json) (parts : Parts) :
    Parts :=
  match location with
  | .path => { parts with path := Table.insert name value.plainText parts.path }
  | .query => { parts with query := parts.query ++ [(name, value.plainText)] }
  | .header => { parts with headers := Table.insert name value.plainText parts.headers }
  | .cookie => { parts with cookies := parts.cookies ++ [(name, value.plainText)] }
  | .body => { parts with body := Table.insert name value parts.body }

def addParameter (operation : Operation) (context : Context) (parts : Parts) (p : Parameter) :
    Resolving RequestError Parts := do
  let value ← (Resolver.resolveValue (some context) p.value).adapt RequestError.resolve
  return parts.add (locationOf operation p) p.name value

def cookieText (cookies : List (String × String)) : String :=
  String.intercalate "; " (cookies.map fun (name, value) => name ++ "=" ++ value)

def Parts.allHeaders (parts : Parts) : Table String :=
  if parts.cookies.isEmpty then parts.headers
  else Table.insert "Cookie" (cookieText parts.cookies) parts.headers

/-- Where relative server URLs start: the interface document's URL, or this machine. -/
def anchor? (config : Config) (documentLocation : String) : Option Url :=
  match Url.parse? config.naming documentLocation with
  | some url =>
    if url.scheme.startsWith "http" then some url else local?
  | none => local?
where
  local? : Option Url := Url.parse? config.naming ("http://localhost:" ++ toString config.localhostPort ++ "/")

def server (config : Config) (documentLocation server : String) : Except RequestError Url :=
  match Url.parse config.naming server with
  | .ok url => .ok url
  | .error .malformed => .error (.badUrl server)
  | .error .relativeWithoutBase =>
    match (anchor? config documentLocation).bind fun url => (url.join config.naming server).toOption with
    | some url => .ok url
    | none => .error (.badUrl server)

/-- A server on this machine that names no port gets one. -/
def withLocalPort (config : Config) (url : Url) : Url :=
  if url.host = some (.domain "localhost") ∧ url.port.isNone then url.setPort config.localhostPort
  else url

def fillPath (values : Table String) (path : List Char) : List Char :=
  values.foldl
    (fun path (name, value) =>
      Text.replaceAll ('\x7b' :: name.toList ++ ['\x7d']) (Percent.component value.toList) path)
    path

def openPlaceholder? (path : List Char) : Option String :=
  (Text.splitOnce? '\x7b' path).map fun (_, rest) => String.ofList (rest.takeWhile (· != '\x7d'))

def joinPaths (server path : List Char) : List Char :=
  (server.reverse.dropWhile (· == '/')).reverse ++ '/' :: path.dropWhile (· == '/')

def buildUrl (config : Config) (operation : Operation) (documentLocation : String)
    (path : Table String) (query : List (String × String)) : Except RequestError Url := do
  let base ← server config documentLocation (operation.baseUrl.getD "/")
  let base := withLocalPort config base
  let filled := fillPath path operation.path.toList
  match openPlaceholder? filled with
  | some name => throw (.missingPathParameter name)
  | none =>
    let joined := joinPaths base.path.text.toList filled
    return (base.setPath (String.ofList joined)).addToQuery query

def resolveReplacements (context : Context) :
    List Replacement → Resolving RequestError (List (String × Json))
  | [] => return []
  | r :: rest => do
    let value ← (Resolver.resolveValue (some context) r.value).adapt RequestError.resolve
    return (r.target, value) :: (← resolveReplacements context rest)

def replacedPayload (context : Context) (body : RequestBody) :
    Resolving RequestError (Option Json) := do
  let payload : Option Json ← match body.payload with
    | some payload =>
      some <$> (Resolver.resolveValue (some context) payload).adapt RequestError.resolve
    | none => pure none
  if body.replacements.isEmpty then return payload
  let replacements ← resolveReplacements context body.replacements
  match Payload.replaceAll (payload.getD .null) replacements with
  | .ok value => return some value
  | .error error => throw (.payload error)

def mergeBody (fields : Table Json) (payload : Option Json) : Except RequestError (Option Json) :=
  if fields.isEmpty then .ok payload
  else
    match payload with
    | some (.obj members) => .ok (some (.obj (Table.union members fields)))
    | some .null => .ok (some (.obj fields))
    | none => .ok (some (.obj fields))
    | some other => .error (.notAnObject other)

def buildPayload (context : Context) (fields : Table Json) (body : Option RequestBody) :
    Resolving RequestError (Option Json) := do
  let payload : Option Json ← match body with
    | some body => replacedPayload context body
    | none => pure none
  mergeBody fields payload

/-- Texts go as they are unless JSON is asked for; objects may go as forms; all else as JSON. -/
def encodeBody (contentType : String) (payload : Json) : List UInt8 :=
  let kind := (Text.toAsciiLower contentType).toList
  match payload with
  | .str s =>
    if Text.contains "json".toList kind then Text.utf8 payload.render.toList else Text.utf8 s.toList
  | .obj members =>
    if Text.contains "x-www-form-urlencoded".toList kind then
      Text.utf8 (Percent.form (members.map fun (name, value) => (name, value.plainText)))
    else Text.utf8 payload.render.toList
  | _ => Text.utf8 payload.render.toList

/-- A content type among the headers goes before the body's. -/
def withContentType (contentType : String) (headers : Table String) : Table String :=
  if Table.contains "Content-Type" headers then headers
  else Table.insert "Content-Type" contentType headers

def build (config : Config) (operation : Operation) (documentLocation : String)
    (parameters : List Parameter) (body : Option RequestBody) (context : Context) :
    Resolving RequestError BuiltRequest := do
  let parts ← parameters.foldlM (addParameter operation context) {}
  let url ← buildUrl config operation documentLocation parts.path parts.query
  let contentType := (body.bind (·.contentType)).getD config.contentType
  let payload ← buildPayload context parts.body body
  let headers := match payload with
    | some _ => withContentType contentType parts.allHeaders
    | none => parts.allHeaders
  return {
    request :=
      { method := operation.method, url, headers,
        body := (payload.map (encodeBody contentType)).getD [],
        timeout := config.requestTimeout, maxBytes := config.maxResponseBytes }
    exchange :=
      { method := operation.method, url := url.text, requestHeaders := headers,
        pathParams := parts.path, queryParams := Table.ofList parts.query,
        requestBody := payload } }

end Request

def decodeBody (bytes : List UInt8) : Option Json :=
  if bytes.isEmpty then none
  else
    match (Text.decode? bytes).bind fun cs => Json.parse? (String.ofList cs) with
    | some value => some value
    | none => some (.str (String.ofList (Text.decodeLossy bytes)))

end Arazzo
