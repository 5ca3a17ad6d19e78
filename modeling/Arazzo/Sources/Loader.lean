import Arazzo.Sources.Basic
import Arazzo.Trace
import Arazzo.Validation.Document

/-! Loading the documents that source descriptions name. -/

namespace Arazzo

structure Loader where
  client : HttpClient
  files : Files
  /-- Documents that are used instead of loading one, by the name of the source. -/
  documents : Table Json := []
  /-- Places that are used instead of a source's own. -/
  locations : Table String := []
  permitReserved : Bool := false
  timeout : Duration
  maxBytes : Nat
  naming : Naming := .punycode

/-- Loading may fail; requests that were sent until then stay in the trace. -/
abbrev Loading := ExceptT SourceError (StateM Trace)

namespace Loader

def fetch (loader : Loader) (request : HttpRequest) : StateM Trace (Except HttpError HttpResponse) :=
  modifyGet fun t =>
    let reply := loader.client.answer t.requests request
    (reply.result, { t.request request with clock := t.clock + reply.latency.millisUp })

def readRemote (loader : Loader) (url : Url) : StateM Trace (Except LoadError String) := do
  let request : HttpRequest :=
    { method := "GET", url, headers := [], body := [], timeout := loader.timeout,
      maxBytes := loader.maxBytes }
  match ← loader.fetch request with
  | .error error => return .error (.fetch url.text (.http error))
  | .ok response =>
    if 200 ≤ response.status ∧ response.status < 300 then
      return .ok (String.ofList (Text.decodeLossy response.body))
    else return .error (.fetch url.text (.status response.status))

def readFile (loader : Loader) (path : String) : StateM Trace (Except LoadError String) :=
  modifyGet fun t =>
    let text := match loader.files.read path with
      | .ok text => .ok text
      | .error fault => .error (.read path fault)
    (text, t.read path)

def readText (loader : Loader) : Location → StateM Trace (Except LoadError String)
  | .remote url => loader.readRemote url
  | .file path => loader.readFile path

def parseTree (location : Location) (text : String) : Except LoadError Json :=
  match Format.auto.load text with
  | .ok tree => .ok tree
  | .error error => .error (.parse location.text error)

def place (loader : Loader) (base : Option Location) (source : SourceDescription) : Location :=
  Location.resolve loader.naming ((Table.get? source.name loader.locations).getD source.url) base

/-- The source's tree; `visiting` are the places of the documents that are being loaded. -/
def tree (loader : Loader) (visiting : List String) (source : SourceDescription)
    (location : Location) : Loading Json := do
  match Table.get? source.name loader.documents with
  | some tree => return tree
  | none =>
    if source.kind = .arazzo ∧ location.text ∈ visiting then
      throw (.cycle (visiting ++ [location.text]))
    let loaded := (← loader.readText location).bind (parseTree location)
    match loaded with
    | .ok tree => return tree
    | .error error => throw (.load source.name error)

def nestedDocument (loader : Loader) (name : String) (location : Location) (tree : Json) :
    Except SourceError Document :=
  let path := match location with
    | .file path => some path
    | .remote _ => none
  let outcome := Document.parse loader.permitReserved path tree
  match outcome.usable? with
  | some document => .ok document
  | none =>
    .error (.badNested name (Diagnostics.errorCount outcome.diagnostics)
      ((outcome.diagnostics.head?.map Diagnostic.message).getD ""))

structure Contents where
  openapi : List InterfaceDocument := []
  nested : Table Registry := []

def addSource (loader : Loader) (base : Option Location) (visiting : List String)
    (load : Document → Location → List String → Loading Registry) (contents : Contents)
    (source : SourceDescription) : Loading Contents := do
  let location := loader.place base source
  let tree ← loader.tree visiting source location
  match source.kind with
  | .openapi =>
    return { contents with openapi := contents.openapi ++ [⟨source.name, location.text, tree⟩] }
  | .arazzo =>
    let document ← loader.nestedDocument source.name location tree
    let nested ← load document location (visiting ++ [location.text])
    return { contents with nested := Table.insert source.name nested contents.nested }

def loadFrom (loader : Loader) : Nat → Document → Option Location → List String → Loading Registry
  | 0, document, _, _ => throw (.unending document.info.title)
  | depth + 1, document, location, visiting => do
    let inside (document : Document) (location : Location) (visiting : List String) :
        Loading Registry := loadFrom loader depth document (some location) visiting
    let contents ← document.sourceDescriptions.foldlM
      (loader.addSource location visiting inside) {}
    return .mk document location contents.openapi contents.nested

/-- Documents nested deeper than any loader can follow. -/
def depthLimit : Nat := 10000

def load (loader : Loader) (document : Document) : Loading Registry :=
  let location := document.sourcePath.map Location.file
  loader.loadFrom depthLimit document location (location.map Location.text).toList

end Loader
end Arazzo
