import PagePress.Http.Multipart
import PagePress.Http.Response
import PagePress.Http.Route
import PagePress.Http.Target
import PagePress.Service
import PagePress.Text.Class

namespace PagePress.Http

structure Request where
  method : String
  target : String
  contentType : Option String
  body : Bytes

structure App (σ β : Type) where
  pipeline : Pipeline σ β
  routeVersion : String
  maxUploadBytes : Nat

namespace App

variable {σ β : Type}

def pingShape : Json.RecordShape := ⟨"struct PingRequest", [⟨"data", .text, false⟩]⟩

def ping (body : Bytes) : Envelope :=
  let failed (reason : String) : Envelope := ⟨.clientError, "FAILED: " ++ reason, none⟩
  match Json.readRecord pingShape body with
  | .error e => failed (e.message body)
  | .ok given =>
    match Fields.get? given "data" with
    | some (.str data) =>
      if data.isEmpty then failed "data is required"
      else ⟨.ok, "Pong", some (.obj [("data", .str data)])⟩
    | _ => failed "data is required"

-- None is a connection that is closed without an answer, which is all that a panic leaves.
def answered (answer : Except (Halt PipelineError) Envelope) : Option (Response β) :=
  match answer with
  | .ok envelope => some (.envelope envelope)
  | .error (.fault e) => some (.envelope e.envelope)
  | .error .panic => none

def refusedUpload : UploadFault → Envelope
  | .unreadable => .clientError .fileSizeExceeded
  | .noFile => .clientError .fileParseFail

def isBlankId (id : String) : Bool := id.toList.all Text.isWhiteSpace

-- A header value holds no control characters but the tab.
def isHeaderChar (c : Char) : Bool := c == '\t' || (0x20 ≤ c.toNat && c.toNat != 0x7F)

def download (id : String) (sink : List β) : Response β :=
  let name := "attachment; filename=" ++ id ++ ".pdf"
  if name.toList.all isHeaderChar then
    { status := 200, contentType := some "application/pdf", disposition := some name,
      body := .output sink }
  else .text 500 "failed to parse header value"

-- The id comes from the path, whatever the body says.
def generate (app : App σ β) (now : Int) (id : String) (body : Bytes) (service : Service σ) :
    Option (Response β) × Service σ :=
  if isBlankId id then (some (.envelope (.clientError .idNeeded)), service)
  else
    match GenerateRequest.read body with
    | .error _ => (some (.envelope (.clientError .decodingData)), service)
    | .ok request =>
      let (generated, service) := service.generate app.pipeline now { request with id }
      match generated.answer with
      | .ok _ => (some (download id generated.sink), service)
      | .error stop => (answered (.error stop), service)

def upload (app : App σ β) (request : Request) : Except UploadFault Bytes :=
  readUpload request.contentType app.maxUploadBytes request.body

def register (app : App σ β) (now : Int) (freshId : String) (request : Request)
    (service : Service σ) : Option (Response β) × Service σ :=
  match app.upload request with
  | .error fault => (some (.envelope (refusedUpload fault)), service)
  | .ok markup =>
    let (answer, service) := service.register app.pipeline now freshId markup
    (answered answer, service)

def replace (app : App σ β) (now : Int) (id : String) (request : Request) (service : Service σ) :
    Option (Response β) × Service σ :=
  if isBlankId id then (some (.envelope (.clientError .idNeeded)), service)
  else
    match app.upload request with
    | .error fault => (some (.envelope (refusedUpload fault)), service)
    | .ok markup =>
      let (answer, service) := service.replace app.pipeline now id markup
      (answered answer, service)

def maxBodyBytes : Nat := 2097152

def withBody (request : Request) (service : Service σ)
    (handler : Bytes → Option (Response β) × Service σ) : Option (Response β) × Service σ :=
  if request.body.length ≤ maxBodyBytes then handler request.body
  else (some (.text 413 "Failed to buffer the request body: length limit exceeded"), service)

-- One text is the id; a path that holds more of them does not say which.
def withId (captures : List Capture) (service : Service σ)
    (handler : String → Option (Response β) × Service σ) : Option (Response β) × Service σ :=
  match Capture.textsOf captures with
  | .error name => (some (.text 400 ("Invalid URL: Invalid UTF-8 in `" ++ name ++ "`")), service)
  | .ok [id] => handler id
  | .ok texts =>
    (some (.text 500 ("Wrong number of path arguments for `Path`. Expected 1 but got " ++
      toString texts.length ++ ". Note that multiple parameters must be extracted with a tuple " ++
      "`Path<(_, _)>` or a struct `Path<YourParams>`")), service)

def serve (app : App σ β) (now : Int) (freshId : String) (route : Route)
    (captures : List Capture) (request : Request) (service : Service σ) :
    Option (Response β) × Service σ :=
  match route with
  | .health =>
    let (checks, service) := service.healthChecks app.pipeline now
    (some (.envelope (HealthCheck.envelope checks)), service)
  | .ping => withBody request service fun body => (some (.envelope (ping body)), service)
  | .metrics =>
    (some { status := 200, contentType := some "text/plain; version=0.0.4; charset=utf-8",
            body := .metrics metricFamilies }, service)
  | .register => app.register now freshId request service
  | .replace => withId captures service fun id => app.replace now id request service
  | .generate =>
    withId captures service fun id =>
      withBody request service fun body => app.generate now id body service

def preflight (route : Option Route) : Response β :=
  { status := 200, contentType := none, allow := route.map Route.allow, body := .empty }

-- A request for the head alone gets what the others get, less the body.
def handle (app : App σ β) (now : Int) (freshId : String) (request : Request)
    (service : Service σ) : Option (Response β) × Service σ :=
  let found := Route.find? (routePrefix app.routeVersion) (pathOf request.target)
  let (response, service) : Option (Response β) × Service σ :=
    if request.method = "OPTIONS" then (some (preflight (found.map (·.1))), service)
    else
      match found with
      | none => (some .notFound, service)
      | some (route, captures) =>
        if route.takes request.method then
          app.serve now freshId route captures request service
        else (some (.notAllowed route.allow), service)
  (if request.method = "HEAD" then response.map Response.withoutBody else response, service)

end App
end PagePress.Http
