import PagePress.Health
import PagePress.Json.Record
import PagePress.Pipeline.Substitution
import PagePress.Renderer.Basic

namespace PagePress

structure Pipeline (σ β : Type) where
  store : Store σ
  renderer : Renderer β
  options : Template.Options := {}
  -- How long documents are kept.
  keptFor : Option Nat := none

structure GenerateRequest where
  id : String
  values : Fields

namespace GenerateRequest

def shape : Json.RecordShape :=
  ⟨"generate request", [⟨"id", .text, true⟩, ⟨"values", .members, true⟩]⟩

def ofGiven (given : Json.Given) : GenerateRequest where
  id := match Fields.get? given "id" with
    | some (.str id) => id
    | _ => ""
  values := match Fields.get? given "values" with
    | some (.obj values) => values
    | _ => []

def read (source : Bytes) : Except Json.ReadError GenerateRequest := do
  .ok (ofGiven (← Json.readRecord shape source))

end GenerateRequest

namespace Pipeline

variable {σ β : Type}

def idData (id : String) : Json := .obj [("id", .str id)]

-- The conversion comes before anything is stored.
def convert (pipe : Pipeline σ β) (markup : Bytes) : Except PipelineError Bytes :=
  (pipe.renderer.convert markup).mapError fun e => .server .fileConversionFail (.render e)

def save (pipe : Pipeline σ β) (now : Int) (id : String) (bytes : Bytes) (s : σ) :
    Except (Halt PipelineError) Unit × σ :=
  match pipe.store.set now id bytes pipe.keptFor s with
  | (.ok (), s) => (.ok (), s)
  | (.error stop, s) => (.error (stop.map fun e => .server .fileStoreFail (.store e)), s)

def register (pipe : Pipeline σ β) (now : Int) (id : String) (markup : Bytes) (s : σ) :
    Except (Halt PipelineError) Envelope × σ :=
  match pipe.convert markup with
  | .error e => (.error (.fault e), s)
  | .ok document =>
    let (saved, s) := pipe.save now id document s
    (saved.map fun () => .created (idData id), s)

-- Whatever the document was, only that it can be read counts.
def replace (pipe : Pipeline σ β) (now : Int) (id : String) (markup : Bytes) (s : σ) :
    Except (Halt PipelineError) Envelope × σ :=
  if id.isEmpty then (.error (.fault (.client .idNeeded .missingId)), s)
  else
    match pipe.store.get now id s with
    | (.error e, s) => (.error (.fault (.server .keyNotFound (.store e))), s)
    | (.ok _, s) =>
      match pipe.convert markup with
      | .error e => (.error (.fault e), s)
      | .ok document =>
        let (saved, s) := pipe.save now id document s
        (saved.map fun () => .ok (some (idData id)), s)

structure Generated (β : Type) where
  answer : Except (Halt PipelineError) Envelope
  sink : List β

def Generated.stopped (stop : Halt PipelineError) : Generated β := ⟨.error stop, []⟩

def Generated.failed (e : PipelineError) : Generated β := stopped (.fault e)

-- Up to an error of the renderer the sink may have got something.
def renderStored (pipe : Pipeline σ β) (request : GenerateRequest) (stored : Bytes) : Generated β :=
  match Substitution.prepare pipe.options request.id (.obj request.values) stored with
  | .error stop => .stopped stop
  | .ok bytes =>
    match pipe.renderer.render bytes with
    | (sink, .ok ()) => ⟨.ok (.ok none), sink⟩
    | (sink, .error e) => ⟨.error (.fault (.server .convertingToPdf (.render e))), sink⟩

def generate (pipe : Pipeline σ β) (now : Int) (request : GenerateRequest) (s : σ) :
    Generated β × σ :=
  if request.id.isEmpty then (.failed (.client .idNeeded .missingId), s)
  else
    match pipe.store.get now request.id s with
    | (.error e, s) => (.failed (.server .fetchingFile (.store e)), s)
    | (.ok stored, s) => (pipe.renderStored request stored, s)

def healthChecks (pipe : Pipeline σ β) (now : Int) (s : σ) : List HealthCheck × σ :=
  let (healthy, s) := pipe.store.healthy now s
  ([.ofStore pipe.store.name healthy, .ofRenderer pipe.renderer.name pipe.renderer.healthy], s)

end Pipeline
end PagePress
