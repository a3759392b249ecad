import PagePress.Http.App
import PagePress.Rehearsal.Renderer
import PagePress.Store.Memory

namespace PagePress.Rehearsal

structure StoreFaults where
  get : Bool := false
  set : Bool := false
  health : Bool := false
  deriving DecidableEq, Repr

-- A call that fails never reaches the store.
def failingStore {σ : Type} (faults : StoreFaults) (store : Store σ) : Store σ :=
  { store with
    get := fun now id s =>
      if faults.get then (.error (.backend scripted), s) else store.get now id s
    set := fun now id bytes keptFor s =>
      if faults.set then (.error (.fault .circuitOpen), s) else store.set now id bytes keptFor s
    healthy := fun now s => if faults.health then (false, s) else store.healthy now s }

structure Setup (β : Type) where
  renderer : Script → Renderer β
  -- What a failing rendering has written.
  begun : List β
  options : Template.Options
  keptFor : Option Nat
  routeVersion : String
  maxUploadBytes : Nat

structure Session where
  service : Service Memory := { documents := {} }
  storeFaults : StoreFaults := {}
  rendererFaults : RendererFaults := {}
  script : Script := {}

inductive Step where
  | register (markup : Bytes)
  | replace (id : String) (markup : Bytes)
  | generate (request : GenerateRequest)
  | get (id : String)
  | set (id : String) (bytes : Bytes) (keptFor : Option Nat)
  | delete (id : String)
  | holds (id : String)
  | size
  | health
  | fail (store : StoreFaults) (renderer : RendererFaults)
  | script (script : Script)
  | metrics
  | http (request : Http.Request)

inductive Answer (β : Type) where
  | operation (answer : Except (Halt PipelineError) Envelope)
  | generated (generated : Pipeline.Generated β)
  | bytes (answer : Except StoreError Bytes)
  | saved (answer : Except (Halt StoreError) Unit)
  | removed (answer : Except StoreError Bool)
  | held (answer : Except StoreError Bool)
  | size (n : Nat)
  | health (envelope : Envelope)
  | done
  | metrics (metrics : Metrics)
  | http (response : Option (Http.Response β))

def idOf (n : Nat) : String :=
  let digits := toString n
  "5d0c9e3b-71fa-4b28-96e4-" ++ String.ofList (List.replicate (12 - digits.length) '0') ++ digits

namespace Session

variable {β : Type}

def now : Int := 0

def store (session : Session) : Store Memory := failingStore session.storeFaults Memory.store

def pipeline (setup : Setup β) (session : Session) : Pipeline Memory β where
  store := session.store
  renderer := failingRenderer session.rendererFaults setup.begun (setup.renderer session.script)
  options := setup.options
  keptFor := setup.keptFor

def app (setup : Setup β) (session : Session) : Http.App Memory β :=
  ⟨session.pipeline setup, setup.routeVersion, setup.maxUploadBytes⟩

def registered (session : Session) : Nat := session.service.metrics.registered

def nextId (session : Session) : String := idOf session.registered

def withDocuments (session : Session) (documents : Memory) : Session :=
  { session with service := { session.service with documents } }

def step (setup : Setup β) (session : Session) : Step → Answer β × Session
  | .register markup =>
    let (answer, service) :=
      session.service.register (session.pipeline setup) now session.nextId markup
    (.operation answer, { session with service })
  | .replace id markup =>
    let (answer, service) := session.service.replace (session.pipeline setup) now id markup
    (.operation answer, { session with service })
  | .generate request =>
    let (generated, service) := session.service.generate (session.pipeline setup) now request
    (.generated generated, { session with service })
  | .get id =>
    let (answer, documents) := session.store.get now id session.service.documents
    (.bytes answer, session.withDocuments documents)
  | .set id bytes keptFor =>
    let (answer, documents) := session.store.set now id bytes keptFor session.service.documents
    (.saved answer, session.withDocuments documents)
  | .delete id =>
    let (answer, documents) := session.store.delete now id session.service.documents
    (.removed answer, session.withDocuments documents)
  | .holds id =>
    let (answer, documents) := session.store.holds now id session.service.documents
    (.held answer, session.withDocuments documents)
  | .size => (.size (session.service.documents.size now), session)
  | .health =>
    let (checks, service) := session.service.healthChecks (session.pipeline setup) now
    (.health (HealthCheck.envelope checks), { session with service })
  | .fail storeFaults rendererFaults => (.done, { session with storeFaults, rendererFaults })
  | .script script => (.done, { session with script })
  | .metrics => (.metrics session.service.metrics, session)
  | .http request =>
    let (response, service) :=
      (session.app setup).handle now session.nextId request session.service
    (.http response, { session with service })

end Session
end PagePress.Rehearsal
