import PagePress.Metrics
import PagePress.Pipeline.Basic

namespace PagePress

structure Service (σ : Type) where
  documents : σ
  metrics : Metrics := {}

namespace Service

variable {σ β : Type}

-- A panic is not counted.
def counted (metrics : Metrics) (operation : Operation)
    (answer : Except (Halt PipelineError) Envelope) : Metrics :=
  match answer with
  | .ok _ => metrics.succeeded operation
  | .error (.fault e) => metrics.failed operation e.code
  | .error .panic => metrics

def register (pipe : Pipeline σ β) (now : Int) (id : String) (markup : Bytes)
    (service : Service σ) : Except (Halt PipelineError) Envelope × Service σ :=
  let (answer, documents) := pipe.register now id markup service.documents
  (answer, ⟨documents, counted service.metrics .register answer⟩)

def replace (pipe : Pipeline σ β) (now : Int) (id : String) (markup : Bytes)
    (service : Service σ) : Except (Halt PipelineError) Envelope × Service σ :=
  let (answer, documents) := pipe.replace now id markup service.documents
  (answer, ⟨documents, counted service.metrics .replace answer⟩)

-- Only a rendering that succeeds is timed.
def generate (pipe : Pipeline σ β) (now : Int) (request : GenerateRequest) (service : Service σ) :
    Pipeline.Generated β × Service σ :=
  let (generated, documents) := pipe.generate now request service.documents
  let metrics := counted service.metrics .generate generated.answer
  (generated, ⟨documents, if generated.answer.toBool then metrics.rendered else metrics⟩)

def healthChecks (pipe : Pipeline σ β) (now : Int) (service : Service σ) :
    List HealthCheck × Service σ :=
  let (checks, documents) := pipe.healthChecks now service.documents
  (checks, { service with documents })

end Service
end PagePress
