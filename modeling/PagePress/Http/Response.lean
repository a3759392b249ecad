import PagePress.Metrics
import PagePress.Outcome.Envelope

namespace PagePress.Http

inductive Body (β : Type) where
  | empty
  | json (value : Json)
  -- What a renderer wrote.
  | output (sink : List β)
  | text (text : String)
  | metrics (families : List MetricFamily)

structure Response (β : Type) where
  status : Nat
  contentType : Option String
  disposition : Option String := none
  allow : Option String := none
  body : Body β

namespace Response

variable {β : Type}

def plainText : String := "text/plain; charset=utf-8"

def json (status : Nat) (value : Json) : Response β :=
  { status, contentType := some "application/json", body := .json value }

def envelope (envelope : Envelope) : Response β := json envelope.status.number envelope.toJson

def text (status : Nat) (text : String) : Response β :=
  { status, contentType := some plainText, body := .text text }

def bare (status : Nat) (message : String) : Response β :=
  json status (.obj [("status", .ofNat status), ("message", .str message), ("data", .null)])

def notFound : Response β := bare 404 "Not Found"

def notAllowed (allow : String) : Response β :=
  { bare 405 "Method Not Allowed" with allow := some allow }

def withoutBody (response : Response β) : Response β := { response with body := .empty }

end Response
end PagePress.Http
