import PagePress.Json.Record
import PagePress.Outcome.Code

namespace PagePress

inductive StatusCategory where
  | created
  | ok
  | clientError
  | serverError
  deriving DecidableEq, Repr

namespace StatusCategory

def number : StatusCategory → Nat
  | .created => 201
  | .ok => 200
  | .clientError => 400
  | .serverError => 500

-- What is neither a success nor the client's fault is the server's.
def ofNumber (status : Nat) : StatusCategory :=
  if status = 201 then .created
  else if 200 ≤ status ∧ status < 300 then .ok
  else if 400 ≤ status ∧ status < 500 then .clientError
  else .serverError

def isSuccess : StatusCategory → Bool
  | .created | .ok => true
  | .clientError | .serverError => false

end StatusCategory

structure Envelope where
  status : StatusCategory
  message : String
  data : Option Json

namespace Envelope

def successMessage : String := "SUCCESS"

def created (data : Json) : Envelope := ⟨.created, successMessage, some data⟩

def ok (data : Option Json) : Envelope := ⟨.ok, successMessage, data⟩

def failure (status : StatusCategory) (code : ErrorCode) : Envelope := ⟨status, code.text, none⟩

def clientError (code : ErrorCode) : Envelope := failure .clientError code

def serverError (code : ErrorCode) : Envelope := failure .serverError code

def isSuccess (envelope : Envelope) : Bool := envelope.status.isSuccess

def toJson (envelope : Envelope) : Json :=
  .obj [("status", .ofNat envelope.status.number), ("message", .str envelope.message),
    ("data", envelope.data.getD .null)]

def shape : Json.RecordShape :=
  ⟨"envelope",
    [⟨"status", .word16, false⟩, ⟨"message", .text, false⟩, ⟨"data", .optional, false⟩]⟩

def ofGiven? (given : Json.Given) : Option Envelope := do
  let .num status ← Fields.get? given "status" | none
  let .str message ← Fields.get? given "message" | none
  let data := (Fields.get? given "data").filter (!Json.isNull ·)
  some ⟨.ofNumber (← status.unsigned?), message, data⟩

def read? (source : Bytes) : Option Envelope := do
  ofGiven? (← (Json.readRecord shape source).toOption)

end Envelope
end PagePress
