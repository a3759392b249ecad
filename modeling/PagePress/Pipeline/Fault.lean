import PagePress.Outcome.Envelope
import PagePress.Renderer.Fault
import PagePress.Store.Basic
import PagePress.Template.Compiled

namespace PagePress

inductive PipelineCause where
  | store (error : StoreError)
  | render (error : RenderError)
  | codec (error : Document.DecodeError)
  | template (error : Template.Error)
  | base64 (page : Nat) (error : Base64.DecodeError)
  | missingId

structure PipelineError where
  code : ErrorCode
  category : StatusCategory
  cause : PipelineCause

namespace PipelineError

def server (code : ErrorCode) (cause : PipelineCause) : PipelineError := ⟨code, .serverError, cause⟩

def client (code : ErrorCode) (cause : PipelineCause) : PipelineError := ⟨code, .clientError, cause⟩

def message (e : PipelineError) : String := e.code.text

def envelope (e : PipelineError) : Envelope := .failure e.category e.code

end PipelineError

def PipelineCause.message? : PipelineCause → Option String
  | .store error => some error.message
  | .render error => error.message?
  | .codec (.malformed _) => none
  | .codec (.shape fault) => some ((Document.DecodeError.shape fault).message [])
  | .template error => some error.message
  | .base64 page error =>
    some ("invalid base64 in page " ++ toString page ++ ": " ++ error.message)
  | .missingId => some "document id is empty"

end PagePress
