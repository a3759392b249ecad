import PagePress.Document.Codec

namespace PagePress

inductive PageFault where
  | base64 (error : Base64.DecodeError)
  | noContent
  | rejected (reason : String)
  deriving DecidableEq, Repr

def PageFault.reason : PageFault → String
  | .base64 error => error.message
  | .noContent => "neither Base64PageData nor InputFile is set"
  | .rejected reason => reason

inductive RenderError where
  | document (error : Document.DecodeError)
  | invalidPage (index : Nat) (fault : PageFault)
  | binaryMissing
  | io
  -- The exit code, none where a signal ended the process.
  | process (exit : Option Nat) (stderr : String)
  deriving DecidableEq, Repr

-- None where the words are the system's, or belong beside the text that was read.
def RenderError.message? : RenderError → Option String
  | .document (.malformed _) => none
  | .document (.shape fault) =>
    some ("invalid intermediate document: " ++ (Document.DecodeError.shape fault).message [])
  | .invalidPage index fault =>
    some ("page " ++ toString index ++ " has no usable content: " ++ fault.reason)
  | .binaryMissing => none
  | .io => none
  | .process exit stderr =>
    let code := match exit with
      | some n => "Some(" ++ toString n ++ ")"
      | none => "None"
    some ("renderer exited with " ++ code ++ ": " ++ stderr)

end PagePress
