namespace PagePress.Template

inductive MissingKey where
  | empty
  | noValue
  | error
  deriving DecidableEq, Repr

namespace MissingKey

def placeholder : MissingKey → String
  | .noValue => "<no value>"
  | .empty | .error => ""

def ofName? : String → Option MissingKey
  | "empty" | "zero" => some .empty
  | "no_value" | "default" | "invalid" => some .noValue
  | "error" => some .error
  | _ => none

def unknownMessage (name : String) : String := "unknown missing key policy: " ++ name

end MissingKey

structure Options where
  missingKey : MissingKey := .empty
  escapeHtml : Bool := true
  deriving DecidableEq, Repr

end PagePress.Template
