import PagePress.Template.Exec
import PagePress.Template.Lexer
import PagePress.Template.Parser

namespace PagePress

structure Template where
  name : String
  nodes : List Template.Node

namespace Template

inductive Cause where
  | lex (error : LexError)
  | parse (error : ParseError)
  | exec (error : ExecError)
  | write (fault : WriteFault)

structure Error where
  name : String
  cause : Cause

namespace Error

def isParse (e : Error) : Bool :=
  match e.cause with
  | .lex _ | .parse _ => true
  | .exec _ | .write _ => false

def message (e : Error) : String :=
  let atLine (line : Nat) (text : String) :=
    "template: " ++ e.name ++ ":" ++ toString line ++ ": " ++ text
  match e.cause with
  | .lex error => atLine error.line error.fault.message
  | .parse error => atLine error.line error.fault.message
  | .exec error => atLine error.line error.fault.message
  | .write fault => "template: " ++ e.name ++ ": failed to write output: " ++ fault.message

end Error

def compile (source : Bytes) (name : String) : Except Error Template := do
  let tokens ← (tokenize source).mapError fun e => ⟨name, .lex e⟩
  let nodes ← (parse tokens.endLine tokens.list).mapError fun e => ⟨name, .parse e⟩
  .ok ⟨name, nodes⟩

def execute (template : Template) (options : Options) (values : Json) (sink : Sink) :
    Except (Halt Error) Unit × Sink :=
  match runTree options values template.nodes sink with
  | (.ok (), sink) => (.ok (), sink)
  | (.error (.exec stop), sink) => (.error (stop.map fun e => ⟨template.name, .exec e⟩), sink)
  | (.error (.write fault), sink) => (.error (.fault ⟨template.name, .write fault⟩), sink)

def render (template : Template) (options : Options) (values : Json) :
    Except (Halt Error) Bytes :=
  match template.execute options values {} with
  | (.ok (), sink) => .ok sink.written
  | (.error stop, _) => .error stop

end Template
end PagePress
