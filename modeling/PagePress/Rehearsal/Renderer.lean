import PagePress.Renderer.Basic

namespace PagePress.Rehearsal

def scripted : String := "scripted"

structure RendererFaults where
  conversion : Bool := false
  render : Bool := false
  health : Bool := false
  deriving DecidableEq, Repr

def failingRenderer {β : Type} (faults : RendererFaults) (begun : List β) (renderer : Renderer β) :
    Renderer β :=
  { renderer with
    healthy := renderer.healthy && !faults.health
    convert := fun markup =>
      if faults.conversion then .error (.invalidPage 0 (.rejected scripted))
      else renderer.convert markup
    render := fun document =>
      if faults.render then (begun, .error (.process (some 1) scripted))
      else renderer.render document }

def echo : Renderer UInt8 where
  name := "wkhtmltopdf"
  healthy := true
  convert markup := .ok (Renderer.newDocument markup).encode
  render document := (document, .ok ())

inductive Printed where
  | word (text : String)
  | file (name : String) (content : Bytes)
  deriving DecidableEq, Repr

structure Script where
  exit : Option Nat := some 0
  stderr : String := ""
  versionExit : Option Nat := some 0
  deriving DecidableEq, Repr

def printArgument (files : List (Nat × Bytes)) : Argument → Printed
  | .word text => .word text
  | .pageFile index =>
    .file (pageFileName index) (((files.find? (·.1 == index)).map (·.2)).getD [])

def program (binary : Binary) (scratch : Bool) (script : Script) : Installation Printed where
  binary := binary
  scratch := scratch
  answers := script.versionExit == some 0
  run job := ⟨job.arguments.map (printArgument job.files), script.stderr, script.exit⟩

end PagePress.Rehearsal
