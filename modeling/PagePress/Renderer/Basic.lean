import PagePress.Renderer.CommandLine

namespace PagePress

-- What a renderer writes goes to a sink in units of its own, up to an error.
structure Renderer (β : Type) where
  name : String
  healthy : Bool
  convert : Bytes → Except RenderError Bytes
  render : Bytes → List β × Except RenderError Unit

inductive Binary where
  | runnable
  | missing
  | notExecutable
  deriving DecidableEq, Repr

structure Job where
  arguments : List Argument
  files : List (Nat × Bytes)
  deriving DecidableEq, Repr

structure RunResult (β : Type) where
  printed : List β
  stderr : String
  -- None where a signal ended it.
  exit : Option Nat

structure Installation (β : Type) where
  binary : Binary
  -- Whether there is a place for the files.
  scratch : Bool
  -- Whether the program can tell its version.
  answers : Bool
  run : Job → RunResult β

namespace Renderer

def newPageFields : Fields :=
  [("PageOptions", .obj [("Zoom", .null), ("PrintMediaType", .bool false),
      ("EnableLocalFileAccess", .bool false), ("DisableJavascript", .bool false)]),
    ("InputFile", .str "")]

def newSections : Fields :=
  [("GlobalOptions", .obj [("PageSize", .str ""), ("Orientation", .str ""), ("Dpi", .null),
      ("Title", .str ""), ("MarginTop", .null), ("MarginBottom", .null), ("MarginLeft", .null),
      ("MarginRight", .null), ("Grayscale", .bool false), ("LowQuality", .bool false)]),
    ("Outline", .obj [("Outline", .bool false), ("OutlineDepth", .null)]),
    ("Cover", .obj [("Input", .str "")]),
    ("TOC", .obj [("Include", .bool false)])]

def newDocument (markup : Bytes) : Document := .singlePage markup newPageFields newSections

def filesFrom (index : Nat) : List PageInput → List (Nat × Bytes)
  | [] => []
  | .written markup :: rest => (index, markup) :: filesFrom (index + 1) rest
  | .given _ :: rest => filesFrom (index + 1) rest

def jobOf (document : Document) : Except RenderError Job := do
  let inputs ← document.inputs
  .ok ⟨document.commandLine inputs, filesFrom 0 inputs⟩

def start (binary : Binary) (job : Job) : Except RenderError Unit :=
  if job.arguments.all Argument.isPassable then
    match binary with
    | .runnable => .ok ()
    | .missing => .error .binaryMissing
    | .notExecutable => .error .io
  else .error .io

def prepare {β : Type} (installation : Installation β) (source : Bytes) :
    Except RenderError Job := do
  let document ← (Document.decode source).mapError .document
  if installation.scratch then
    let job ← jobOf document
    start installation.binary job
    .ok job
  else .error .io

def runJob {β : Type} (installation : Installation β) (source : Bytes) :
    List β × Except RenderError Unit :=
  match prepare installation source with
  | .error e => ([], .error e)
  | .ok job =>
    let result := installation.run job
    (result.printed,
      if result.exit = some 0 then .ok () else .error (.process result.exit result.stderr))

def ofProgram {β : Type} (installation : Installation β) : Renderer β where
  name := "wkhtmltopdf"
  healthy := installation.binary == .runnable && installation.answers
  convert markup := .ok (newDocument markup).encode
  render := runJob installation

end Renderer
end PagePress
