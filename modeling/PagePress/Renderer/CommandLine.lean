import PagePress.Renderer.Fault

namespace PagePress

structure Flag where
  key : String
  text : String
  deriving DecidableEq, Repr

namespace Flag

def forDocument : List Flag :=
  [⟨"PageSize", "--page-size"⟩, ⟨"Orientation", "--orientation"⟩, ⟨"Dpi", "--dpi"⟩,
    ⟨"Title", "--title"⟩, ⟨"MarginTop", "--margin-top"⟩, ⟨"MarginBottom", "--margin-bottom"⟩,
    ⟨"MarginLeft", "--margin-left"⟩, ⟨"MarginRight", "--margin-right"⟩,
    ⟨"Grayscale", "--grayscale"⟩, ⟨"LowQuality", "--lowquality"⟩]

def forOutline : List Flag := [⟨"Outline", "--outline"⟩, ⟨"OutlineDepth", "--outline-depth"⟩]

def forPage : List Flag :=
  [⟨"Zoom", "--zoom"⟩, ⟨"PrintMediaType", "--print-media-type"⟩,
    ⟨"EnableLocalFileAccess", "--enable-local-file-access"⟩,
    ⟨"DisableJavascript", "--disable-javascript"⟩]

def words (flag : Flag) : Option Json → List String
  | some (.bool true) => [flag.text]
  | some (.str value) => if value.isEmpty then [] else [flag.text, value]
  | some (.num n) => [flag.text, String.ofList n.jsonText]
  | _ => []

-- A section that is no object has no options.
def ofSection (flags : List Flag) (options : Option Json) : List String :=
  flags.flatMap fun flag => flag.words (options.bind (·.get? flag.key))

end Flag

inductive PageInput where
  | written (markup : Bytes)
  | given (path : String)
  deriving DecidableEq, Repr

inductive Argument where
  | word (text : String)
  | pageFile (index : Nat)
  deriving DecidableEq, Repr

def Argument.isPassable : Argument → Bool
  | .word text => !text.contains '\x00'
  | .pageFile _ => true

def pageFileName (index : Nat) : String := "page-" ++ toString index ++ ".html"

namespace Document

def pageInput (index : Nat) (page : Page) : Except RenderError PageInput :=
  match page.source with
  | some source =>
    match Base64.decode (Text.utf8 source) with
    | .ok markup => .ok (.written markup)
    | .error e => .error (.invalidPage index (.base64 e))
  | none =>
    match page.field? "InputFile" with
    | some (.str path) =>
      if path.isEmpty then .error (.invalidPage index .noContent) else .ok (.given path)
    | _ => .error (.invalidPage index .noContent)

def inputsFrom (index : Nat) : List Page → Except RenderError (List PageInput)
  | [] => .ok []
  | page :: rest => do
    let input ← pageInput index page
    let inputs ← inputsFrom (index + 1) rest
    .ok (input :: inputs)

def inputs (document : Document) : Except RenderError (List PageInput) :=
  inputsFrom 0 document.pages

def coverWords (document : Document) : List String :=
  match (Fields.get? document.extra "Cover").bind (·.get? "Input") with
  | some (.str cover) => if cover.isEmpty then [] else ["cover", cover]
  | _ => []

def contentsWords (document : Document) : List String :=
  match (Fields.get? document.extra "TOC").bind (·.get? "Include") with
  | some (.bool true) => ["toc"]
  | _ => []

def pageArguments (index : Nat) (page : Page) (input : PageInput) : List Argument :=
  let source : Argument := match input with
    | .written _ => .pageFile index
    | .given path => .word path
  .word "page" :: source ::
    (Flag.ofSection Flag.forPage (page.field? "PageOptions")).map .word

def pagesArguments (index : Nat) : List (Page × PageInput) → List Argument
  | [] => []
  | (page, input) :: rest => pageArguments index page input ++ pagesArguments (index + 1) rest

-- Ends with a dash: the result goes to the standard output.
def commandLine (document : Document) (inputs : List PageInput) : List Argument :=
  (["--quiet"] ++ Flag.ofSection Flag.forDocument (Fields.get? document.extra "GlobalOptions") ++
      Flag.ofSection Flag.forOutline (Fields.get? document.extra "Outline") ++
      document.coverWords ++ document.contentsWords).map .word ++
    pagesArguments 0 (document.pages.zip inputs) ++ [.word "-"]

end Document
end PagePress
