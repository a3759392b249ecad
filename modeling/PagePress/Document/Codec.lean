import PagePress.Base64
import PagePress.Document.Page
import PagePress.Json.Printer
import PagePress.Json.Reader

namespace PagePress

def pagesKey : String := "Pages"

structure Document where
  pages : List Page
  extra : Fields

namespace Document

inductive ShapeFault where
  | notObject
  | pagesMissing
  | pagesNotList
  | pageNotObject (index : Nat)
  deriving DecidableEq, Repr

def ShapeFault.reason : ShapeFault → String
  | .notObject => "document must be an object"
  | .pagesMissing => "`" ++ pagesKey ++ "` is missing"
  | .pagesNotList => "`" ++ pagesKey ++ "` is not a sequence"
  | .pageNotObject index => "page " ++ toString index ++ " is not a mapping"

inductive DecodeError where
  | malformed (error : Json.ReadError)
  | shape (fault : ShapeFault)
  deriving DecidableEq, Repr

def DecodeError.message (source : Bytes) : DecodeError → String
  | .malformed error => "malformed document: " ++ error.message source
  | .shape fault => "invalid document shape: " ++ fault.reason

def pagesOf (index : Nat) : List Json → Except ShapeFault (List Page)
  | [] => .ok []
  | .obj fields :: rest => do .ok (Page.ofFields fields :: (← pagesOf (index + 1) rest))
  | _ :: _ => .error (.pageNotObject index)

def ofJson (value : Json) : Except ShapeFault Document :=
  match value with
  | .obj fields =>
    match Fields.get? fields pagesKey with
    | some (.arr items) => do
      .ok ⟨← pagesOf 0 items, fields.filter (·.1 != pagesKey)⟩
    | some _ => .error .pagesNotList
    | none => .error .pagesMissing
  | _ => .error .notObject

-- The shape is looked at as soon as the value ends, before anything that may follow it.
def decode (source : Bytes) : Except DecodeError Document := do
  let p ← (Json.readValue Json.maxDepth source).mapError .malformed
  let document ← (ofJson p.value).mapError .shape
  (Json.readEnd p.rest).mapError .malformed
  .ok document

def toJson (document : Document) : Json :=
  .obj ((pagesKey, .arr (document.pages.map Page.toJson)) :: document.extra)

def encode (document : Document) : Bytes := document.toJson.bytes

def singlePage (markup : Bytes) (fields extra : Fields) : Document :=
  ⟨[Page.withSource (Base64.encode markup) fields], extra⟩

def replaceSource? (document : Document) (index : Nat) (source : String) : Option Document :=
  match document.pages[index]? with
  | some page =>
    some { document with pages := document.pages.set index (page.replaceSource source) }
  | none => none

def push (document : Document) (page : Page) : Document :=
  { document with pages := document.pages ++ [page] }

def samePages : List Page → List Page → Bool
  | [], [] => true
  | a :: as, b :: bs => a.same b && samePages as bs
  | _, _ => false

-- Up to the order of members.
def same (a b : Document) : Bool :=
  samePages a.pages b.pages && (Json.obj a.extra).same (.obj b.extra)

end Document
end PagePress
