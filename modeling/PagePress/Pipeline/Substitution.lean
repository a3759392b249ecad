import PagePress.Pipeline.Fault

namespace PagePress.Substitution

def pageOutput (options : Template.Options) (id : String) (values : Json) (index : Nat)
    (source : String) : Except (Halt PipelineError) Bytes := do
  let markup ← returned ((Base64.decode (Text.utf8 source)).mapError
    fun e => .server .decodingData (.base64 index e))
  let template ← returned ((Template.compile markup id).mapError
    fun e => .server .fileParseFail (.template e))
  (template.render options values).mapError
    (Halt.map fun e => .server .templateExecFail (.template e))

def inPage (options : Template.Options) (id : String) (values : Json) (index : Nat) (page : Page) :
    Except (Halt PipelineError) Page :=
  match page.source with
  | none => .ok page
  | some source => do
    let output ← pageOutput options id values index source
    .ok (page.replaceSource (Base64.encode output))

def inPages (options : Template.Options) (id : String) (values : Json) (index : Nat) :
    List Page → Except (Halt PipelineError) (List Page)
  | [] => .ok []
  | page :: rest => do
    let page ← inPage options id values index page
    let rest ← inPages options id values (index + 1) rest
    .ok (page :: rest)

def inDocument (options : Template.Options) (id : String) (values : Json) (document : Document) :
    Except (Halt PipelineError) Document := do
  let pages ← inPages options id values 0 document.pages
  .ok { document with pages }

-- A text that is no document is ours to answer for, JSON of another shape is the caller's.
def decodeStored (stored : Bytes) : Except PipelineError Document :=
  match Document.decode stored with
  | .ok document => .ok document
  | .error (.shape fault) => .error (.client .decodingData (.codec (.shape fault)))
  | .error (.malformed e) => .error (.server .fileParseFail (.codec (.malformed e)))

def prepare (options : Template.Options) (id : String) (values : Json) (stored : Bytes) :
    Except (Halt PipelineError) Bytes := do
  let document ← returned (decodeStored stored)
  let document ← inDocument options id values document
  .ok document.encode

end PagePress.Substitution
