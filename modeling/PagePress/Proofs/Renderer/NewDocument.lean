import PagePress.Pipeline.Substitution
import PagePress.Proofs.Base64
import PagePress.Proofs.Document.RoundTrip
import PagePress.Renderer.Basic

namespace PagePress.Renderer

open Chain

def documentOf (source : String) : Document :=
  ⟨[Page.withSource source newPageFields], newSections⟩

theorem newDocument_eq (markup : Bytes) : newDocument markup = documentOf (Base64.encode markup) :=
  rfl

theorem fields_withSource (source : String) :
    (Page.withSource source newPageFields).fields = newPageFields := by
  simp [Page.withSource, Page.replaceSource, Page.ofFields, newPageFields, isSourceField, sourceKey]

theorem toFields_withSource (source : String) :
    (Page.withSource source newPageFields).toFields =
      newPageFields ++ [(sourceKey, .str source)] := by
  have fresh : sourceKey ∉ Fields.keys newPageFields := by decide
  have held : (Page.withSource source newPageFields).source = some source := rfl
  rw [Page.toFields, held, fields_withSource]
  exact Json.insert_fresh fresh _

theorem bare_documentOf (source : String) : ∀ page ∈ (documentOf source).pages, page.Bare := by
  intro page member _
  cases List.mem_singleton.mp member
  rw [fields_withSource]
  decide

theorem legible_documentOf (source : String) :
    Json.Legible Json.maxDepth (documentOf source).toJson := by
  have shown : (documentOf source).toJson =
      .obj ((pagesKey, .arr [.obj (newPageFields ++ [(sourceKey, .str source)])]) ::
        newSections) := by
    simp only [Document.toJson, documentOf, List.map_cons, List.map_nil, Page.toJson,
      toFields_withSource]
  rw [shown]
  simp [Json.Legible, Json.LegibleItems, Json.LegibleFields, newPageFields, newSections,
    Json.maxDepth, pagesKey, sourceKey, Fields.keys]

theorem decode_documentOf (source : String) :
    Document.decode (documentOf source).encode = .ok (documentOf source) :=
  Document.decode_encode (legible_documentOf source) (bare_documentOf source)

def written (options : Template.Options) (request : String) (values : Json) (markup : Bytes) :
    Except (Halt PipelineError) Bytes := do
  let template ← returned ((Template.compile markup request).mapError
    fun e => .server .fileParseFail (.template e))
  (template.render options values).mapError
    (Halt.map fun e => .server .templateExecFail (.template e))

theorem prepare_newDocument (options : Template.Options) (request : String) (values : Json)
    (markup : Bytes) :
    Substitution.prepare options request values (newDocument markup).encode =
      (written options request values markup).map
        fun output => (documentOf (Base64.encode output)).encode := by
  have found : Substitution.decodeStored (newDocument markup).encode =
      .ok (documentOf (Base64.encode markup)) := by
    rw [Substitution.decodeStored, newDocument_eq, decode_documentOf]
  have output : Substitution.pageOutput options request values 0 (Base64.encode markup) =
      written options request values markup := by
    rw [Substitution.pageOutput, Base64.decode_encode]
    rfl
  have page : Substitution.inPage options request values 0
      (Page.withSource (Base64.encode markup) newPageFields) =
        (written options request values markup).map
          fun output => Page.withSource (Base64.encode output) newPageFields := by
    have held : (Page.withSource (Base64.encode markup) newPageFields).source =
        some (Base64.encode markup) := rfl
    rw [Substitution.inPage, held]
    simp only [output]
    cases written options request values markup <;> rfl
  rw [Substitution.prepare, found, returned_ok, ok_bind, Substitution.inDocument, documentOf,
    Substitution.inPages, page]
  cases written options request values markup <;> rfl

end PagePress.Renderer
