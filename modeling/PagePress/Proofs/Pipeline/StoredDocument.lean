import PagePress.Pipeline.Basic
import PagePress.Proofs.Document.Classification
import PagePress.Proofs.Store.Memory

namespace PagePress

open Chain

namespace Substitution

variable {options : Template.Options} {id : String} {values : Json} {index : Nat}
  {e : PipelineError}

theorem pageOutput_category {source : String}
    (failed : pageOutput options id values index source = .error (.fault e)) :
    e.category = .serverError := by
  rw [pageOutput] at failed
  rcases bind_eq_error.mp failed with first | ⟨markup, -, failed⟩
  · obtain ⟨e, first, ⟨⟩⟩ := returned_eq_error.mp first
    obtain ⟨cause, -, rfl⟩ := mapError_eq_error.mp first
    rfl
  rcases bind_eq_error.mp failed with second | ⟨template, -, failed⟩
  · obtain ⟨e, second, ⟨⟩⟩ := returned_eq_error.mp second
    obtain ⟨cause, -, rfl⟩ := mapError_eq_error.mp second
    rfl
  obtain ⟨cause | -, -, ⟨⟩⟩ := mapError_eq_error.mp failed
  rfl

theorem inPage_category {page : Page}
    (failed : inPage options id values index page = .error (.fault e)) :
    e.category = .serverError := by
  rw [inPage] at failed
  split at failed
  · cases failed
  · rcases bind_eq_error.mp failed with output | ⟨output, -, failed⟩
    · exact pageOutput_category output
    · cases failed

theorem inPages_eq (index : Nat) (pages : List Page) :
    inPages options id values index pages = eachFrom (inPage options id values) index pages := by
  induction pages generalizing index with
  | nil => rfl
  | cons page rest ih => simp only [inPages, eachFrom, ih]

theorem inPages_category {pages : List Page}
    (failed : inPages options id values index pages = .error (.fault e)) :
    e.category = .serverError := by
  rw [inPages_eq] at failed
  obtain ⟨i, page, -, first, -⟩ := eachFrom_eq_error.mp failed
  exact inPage_category first

theorem prepare_category {stored : Bytes} {document : Document}
    (decoded : Document.decode stored = .ok document)
    (failed : prepare options id values stored = .error (.fault e)) :
    e.category = .serverError := by
  have found : decodeStored stored = .ok document := by rw [decodeStored, decoded]
  rw [prepare, found, returned_ok, ok_bind] at failed
  rcases bind_eq_error.mp failed with pages | ⟨filled, -, failed⟩
  · rw [inDocument] at pages
    rcases bind_eq_error.mp pages with first | ⟨outputs, -, failed⟩
    · exact inPages_category first
    · cases failed
  · cases failed

end Substitution

namespace Pipeline

open Document

variable {σ β : Type} {pipe : Pipeline σ β} {request : GenerateRequest} {stored : Bytes}

theorem generate_found {now : Int} {s after : σ} (named : request.id ≠ "")
    (found : pipe.store.get now request.id s = (.ok stored, after)) :
    pipe.generate now request s = (pipe.renderStored request stored, after) := by
  have full : request.id.isEmpty = false := by simpa using named
  rw [generate, full, found]
  rfl

theorem renderStored_malformed {e : Json.ReadError}
    (malformed : decode stored = .error (.malformed e)) :
    pipe.renderStored request stored =
      .failed (.server .fileParseFail (.codec (.malformed e))) := by
  rw [renderStored, Substitution.prepare, Substitution.decodeStored, malformed]
  rfl

theorem renderStored_shape {fault : ShapeFault}
    (misshapen : decode stored = .error (.shape fault)) :
    pipe.renderStored request stored = .failed (.client .decodingData (.codec (.shape fault))) := by
  rw [renderStored, Substitution.prepare, Substitution.decodeStored, misshapen]
  rfl

theorem renderStored_category {document : Document} (decoded : decode stored = .ok document)
    {e : PipelineError} (failed : (pipe.renderStored request stored).answer = .error (.fault e)) :
    e.category = .serverError := by
  rw [renderStored] at failed
  split at failed
  · rename_i stop prepared
    cases Except.error.inj failed
    exact Substitution.prepare_category decoded prepared
  · split at failed
    · cases failed
    · cases Except.error.inj failed
      rfl

theorem renderStored_client_iff :
    (∃ e, (pipe.renderStored request stored).answer = .error (.fault e) ∧
        e.category = .clientError) ↔
      Misleads stored := by
  constructor
  · rintro ⟨e, failed, blamed⟩
    cases result : decode stored with
    | ok document => cases (renderStored_category result failed).symm.trans blamed
    | error kind =>
      cases kind with
      | shape fault => exact decode_shape_iff.mp ⟨fault, result⟩
      | malformed cause =>
        rw [renderStored_malformed result] at failed
        cases Except.error.inj failed
        cases blamed
  · intro misleads
    obtain ⟨fault, misshapen⟩ := decode_shape_iff.mpr misleads
    rw [renderStored_shape misshapen]
    exact ⟨_, rfl, rfl⟩

theorem stored_classes (stored : Bytes) :
    ((∃ e, decode stored = .error (.malformed e)) ↔ Broken stored) ∧
    ((∃ fault, decode stored = .error (.shape fault)) ↔ Misleads stored) ∧
    ((∃ document, decode stored = .ok document) ↔
      ∃ value, Json.read stored = .ok value ∧ Shaped value) ∧
    (Classified stored ↔ (Misleads stored → WellFormed stored)) ∧
    ∀ {σ β : Type} (pipe : Pipeline σ β) (now : Int) (request : GenerateRequest) (s after : σ),
      request.id ≠ "" → pipe.store.get now request.id s = (.ok stored, after) →
      let generated := (pipe.generate now request s).1
      (Broken stored →
        ∃ e, generated = .failed (.server .fileParseFail (.codec (.malformed e)))) ∧
      (Misleads stored →
        ∃ fault, generated = .failed (.client .decodingData (.codec (.shape fault)))) ∧
      ((∃ e, generated.answer = .error (.fault e) ∧ e.category = .clientError) ↔
        Misleads stored) := by
  refine ⟨decode_malformed_iff, decode_shape_iff, decode_ok_iff, classified_iff, ?_⟩
  intro σ β pipe now request s after named found generated
  have shown : generated = pipe.renderStored request stored :=
    congrArg Prod.fst (generate_found named found)
  rw [shown]
  refine ⟨fun broken => ?_, fun misleads => ?_, renderStored_client_iff⟩
  · obtain ⟨e, malformed⟩ := decode_malformed_iff.mpr broken
    exact ⟨e, renderStored_malformed malformed⟩
  · obtain ⟨fault, misshapen⟩ := decode_shape_iff.mpr misleads
    exact ⟨fault, renderStored_shape misshapen⟩

def relay : Pipeline Memory Bytes where
  store := Memory.store
  renderer :=
    { name := "relay", healthy := true,
      convert := fun markup => .ok (Renderer.newDocument markup).encode,
      render := fun bytes => ([bytes], .ok ()) }

theorem generate_null_x :
    let stored : Bytes := [0x6E, 0x75, 0x6C, 0x6C, 0x20, 0x78]
    let kept := ({} : Memory).put 0 "a" stored none
    ∃ fault, (relay.generate 1 ⟨"a", []⟩ kept).1 =
      .failed (.client .decodingData (.codec (.shape fault))) := by
  intro stored kept
  obtain ⟨-, -, -, -, generations⟩ := stored_classes stored
  have found : relay.store.get 1 "a" kept = (.ok stored, kept) :=
    (Memory.keeps_put {} 0 "a" stored).get 1
  exact (generations relay 1 ⟨"a", []⟩ kept kept (by decide) found).2.1 misleads_null_x

end Pipeline
end PagePress
