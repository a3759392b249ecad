import PagePress.Proofs.Pipeline.Preservation

namespace PagePress

inductive Use where
  | convert (markup : Bytes)
  | render (document : Bytes)
  deriving DecidableEq, Repr

-- A pipeline over memory. The renderer is one that may answer by all that it was asked before.
structure Press (β : Type) where
  renderer : List Use → Renderer β
  options : Template.Options := {}
  keptFor : Option Nat := none

structure Done (α : Type) where
  answer : α
  documents : Memory
  uses : List Use

def Memory.SameSeen (now : Int) (before after : Memory) : Prop :=
  ∀ id time, now ≤ time → after.live? time id = before.live? time id

theorem Memory.SameSeen.refl (now : Int) (memory : Memory) : memory.SameSeen now memory :=
  fun _ _ _ => rfl

theorem Memory.sameSeen_get (now : Int) (id : String) (memory : Memory) :
    memory.SameSeen now (Memory.get now id memory).2 := fun _ _ since => live?_get since

namespace Press

open Pipeline Substitution

variable {β : Type} (press : Press β)

def pipeline (uses : List Use) : Pipeline Memory β :=
  ⟨Memory.store, press.renderer uses, press.options, press.keptFor⟩

def convert (uses : List Use) (markup : Bytes) : Except PipelineError Bytes × List Use :=
  ((press.pipeline uses).convert markup, uses ++ [.convert markup])

def render (uses : List Use) (document : Bytes) : Generated β × List Use :=
  (.rendered ((press.renderer uses).render document), uses ++ [.render document])

def register (now : Int) (id : String) (markup : Bytes) (memory : Memory) (uses : List Use) :
    Done (Except (Halt PipelineError) Envelope) :=
  match press.convert uses markup with
  | (.error e, uses) => ⟨.error (.fault e), memory, uses⟩
  | (.ok document, uses) =>
    let (saved, memory) := (press.pipeline uses).save now id document memory
    ⟨saved.map fun () => .created (idData id), memory, uses⟩

def replace (now : Int) (id : String) (markup : Bytes) (memory : Memory) (uses : List Use) :
    Done (Except (Halt PipelineError) Envelope) :=
  if id.isEmpty then ⟨.error (.fault (.client .idNeeded .missingId)), memory, uses⟩
  else
    match Memory.get now id memory with
    | (.error e, memory) => ⟨.error (.fault (.server .keyNotFound (.store e))), memory, uses⟩
    | (.ok _, memory) =>
      match press.convert uses markup with
      | (.error e, uses) => ⟨.error (.fault e), memory, uses⟩
      | (.ok document, uses) =>
        let (saved, memory) := (press.pipeline uses).save now id document memory
        ⟨saved.map fun () => .ok (some (idData id)), memory, uses⟩

def generate (now : Int) (request : GenerateRequest) (memory : Memory) (uses : List Use) :
    Done (Generated β) :=
  if request.id.isEmpty then ⟨.failed (.client .idNeeded .missingId), memory, uses⟩
  else
    match Memory.get now request.id memory with
    | (.error e, memory) => ⟨.failed (.server .fetchingFile (.store e)), memory, uses⟩
    | (.ok stored, memory) =>
      match prepare press.options request.id (.obj request.values) stored with
      | .error stop => ⟨.stopped stop, memory, uses⟩
      | .ok bytes =>
        let (generated, uses) := press.render uses bytes
        ⟨generated, memory, uses⟩

variable {press} {now : Int} {id : String} {markup : Bytes} {memory : Memory} {uses : List Use}
  {request : GenerateRequest}

-- Nothing is asked twice, so how the renderer stands at the beginning is all that counts.
theorem register_standing :
    (press.pipeline uses).register now id markup memory =
      ((press.register now id markup memory uses).answer,
        (press.register now id markup memory uses).documents) := by
  rw [Pipeline.register, register, convert]
  cases (press.pipeline uses).convert markup <;> rfl

theorem replace_standing :
    (press.pipeline uses).replace now id markup memory =
      ((press.replace now id markup memory uses).answer,
        (press.replace now id markup memory uses).documents) := by
  rw [Pipeline.replace, replace, convert]
  split
  · rfl
  · rw [show (press.pipeline uses).store.get now id memory = Memory.get now id memory from rfl]
    rcases Memory.get now id memory with ⟨_ | _, read⟩
    · rfl
    · dsimp only
      cases (press.pipeline uses).convert markup <;> rfl

theorem generate_standing :
    (press.pipeline uses).generate now request memory =
      ((press.generate now request memory uses).answer,
        (press.generate now request memory uses).documents) := by
  rw [Pipeline.generate, generate]
  split
  · rfl
  · rw [show (press.pipeline uses).store.get now request.id memory =
      Memory.get now request.id memory from rfl]
    rcases Memory.get now request.id memory with ⟨_ | stored, read⟩
    · rfl
    · dsimp only
      cases prepared : prepare press.options request.id (.obj request.values) stored with
      | error stop => exact congrArg (·, read) (renderStored_stopped prepared)
      | ok bytes => exact congrArg (·, read) (renderStored_prepared prepared)

inductive Replacement (press : Press β) (now : Int) (id : String) (markup : Bytes) (memory : Memory)
    (uses : List Use) : Done (Except (Halt PipelineError) Envelope) → Prop where
  | unnamed : id = "" →
      Replacement press now id markup memory uses
        ⟨.error (.fault (.client .idNeeded .missingId)), memory, uses⟩
  | unread {cause : StoreError} : id ≠ "" → (Memory.get now id memory).1 = .error cause →
      Replacement press now id markup memory uses
        ⟨.error (.fault (.server .keyNotFound (.store cause))), (Memory.get now id memory).2, uses⟩
  | unconverted {stored : Bytes} {cause : RenderError} : id ≠ "" →
      (Memory.get now id memory).1 = .ok stored →
      (press.renderer uses).convert markup = .error cause →
      Replacement press now id markup memory uses
        ⟨.error (.fault (.server .fileConversionFail (.render cause))),
          (Memory.get now id memory).2, uses ++ [.convert markup]⟩
  | unkept {stored document : Bytes} : id ≠ "" → (Memory.get now id memory).1 = .ok stored →
      (press.renderer uses).convert markup = .ok document →
      Replacement press now id markup memory uses
        ⟨.error .panic, (Memory.get now id memory).2.sweep now, uses ++ [.convert markup]⟩
  | replaced {stored document : Bytes} : id ≠ "" → (Memory.get now id memory).1 = .ok stored →
      (press.renderer uses).convert markup = .ok document →
      Replacement press now id markup memory uses
        ⟨.ok (.ok (some (idData id))),
          (Memory.get now id memory).2.put now id document press.keptFor,
          uses ++ [.convert markup]⟩

inductive Generation (press : Press β) (now : Int) (request : GenerateRequest) (memory : Memory)
    (uses : List Use) : Done (Generated β) → Prop where
  | unnamed : request.id = "" →
      Generation press now request memory uses
        ⟨.failed (.client .idNeeded .missingId), memory, uses⟩
  | unread {cause : StoreError} : request.id ≠ "" →
      (Memory.get now request.id memory).1 = .error cause →
      Generation press now request memory uses
        ⟨.failed (.server .fetchingFile (.store cause)), (Memory.get now request.id memory).2, uses⟩
  | unprepared {stored : Bytes} {stop : Halt PipelineError} : request.id ≠ "" →
      (Memory.get now request.id memory).1 = .ok stored →
      prepare press.options request.id (.obj request.values) stored = .error stop →
      Generation press now request memory uses
        ⟨.stopped stop, (Memory.get now request.id memory).2, uses⟩
  | rendered {stored bytes : Bytes} : request.id ≠ "" →
      (Memory.get now request.id memory).1 = .ok stored →
      prepare press.options request.id (.obj request.values) stored = .ok bytes →
      Generation press now request memory uses
        ⟨.rendered ((press.renderer uses).render bytes), (Memory.get now request.id memory).2,
          uses ++ [.render bytes]⟩

theorem convert_eq : press.convert uses markup =
    (((press.renderer uses).convert markup).mapError
      fun e => .server .fileConversionFail (.render e), uses ++ [.convert markup]) := rfl

-- The end of the time that a document is kept may be none that the clock gets to.
theorem save_cases (press : Press β) (uses : List Use) (now : Int) (id : String) (document : Bytes)
    (memory : Memory) :
    (press.pipeline uses).save now id document memory = (.error .panic, memory.sweep now) ∨
      (press.pipeline uses).save now id document memory =
        (.ok (), memory.put now id document press.keptFor) := by
  have set : (press.pipeline uses).store.set now id document (press.pipeline uses).keptFor memory =
      Memory.set Memory.lastMoment now id document press.keptFor memory := rfl
  rw [Pipeline.save, set, Memory.set]
  by_cases reached : Memory.onClock Memory.lastMoment now press.keptFor = true
  · rw [if_pos reached]
    exact .inr rfl
  · rw [if_neg reached]
    exact .inl rfl

theorem replace_cases :
    Replacement press now id markup memory uses (press.replace now id markup memory uses) := by
  by_cases unnamed : id = ""
  · rw [replace, if_pos (by simpa using unnamed)]
    exact .unnamed unnamed
  · rw [replace, if_neg (by simpa using unnamed), convert_eq]
    cases found : Memory.get now id memory with
    | mk outcome read =>
      have there : (Memory.get now id memory).1 = outcome := congrArg Prod.fst found
      have left : read = (Memory.get now id memory).2 := congrArg Prod.snd found.symm
      rw [left]
      cases outcome with
      | error cause => exact .unread unnamed there
      | ok stored =>
        cases converted : (press.renderer uses).convert markup with
        | error cause => exact .unconverted unnamed there converted
        | ok document =>
          rcases save_cases press (uses ++ [.convert markup]) now id document
            (Memory.get now id memory).2 with panics | saved
          · simp only [Except.mapError, panics]
            exact .unkept unnamed there converted
          · simp only [Except.mapError, saved]
            exact .replaced unnamed there converted

theorem generate_cases :
    Generation press now request memory uses (press.generate now request memory uses) := by
  by_cases unnamed : request.id = ""
  · rw [generate, if_pos (by simpa using unnamed)]
    exact .unnamed unnamed
  · rw [generate, if_neg (by simpa using unnamed)]
    cases found : Memory.get now request.id memory with
    | mk outcome read =>
      have there : (Memory.get now request.id memory).1 = outcome := congrArg Prod.fst found
      have left : read = (Memory.get now request.id memory).2 := congrArg Prod.snd found.symm
      rw [left]
      cases outcome with
      | error cause => exact .unread unnamed there
      | ok stored =>
        dsimp only
        cases prepared : prepare press.options request.id (.obj request.values) stored with
        | error stop => exact .unprepared unnamed there prepared
        | ok bytes => exact .rendered unnamed there prepared

section Failures

variable {e : PipelineError}

theorem register_failed
    (failed : (press.register now id markup memory uses).answer = .error (.fault e)) :
    (press.register now id markup memory uses).documents = memory ∧ e.category = .serverError := by
  rw [register, convert_eq] at failed ⊢
  cases converted : (press.renderer uses).convert markup with
  | error cause =>
    rw [converted] at failed
    cases Except.error.inj failed
    exact ⟨rfl, rfl⟩
  | ok document =>
    rw [converted] at failed
    rcases save_cases press (uses ++ [.convert markup]) now id document memory with panics | saved
    · simp only [Except.mapError, panics] at failed
      cases failed
    · simp only [Except.mapError, saved] at failed
      cases failed

theorem Replacement.failed {done : Done (Except (Halt PipelineError) Envelope)}
    (went : Replacement press now id markup memory uses done)
    (failed : done.answer = .error (.fault e)) :
    memory.SameSeen now done.documents ∧ (e.category = .clientError ↔ id = "") := by
  cases went with
  | unnamed unnamed =>
    cases Except.error.inj failed
    exact ⟨.refl now memory, iff_of_true rfl unnamed⟩
  | unread named | unconverted named =>
    cases Except.error.inj failed
    exact ⟨memory.sameSeen_get now id, iff_of_false nofun named⟩
  | unkept | replaced => cases failed

theorem Replacement.asked {done : Done (Except (Halt PipelineError) Envelope)}
    (went : Replacement press now id markup memory uses done) :
    (id = "" ∨ ∃ cause, (Memory.get now id memory).1 = .error cause) ∧ done.uses = uses ∨
      (id ≠ "" ∧ ∃ stored, (Memory.get now id memory).1 = .ok stored) ∧
        done.uses = uses ++ [.convert markup] := by
  cases went with
  | unnamed unnamed => exact .inl ⟨.inl unnamed, rfl⟩
  | unread _ gone => exact .inl ⟨.inr ⟨_, gone⟩, rfl⟩
  | unconverted named there | unkept named there | replaced named there =>
    exact .inr ⟨⟨named, _, there⟩, rfl⟩

theorem prepare_client_iff {options : Template.Options} {values : Json} {stored : Bytes}
    (failed : prepare options id values stored = .error (.fault e)) :
    e.category = .clientError ↔ ∃ fault, Document.decode stored = .error (.shape fault) := by
  cases decoded : Document.decode stored with
  | ok document =>
    have ours := prepare_category decoded failed
    simp [ours]
  | error kind =>
    rw [prepare, decodeStored, decoded] at failed
    cases kind with
    | malformed cause =>
      cases Except.error.inj failed
      simp [PipelineError.server]
    | shape fault =>
      cases Except.error.inj failed
      exact iff_of_true rfl ⟨fault, rfl⟩

theorem rendered_category {outcome : List β × Except RenderError Unit}
    (failed : (Generated.rendered outcome).answer = .error (.fault e)) :
    e.category = .serverError := by
  rcases outcome with ⟨sink, cause | done⟩
  · cases Except.error.inj failed
    rfl
  · cases failed

theorem Generation.sameSeen {done : Done (Generated β)}
    (went : Generation press now request memory uses done) :
    memory.SameSeen now done.documents := by
  cases went with
  | unnamed => exact .refl now memory
  | unread | unprepared | rendered => exact memory.sameSeen_get now request.id

theorem Generation.client_iff {done : Done (Generated β)}
    (went : Generation press now request memory uses done)
    (failed : done.answer.answer = .error (.fault e)) :
    e.category = .clientError ↔ request.id = "" ∨ ∃ stored fault,
      (Memory.get now request.id memory).1 = .ok stored ∧
        Document.decode stored = .error (.shape fault) := by
  cases went with
  | unnamed unnamed =>
    cases Except.error.inj failed
    exact iff_of_true rfl (.inl unnamed)
  | unread named gone =>
    cases Except.error.inj failed
    simp [named, gone, PipelineError.server]
  | unprepared named there prepared =>
    cases Except.error.inj failed
    rw [prepare_client_iff prepared]
    simp [named, there]
  | @rendered stored bytes named there prepared =>
    have ready : prepare (press.pipeline uses).options request.id (.obj request.values) stored =
        .ok bytes := prepared
    obtain ⟨document, filled, decoded, -, -, -⟩ := filled_of_prepared ready
    have ours := rendered_category failed
    simp [ours, named, there, decoded]

theorem Generation.asked {done : Done (Generated β)}
    (went : Generation press now request memory uses done) :
    (done.uses = uses ∧ ∃ stop, done.answer = .stopped stop) ∨
      ∃ stored document filled, (Memory.get now request.id memory).1 = .ok stored ∧
        Document.decode stored = .ok document ∧
        (press.pipeline uses).Filled request stored document filled ∧
        done.uses = uses ++ [.render filled.encode] ∧
        done.answer = .rendered ((press.renderer uses).render filled.encode) := by
  cases went with
  | unnamed | unread | unprepared => exact .inl ⟨rfl, _, rfl⟩
  | @rendered stored bytes named there prepared =>
    have ready : prepare (press.pipeline uses).options request.id (.obj request.values) stored =
        .ok bytes := prepared
    obtain ⟨document, filled, decoded, -, fills, rfl⟩ := filled_of_prepared ready
    exact .inr ⟨stored, document, filled, there, decoded, fills, rfl, rfl⟩

end Failures

theorem failure_changes_nothing (press : Press β) (now : Int) (memory : Memory) (uses : List Use) :
    (∀ id markup,
      let done := press.register now id markup memory uses
      (press.pipeline uses).register now id markup memory = (done.answer, done.documents) ∧
      ∀ e, done.answer = .error (.fault e) →
        memory.SameSeen now done.documents ∧ e.category = .serverError) ∧
    (∀ id markup,
      let done := press.replace now id markup memory uses
      (press.pipeline uses).replace now id markup memory = (done.answer, done.documents) ∧
      (∀ e, done.answer = .error (.fault e) →
        memory.SameSeen now done.documents ∧ (e.category = .clientError ↔ id = "")) ∧
      ((id = "" ∨ ∃ cause, (Memory.get now id memory).1 = .error cause) ∧ done.uses = uses ∨
        (id ≠ "" ∧ ∃ stored, (Memory.get now id memory).1 = .ok stored) ∧
          done.uses = uses ++ [.convert markup])) ∧
    ∀ request,
      let done := press.generate now request memory uses
      (press.pipeline uses).generate now request memory = (done.answer, done.documents) ∧
      memory.SameSeen now done.documents ∧
      (∀ e, done.answer.answer = .error (.fault e) → (e.category = .clientError ↔
        request.id = "" ∨ ∃ stored fault, (Memory.get now request.id memory).1 = .ok stored ∧
          Document.decode stored = .error (.shape fault))) ∧
      ((done.uses = uses ∧ ∃ stop, done.answer = .stopped stop) ∨
        ∃ stored document filled, (Memory.get now request.id memory).1 = .ok stored ∧
          Document.decode stored = .ok document ∧
          (press.pipeline uses).Filled request stored document filled ∧
          done.uses = uses ++ [.render filled.encode] ∧
          done.answer = .rendered ((press.renderer uses).render filled.encode)) := by
  refine ⟨fun id markup => ⟨register_standing, fun e failed => ?_⟩,
    fun id markup => ⟨replace_standing, fun e => replace_cases.failed, replace_cases.asked⟩,
    fun request => ⟨generate_standing, generate_cases.sameSeen, fun e => generate_cases.client_iff,
      generate_cases.asked⟩⟩
  · obtain ⟨same, ours⟩ := register_failed failed
    rw [same]
    exact ⟨.refl now memory, ours⟩

end Press
end PagePress
