import PagePress.Proofs.Pipeline.StoredDocument
import PagePress.Proofs.Renderer.NewDocument

namespace PagePress.Pipeline

open Renderer Chain

variable {β : Type}

-- Documents stay in memory for good, in the form that the program's renderer gives them. What the
-- renderer makes of them is open.
structure Plain (pipe : Pipeline Memory β) : Prop where
  store : pipe.store = Memory.store
  keptFor : pipe.keptFor = none
  convert : ∀ markup, pipe.renderer.convert markup = .ok (newDocument markup).encode

inductive Call where
  | register (markup : Bytes)
  | replace (id : String) (markup : Bytes)
  | generate (request : GenerateRequest)

inductive Event (β : Type) where
  | registered (id : String) (markup : Bytes) (answer : Except (Halt PipelineError) Envelope)
  | replaced (id : String) (markup : Bytes) (answer : Except (Halt PipelineError) Envelope)
  | generated (request : GenerateRequest) (generated : Generated β)

def Event.written? : Event β → Option (String × Bytes)
  | .registered id markup (.ok _) | .replaced id markup (.ok _) => some (id, markup)
  | .registered .. | .replaced .. | .generated .. => none

-- The last event comes first.
def latest? (id : String) : List (Event β) → Option Bytes
  | [] => none
  | event :: rest =>
    match event.written? with
    | some (other, markup) => if other = id then some markup else latest? id rest
    | none => latest? id rest

def Returned (id : String) (events : List (Event β)) : Prop :=
  ∃ issued markup, Event.registered issued markup (.ok (.created (idData id))) ∈ events

structure Course (β : Type) where
  documents : Memory
  -- How many ids were asked for.
  issued : Nat
  events : List (Event β)

def Course.start (documents : Memory) : Course β := ⟨documents, 0, []⟩

def step (pipe : Pipeline Memory β) (ids : Nat → String) (course : Course β) :
    Int × Call → Course β
  | (now, .register markup) =>
    let id := ids course.issued
    let (answer, documents) := pipe.register now id markup course.documents
    ⟨documents, course.issued + 1, .registered id markup answer :: course.events⟩
  | (now, .replace id markup) =>
    let (answer, documents) := pipe.replace now id markup course.documents
    ⟨documents, course.issued, .replaced id markup answer :: course.events⟩
  | (now, .generate request) =>
    let (generated, documents) := pipe.generate now request course.documents
    ⟨documents, course.issued, .generated request generated :: course.events⟩

def run (pipe : Pipeline Memory β) (ids : Nat → String) (course : Course β) :
    List (Int × Call) → Course β
  | [] => course
  | call :: rest => run pipe ids (step pipe ids course call) rest

def rendered (pipe : Pipeline Memory β) (bytes : Bytes) : Generated β :=
  match pipe.renderer.render bytes with
  | (sink, .ok ()) => ⟨.ok (.ok none), sink⟩
  | (sink, .error e) => ⟨.error (.fault (.server .convertingToPdf (.render e))), sink⟩

def Carries (output bytes : Bytes) : Prop :=
  ∃ page source, Document.decode bytes = .ok ⟨[page], newSections⟩ ∧ page.source = some source ∧
    page.fields = newPageFields ∧ Base64.decode (Text.utf8 source) = .ok output

def sent (output : Bytes) : Bytes := (documentOf (Base64.encode output)).encode

def Follows (pipe : Pipeline Memory β) (request : GenerateRequest) (markup : Bytes)
    (generated : Generated β) : Prop :=
  match Template.compile markup request.id with
  | .error e => generated = .failed (.server .fileParseFail (.template e))
  | .ok template =>
    match template.render pipe.options (.obj request.values) with
    | .error stop =>
      generated = .stopped (stop.map fun e => .server .templateExecFail (.template e))
    | .ok output => Carries output (sent output) ∧ generated = pipe.rendered (sent output)

def Sound (e : PipelineError) : Prop :=
  e.code ≠ .decodingData ∧ e.code ≠ .encodingFile ∧ ∀ page error, e.cause ≠ .base64 page error

theorem carries_sent (output : Bytes) : Carries output (sent output) :=
  ⟨_, Base64.encode output, decode_documentOf _, rfl, fields_withSource _,
    Base64.decode_encode output⟩

theorem renderStored_newDocument (pipe : Pipeline Memory β) (request : GenerateRequest)
    (markup : Bytes) :
    pipe.Follows request markup (pipe.renderStored request (newDocument markup).encode) := by
  rw [Follows, renderStored, prepare_newDocument, written]
  cases Template.compile markup request.id with
  | error e => rfl
  | ok template =>
    simp only [Except.mapError, returned_ok, ok_bind]
    cases template.render pipe.options (.obj request.values) with
    | error stop => rfl
    | ok output => exact ⟨carries_sent output, rfl⟩

theorem Follows.sound {pipe : Pipeline Memory β} {request : GenerateRequest} {markup : Bytes}
    {generated : Generated β} (follows : pipe.Follows request markup generated) {e : PipelineError}
    (failed : generated.answer = .error (.fault e)) : Sound e := by
  rw [Follows] at follows
  split at follows
  · subst follows
    cases Except.error.inj failed
    exact ⟨nofun, nofun, nofun⟩
  · split at follows
    · rename_i stop _
      subst follows
      cases stop with
      | fault cause =>
        cases Except.error.inj failed
        exact ⟨nofun, nofun, nofun⟩
      | panic => cases failed
    · obtain ⟨-, rfl⟩ := follows
      rw [rendered] at failed
      split at failed
      · cases failed
      · cases Except.error.inj failed
        exact ⟨nofun, nofun, nofun⟩

def ReadOnly (now : Int) (before after : Memory) : Prop :=
  after = before ∨ ∃ id, after = (Memory.get now id before).2

theorem ReadOnly.keeps {now : Int} {before after : Memory} (read : ReadOnly now before after)
    {id : String} {bytes : Bytes} (kept : before.Keeps id bytes) : after.Keeps id bytes := by
  obtain rfl | ⟨other, rfl⟩ := read
  · exact kept
  · exact kept.get_other now other

section Calls

variable {pipe : Pipeline Memory β} (plain : pipe.Plain) (now : Int)
include plain

theorem Plain.save (id : String) (bytes : Bytes) (s : Memory) :
    pipe.save now id bytes s = (.ok (), s.put now id bytes none) := by
  rw [Pipeline.save, plain.store, plain.keptFor]
  rfl

theorem Plain.register (id : String) (markup : Bytes) (s : Memory) :
    pipe.register now id markup s =
      (.ok (.created (idData id)), s.put now id (newDocument markup).encode none) := by
  rw [Pipeline.register, Pipeline.convert, plain.convert]
  simp only [Except.mapError, plain.save]
  rfl

theorem Plain.replace (id : String) (markup : Bytes) (s : Memory) :
    (∃ read, ReadOnly now s read ∧ pipe.replace now id markup s =
      (.ok (.ok (some (idData id))), read.put now id (newDocument markup).encode none)) ∨
    ∃ e read, ReadOnly now s read ∧ pipe.replace now id markup s = (.error (.fault e), read) := by
  rw [Pipeline.replace, plain.store]
  split
  · exact .inr ⟨_, s, .inl rfl, rfl⟩
  · split
    · rename_i e read gone
      refine .inr ⟨_, read, .inr ⟨id, ?_⟩, rfl⟩
      exact (congrArg Prod.snd gone).symm
    · rename_i found read there
      refine .inl ⟨read, .inr ⟨id, (congrArg Prod.snd there).symm⟩, ?_⟩
      rw [Pipeline.convert, plain.convert]
      simp only [Except.mapError, plain.save]
      rfl

theorem Plain.generate_readOnly (request : GenerateRequest) (s : Memory) :
    ReadOnly now s (pipe.generate now request s).2 := by
  rw [Pipeline.generate, plain.store]
  split
  · exact .inl rfl
  · split
    · rename_i e read gone
      exact .inr ⟨request.id, (congrArg Prod.snd gone).symm⟩
    · rename_i found read there
      exact .inr ⟨request.id, (congrArg Prod.snd there).symm⟩

theorem Plain.generate_kept {request : GenerateRequest} (named : request.id ≠ "") {s : Memory}
    {bytes : Bytes} (kept : s.Keeps request.id bytes) :
    pipe.generate now request s = (pipe.renderStored request bytes, s) := by
  apply generate_found named
  rw [plain.store]
  exact kept.get now

end Calls

-- The last written markup of every id is the one that is kept, and every registration answered
-- with the id that it was given.
structure Recorded (course : Course β) : Prop where
  kept : ∀ id markup, latest? id course.events = some markup →
    course.documents.Keeps id (newDocument markup).encode
  named : ∀ id markup answer, .registered id markup answer ∈ course.events →
    id ≠ "" ∧ answer = .ok (.created (idData id))

theorem recorded_start (documents : Memory) : Recorded (Course.start documents : Course β) := by
  constructor
  · intro id markup latest
    cases latest
  · intro id markup answer member
    cases member

section Step

variable {course : Course β} {now : Int} {read : Memory} {event : Event β}

theorem Recorded.kept_write (recorded : Recorded course)
    (readOnly : ReadOnly now course.documents read) {id : String} {markup : Bytes}
    (writes : event.written? = some (id, markup)) {other : String} {last : Bytes}
    (latest : latest? other (event :: course.events) = some last) :
    (read.put now id (newDocument markup).encode none).Keeps other (newDocument last).encode := by
  rw [latest?, writes] at latest
  by_cases same : id = other
  · subst same
    cases Option.some.inj ((if_pos rfl).symm.trans latest)
    exact Memory.keeps_put read now id _
  · have before := recorded.kept other last ((if_neg same).symm.trans latest)
    exact (readOnly.keeps before).put (Ne.symm same) now _ none

theorem Recorded.kept_read (recorded : Recorded course)
    (readOnly : ReadOnly now course.documents read) (writes : event.written? = none) {id : String}
    {last : Bytes} (latest : latest? id (event :: course.events) = some last) :
    read.Keeps id (newDocument last).encode := by
  rw [latest?, writes] at latest
  exact readOnly.keeps (recorded.kept id last latest)

end Step

theorem idData_inj {a b : String} (same : idData a = idData b) : a = b := by
  simpa [idData] using same

theorem latest?_of_registered {id : String} {markup : Bytes} {answer : Envelope}
    {events : List (Event β)} (member : .registered id markup (.ok answer) ∈ events) :
    ∃ last, latest? id events = some last := by
  induction events with
  | nil => cases member
  | cons event rest ih =>
    rcases List.mem_cons.mp member with rfl | earlier
    · exact ⟨markup, if_pos rfl⟩
    · obtain ⟨last, found⟩ := ih earlier
      rw [latest?]
      split
      · split
        · exact ⟨_, rfl⟩
        · exact ⟨last, found⟩
      · exact ⟨last, found⟩

-- No id that is given out is empty. One that came twice would be one more write under it.
variable {pipe : Pipeline Memory β} (plain : pipe.Plain) {ids : Nat → String}
  (named : ∀ n, ids n ≠ "")
include plain named

theorem step_recorded {course : Course β} (recorded : Recorded course) (call : Int × Call) :
    Recorded (pipe.step ids course call) := by
  obtain ⟨now, call⟩ := call
  cases call with
  | register markup =>
    simp only [step, plain.register]
    refine ⟨fun id last => recorded.kept_write (.inl rfl) rfl, fun id markup answer member => ?_⟩
    rcases List.mem_cons.mp member with same | earlier
    · cases same
      exact ⟨named _, rfl⟩
    · exact recorded.named id markup answer earlier
  | replace target markup =>
    rcases plain.replace now target markup course.documents with ⟨read, readOnly, done⟩ |
      ⟨e, read, readOnly, failed⟩
    · simp only [step, done]
      refine ⟨fun id last => recorded.kept_write readOnly rfl, fun id markup answer member => ?_⟩
      rcases List.mem_cons.mp member with same | earlier
      · cases same
      · exact recorded.named id markup answer earlier
    · simp only [step, failed]
      refine ⟨fun id last => recorded.kept_read readOnly rfl, fun id markup answer member => ?_⟩
      rcases List.mem_cons.mp member with same | earlier
      · cases same
      · exact recorded.named id markup answer earlier
  | generate request =>
    have readOnly := plain.generate_readOnly now request course.documents
    refine ⟨fun id last => recorded.kept_read readOnly rfl, fun id markup answer member => ?_⟩
    rcases List.mem_cons.mp member with same | earlier
    · cases same
    · exact recorded.named id markup answer earlier

theorem run_recorded {course : Course β} (recorded : Recorded course) (calls : List (Int × Call)) :
    Recorded (pipe.run ids course calls) := by
  induction calls generalizing course with
  | nil => exact recorded
  | cons call rest ih => exact ih (step_recorded plain named recorded call)

omit plain named

theorem relay_plain : relay.Plain := ⟨rfl, rfl, fun _ => rfl⟩

end PagePress.Pipeline
