import PagePress.Proofs.Pipeline.Preservation
import PagePress.Rehearsal.Renderer

namespace PagePress

open Chain

theorem pageFileName_injective : Function.Injective pageFileName := by
  intro a b same
  have fronts := (String.append_left_inj ".html").mp same
  exact Nat.repr_injective ((String.append_right_inj "page-").mp fronts)

def Directory : Type := String → Option Bytes

namespace Directory

def empty : Directory := fun _ => none

def put (directory : Directory) (index : Nat) (content : Bytes) : Directory :=
  Function.update directory (pageFileName index) (some content)

@[simp] theorem put_self (directory : Directory) (index : Nat) (content : Bytes) :
    directory.put index content (pageFileName index) = some content :=
  Function.update_self ..

theorem put_of_ne (directory : Directory) {index other : Nat} (content : Bytes)
    (different : other ≠ index) :
    directory.put index content (pageFileName other) = directory (pageFileName other) :=
  Function.update_of_ne (pageFileName_injective.ne different) ..

-- A later file takes the place of an earlier one with its name.
def putAll (directory : Directory) (files : List (Nat × Bytes)) : Directory :=
  files.foldl (fun directory file => directory.put file.1 file.2) directory

end Directory

def Job.directory (job : Job) : Directory := Directory.empty.putAll job.files

def Page.Usable (page : Page) : Prop :=
  page.source ≠ none ∨ ∃ path, page.field? "InputFile" = some (.str path) ∧ path ≠ ""

structure Document.Lacks (document : Document) (i : Nat) : Prop where
  there : ∃ page, document.pages[i]? = some page ∧ ¬page.Usable
  first : ∀ j < i, ∀ earlier, document.pages[j]? = some earlier → earlier.Usable

namespace Renderer

open Document

def writePages (index : Nat) (directory : Directory) :
    List Page → Directory × Except RenderError (List PageInput)
  | [] => (directory, .ok [])
  | page :: rest =>
    match pageInput index page with
    | .error e => (directory, .error e)
    | .ok (.given path) =>
      let (left, inputs) := writePages (index + 1) directory rest
      (left, inputs.map (.given path :: ·))
    | .ok (.written markup) =>
      let (left, inputs) := writePages (index + 1) (directory.put index markup) rest
      (left, inputs.map (.written markup :: ·))

theorem inputsFrom_eq (index : Nat) (pages : List Page) :
    inputsFrom index pages = eachFrom pageInput index pages := by
  induction pages generalizing index with
  | nil => rfl
  | cons page rest ih => simp only [inputsFrom, eachFrom, ih]

theorem writePages_inputs (index : Nat) (directory : Directory) (pages : List Page) :
    (writePages index directory pages).2 = inputsFrom index pages := by
  induction pages generalizing index directory with
  | nil => rfl
  | cons page rest ih =>
    unfold writePages inputsFrom
    rcases pageInput index page with e | ⟨markup⟩ | ⟨path⟩
    · rfl
    · simp only [ih, ok_bind]
      cases inputsFrom (index + 1) rest <;> rfl
    · simp only [ih, ok_bind]
      cases inputsFrom (index + 1) rest <;> rfl

-- What a page is rendered from is no number.
theorem pageInput_reread (index : Nat) (page : Page) :
    pageInput index page.reread = pageInput index page := by
  unfold pageInput
  rw [Page.source_reread]
  cases page.source with
  | some source => rfl
  | none =>
    simp only [Page.field?, Page.fields_reread, Fields.get?_rereadFields]
    rcases Fields.get? page.fields "InputFile" with _ | value
    · rfl
    · cases value <;> rfl

theorem writePages_reread (index : Nat) (directory : Directory) (pages : List Page) :
    writePages index directory (pages.map Page.reread) = writePages index directory pages := by
  induction pages generalizing index directory with
  | nil => rfl
  | cons page rest ih => simp only [List.map_cons, writePages, pageInput_reread, ih]

theorem writePages_files {index : Nat} {pages : List Page} {inputs : List PageInput}
    (directory : Directory) (read : inputsFrom index pages = .ok inputs) :
    (writePages index directory pages).1 = directory.putAll (filesFrom index inputs) := by
  induction pages generalizing index directory inputs with
  | nil =>
    cases read
    rfl
  | cons page rest ih =>
    obtain ⟨input, first, later, others, ⟨⟩⟩ :
        ∃ input, pageInput index page = .ok input ∧ ∃ later,
          inputsFrom (index + 1) rest = .ok later ∧ Except.ok (input :: later) = .ok inputs := by
      simpa only [inputsFrom, bind_eq_ok] using read
    unfold writePages
    rw [first]
    cases input with
    | written markup => exact ih (directory.put index markup) others
    | given path => exact ih directory others

theorem writePages_before {index j : Nat} (before : j < index) (directory : Directory)
    (pages : List Page) :
    (writePages index directory pages).1 (pageFileName j) = directory (pageFileName j) := by
  induction pages generalizing index directory with
  | nil => rfl
  | cons page rest ih =>
    unfold writePages
    rcases pageInput index page with e | ⟨markup⟩ | ⟨path⟩
    · rfl
    · exact (ih (Nat.lt_succ_of_lt before) _).trans
        (directory.put_of_ne markup (Nat.ne_of_lt before))
    · exact ih (Nat.lt_succ_of_lt before) directory

theorem writePages_holds {index i : Nat} {pages : List Page} {page : Page} {markup : Bytes}
    (directory : Directory) (there : pages[i]? = some page)
    (written : pageInput (index + i) page = .ok (.written markup))
    (earlier : ∀ j < i, ∀ other, pages[j]? = some other →
      ∃ input, pageInput (index + j) other = .ok input) :
    (writePages index directory pages).1 (pageFileName (index + i)) = some markup := by
  induction pages generalizing index directory i with
  | nil => cases there
  | cons first rest ih =>
    unfold writePages
    cases i with
    | zero =>
      cases there
      rw [Nat.add_zero] at written ⊢
      rw [written]
      exact (writePages_before (Nat.lt_succ_self index) _ rest).trans (directory.put_self ..)
    | succ i =>
      have shift (i : Nat) : index + (i + 1) = index + 1 + i := by omega
      have onward : ∀ j < i, ∀ other, rest[j]? = some other →
          ∃ input, pageInput (index + 1 + j) other = .ok input := by
        intro j less other
        rw [← shift]
        exact earlier (j + 1) (Nat.succ_lt_succ less) other
      rw [shift i] at written ⊢
      obtain ⟨input, usable⟩ := earlier 0 (Nat.succ_pos i) first rfl
      rw [Nat.add_zero] at usable
      rw [usable]
      cases input with
      | written own => exact ih (directory.put index own) there written onward
      | given path => exact ih directory there written onward

theorem writePages_stopped {index i j : Nat} {pages : List Page} {page : Page} {e : RenderError}
    (directory : Directory) (behind : j < i) (there : pages[j]? = some page)
    (unread : pageInput (index + j) page = .error e) :
    (writePages index directory pages).1 (pageFileName (index + i)) =
      directory (pageFileName (index + i)) := by
  induction pages generalizing index directory i j with
  | nil => rfl
  | cons first rest ih =>
    unfold writePages
    cases j with
    | zero =>
      cases there
      rw [Nat.add_zero] at unread
      rw [unread]
    | succ j =>
      obtain ⟨i, rfl⟩ := Nat.exists_eq_add_one_of_ne_zero (Nat.ne_zero_of_lt behind)
      have shift (i : Nat) : index + (i + 1) = index + 1 + i := by omega
      have onward := Nat.lt_of_succ_lt_succ behind
      rw [shift j] at unread
      rw [shift i]
      rcases pageInput index first with failed | ⟨markup⟩ | ⟨path⟩
      · rfl
      · exact (ih (directory.put index markup) onward there unread).trans
          (directory.put_of_ne markup (by omega))
      · exact ih directory onward there unread

end Renderer

namespace Document

open Renderer

def directory (document : Document) : Directory := (writePages 0 .empty document.pages).1

theorem writePages_eq (document : Document) :
    writePages 0 .empty document.pages = (document.directory, document.inputs) :=
  Prod.ext rfl (writePages_inputs ..)

theorem directory_reread (document : Document) : document.reread.directory = document.directory :=
  congrArg Prod.fst (writePages_reread 0 .empty document.pages)

theorem inputs_reread (document : Document) : document.reread.inputs = document.inputs := by
  have same := writePages_reread 0 .empty document.pages
  rw [writePages_eq] at same
  exact congrArg Prod.snd ((writePages_eq document.reread).symm.trans same)

section Pages

variable {document : Document} {i : Nat} {page : Page}

theorem directory_holds {markup : Bytes} (there : document.pages[i]? = some page)
    (written : pageInput i page = .ok (.written markup))
    (earlier : ∀ j < i, ∀ other, document.pages[j]? = some other →
      ∃ input, pageInput j other = .ok input) :
    document.directory (pageFileName i) = some markup := by
  have held := @writePages_holds 0 i document.pages page markup .empty there
  simp only [Nat.zero_add] at held
  exact held written earlier

theorem directory_stopped {j : Nat} {e : RenderError} (behind : j < i)
    (there : document.pages[j]? = some page) (unread : pageInput j page = .error e) :
    document.directory (pageFileName i) = none := by
  have kept := @writePages_stopped 0 i j document.pages page e .empty behind there
  simp only [Nat.zero_add] at kept
  exact kept unread

theorem usable_of_not_lacks (none_lacks : ∀ j < i, ¬document.Lacks j) :
    ∀ j < i, ∀ page, document.pages[j]? = some page → page.Usable := by
  intro j
  induction j using Nat.strong_induction_on with
  | _ j ih =>
    intro less page there
    by_contra useless
    apply none_lacks j less
    exact ⟨⟨page, there, useless⟩, fun k before => ih k before (before.trans less)⟩

theorem pageInput_untemplated (untemplated : page.source = none) (index : Nat) :
    (page.Usable ∧ ∃ path, pageInput index page = .ok (.given path)) ∨
      (¬page.Usable ∧ pageInput index page = .error (.invalidPage index .noContent)) := by
  unfold pageInput Page.Usable
  rw [untemplated]
  rcases page.field? "InputFile" with _ | value
  · simp
  · cases value with
    | str path => by_cases empty : path = "" <;> simp [empty]
    | _ => simp

end Pages

end Document

namespace Substitution

open Document

section Read

variable {options : Template.Options} {id : String} {values : Json} {index : Nat}
  {page done : Page} (outcome : Outcome options id values index page (.ok done))
include outcome

theorem Outcome.written {source : String} (held : page.source = some source) :
    ∃ output, pageOutput options id values index source = .ok output ∧
      pageInput index done = .ok (.written output) := by
  cases outcome with
  | kept untemplated => cases held.symm.trans untemplated
  | @filled own markup output template found decoded compiled rendered =>
    cases found.symm.trans held
    refine ⟨output, ?_, ?_⟩
    · simp only [pageOutput, decoded, compiled, rendered, Except.mapError, returned_ok, ok_bind]
    · simp only [pageInput, Page.replaceSource, Base64.decode_encode]

theorem Outcome.input :
    (page.Usable ∧ ∃ input, pageInput index done = .ok input) ∨
      (¬page.Usable ∧ pageInput index done = .error (.invalidPage index .noContent)) := by
  cases held : page.source with
  | some source =>
    obtain ⟨output, -, read⟩ := outcome.written held
    exact .inl ⟨.inl (by simp [held]), _, read⟩
  | none =>
    rw [outcome.fields.2 held]
    rcases pageInput_untemplated held index with ⟨usable, path, read⟩ | useless
    · exact .inl ⟨usable, _, read⟩
    · exact .inr useless

theorem Outcome.usable_iff : page.Usable ↔ ∃ input, pageInput index done = .ok input := by
  rcases outcome.input with ⟨usable, read⟩ | ⟨useless, read⟩
  · exact iff_of_true usable read
  · exact iff_of_false useless (by simp [read])

end Read

end Substitution

namespace Renderer

open Document

theorem jobOf_directory {document : Document} {job : Job} (made : jobOf document = .ok job) :
    job.directory = document.directory := by
  obtain ⟨inputs, read, ⟨⟩⟩ := bind_eq_ok.mp made
  exact (writePages_files .empty read).symm

theorem jobOf_eq_error {document : Document} {e : RenderError} :
    jobOf document = .error e ↔ document.inputs = .error e := by
  unfold jobOf
  rw [bind_eq_error]
  simp

theorem start_error {binary : Binary} {job : Job} {e : RenderError}
    (failed : start binary job = .error e) : e = .io ∨ e = .binaryMissing := by
  unfold start at failed
  split at failed
  · cases binary with
    | runnable => cases failed
    | missing => exact .inr (Except.error.inj failed).symm
    | notExecutable => exact .inl (Except.error.inj failed).symm
  · exact .inl (Except.error.inj failed).symm

section Decoded

variable {β : Type} {installation : Installation β} {bytes : Bytes} {document : Document}
  {e : RenderError} (decoded : decode bytes = .ok document)
include decoded

theorem prepare_error (failed : prepare installation bytes = .error e) :
    e = .io ∨ e = .binaryMissing ∨ document.inputs = .error e := by
  unfold prepare at failed
  rw [decoded] at failed
  simp only [Except.mapError, ok_bind] at failed
  split at failed
  · rcases bind_eq_error.mp failed with unmade | ⟨job, -, unstarted⟩
    · exact .inr (.inr (jobOf_eq_error.mp unmade))
    · rcases bind_eq_error.mp unstarted with stopped | ⟨-, -, ⟨⟩⟩
      exact (start_error stopped).imp_right .inl
  · exact .inl (Except.error.inj failed).symm

theorem runJob_error (failed : (runJob installation bytes).2 = .error e) :
    e = .io ∨ e = .binaryMissing ∨ (∃ exit stderr, e = .process exit stderr) ∨
      document.inputs = .error e := by
  unfold runJob at failed
  cases prepared : prepare installation bytes with
  | error cause =>
    rw [prepared] at failed
    cases Except.error.inj failed
    rcases prepare_error decoded prepared with io | missing | unread
    · exact .inl io
    · exact .inr (.inl missing)
    · exact .inr (.inr (.inr unread))
  | ok job =>
    simp only [prepared] at failed
    split at failed
    · cases failed
    · exact .inr (.inr (.inl ⟨_, _, (Except.error.inj failed).symm⟩))

theorem runJob_inputs (scratch : installation.scratch = true)
    (unread : document.inputs = .error e) : runJob installation bytes = ([], .error e) := by
  have stopped : prepare installation bytes = .error e := by
    unfold prepare
    simp only [decoded, scratch, jobOf_eq_error.mpr unread, Except.mapError, ok_bind, error_bind,
      if_true]
  rw [runJob, stopped]

end Decoded

end Renderer

namespace Pipeline

open Document Substitution Renderer

variable {σ β : Type} {pipe : Pipeline σ β} {now : Int} {request : GenerateRequest} {s : σ}
  {stored bytes : Bytes} {document filled : Document}

section Handed

variable (fills : pipe.Filled request stored document filled)
include fills

theorem Filled.page_of {i : Nat} {done : Page} (there : filled.pages[i]? = some done) :
    ∃ page, document.pages[i]? = some page ∧
      Outcome pipe.options request.id (.obj request.values) i page (.ok done) := by
  obtain ⟨less, -⟩ := List.getElem?_eq_some_iff.mp there
  have before := List.getElem?_eq_getElem (fills.length ▸ less)
  obtain ⟨same, found, -, outcome⟩ := fills.pages i _ before
  cases there.symm.trans found
  exact ⟨_, before, outcome⟩

theorem Filled.inputs_error {e : RenderError} :
    filled.inputs = .error e ↔ ∃ i, document.Lacks i ∧ e = .invalidPage i .noContent := by
  rw [inputs, inputsFrom_eq, eachFrom_eq_error]
  simp only [Nat.zero_add]
  constructor
  · rintro ⟨i, done, there, failed, before⟩
    obtain ⟨page, held, outcome⟩ := fills.page_of there
    rcases outcome.input with ⟨-, input, read⟩ | ⟨useless, read⟩
    · cases read.symm.trans failed
    · cases read.symm.trans failed
      refine ⟨i, ⟨⟨page, held, useless⟩, ?_⟩, rfl⟩
      intro j less earlier early
      obtain ⟨same, found, -, outcome⟩ := fills.pages j earlier early
      exact outcome.usable_iff.mpr (before j less same found)
  · rintro ⟨i, ⟨⟨page, held, useless⟩, usable⟩, rfl⟩
    obtain ⟨done, found, -, outcome⟩ := fills.pages i page held
    rcases outcome.input with ⟨used, -⟩ | ⟨-, read⟩
    · exact absurd used useless
    · refine ⟨i, done, found, read, ?_⟩
      intro j less same there
      obtain ⟨earlier, early, outcome⟩ := fills.page_of there
      exact outcome.usable_iff.mp (usable j less earlier early)

theorem Filled.written {i : Nat} {page : Page} {source : String}
    (there : document.pages[i]? = some page) (held : page.source = some source) :
    ∃ output, pageOutput pipe.options request.id (.obj request.values) i source = .ok output ∧
      ((∀ j < i, ¬document.Lacks j) → filled.directory (pageFileName i) = some output) ∧
      ∀ j < i, document.Lacks j → filled.directory (pageFileName i) = none := by
  obtain ⟨done, found, -, outcome⟩ := fills.pages i page there
  obtain ⟨output, gave, read⟩ := outcome.written held
  refine ⟨output, gave, fun none_lacks => ?_, fun j behind lacks => ?_⟩
  · apply directory_holds found read
    intro j less same early
    obtain ⟨earlier, was, outcome⟩ := fills.page_of early
    exact outcome.usable_iff.mp (usable_of_not_lacks none_lacks j less earlier was)
  · obtain ⟨lacking, was, useless⟩ := lacks.there
    obtain ⟨same, early, -, outcome⟩ := fills.pages j lacking was
    rcases outcome.input with ⟨used, -⟩ | ⟨-, unread⟩
    · exact absurd used useless
    · exact directory_stopped behind early unread

theorem Filled.not_lacks {job : Job} (made : jobOf filled.reread = .ok job) (i : Nat) :
    ¬document.Lacks i := by
  intro lacks
  have unread := fills.inputs_error.mpr ⟨i, lacks, rfl⟩
  rw [← inputs_reread] at unread
  cases made.symm.trans (jobOf_eq_error.mpr unread)

end Handed

-- A generation that gets to the renderer, with what was stored and what is handed over.
structure HandsOver (pipe : Pipeline σ β) (now : Int) (request : GenerateRequest) (s : σ)
    (stored bytes : Bytes) : Prop where
  named : request.id ≠ ""
  found : (pipe.store.get now request.id s).1 = .ok stored
  prepared : prepare pipe.options request.id (.obj request.values) stored = .ok bytes

theorem HandsOver.generate (handed : pipe.HandsOver now request s stored bytes) :
    (pipe.generate now request s).1 = .rendered (pipe.renderer.render bytes) := by
  have read : pipe.store.get now request.id s = (.ok stored, _) := Prod.ext handed.found rfl
  rw [generate_found handed.named read]
  exact renderStored_prepared handed.prepared

theorem handsOver_or_stopped (pipe : Pipeline σ β) (now : Int) (request : GenerateRequest) (s : σ) :
    (∃ stored bytes, pipe.HandsOver now request s stored bytes) ∨
      ∃ stop, ∀ renderer : Renderer β,
        ({ pipe with renderer := renderer }.generate now request s).1 = .stopped stop := by
  by_cases named : request.id = ""
  · refine .inr ⟨.fault (.client .idNeeded .missingId), fun renderer => ?_⟩
    rw [Pipeline.generate, if_pos (by simpa using named)]
    rfl
  cases found : pipe.store.get now request.id s with
  | mk outcome after =>
    cases outcome with
    | error cause =>
      refine .inr ⟨.fault (.server .fetchingFile (.store cause)), fun renderer => ?_⟩
      rw [Pipeline.generate, if_neg (by simpa using named), found]
      rfl
    | ok stored =>
      cases prepared : prepare pipe.options request.id (.obj request.values) stored with
      | error stop =>
        refine .inr ⟨stop, fun renderer => ?_⟩
        have read : { pipe with renderer := renderer }.store.get now request.id s =
            (.ok stored, after) := found
        rw [generate_found named read]
        exact renderStored_stopped prepared
      | ok bytes => exact .inl ⟨stored, bytes, named, by rw [found], prepared⟩

theorem handed_over_as_filled (pipe : Pipeline σ β) (installation : Installation β) (now : Int)
    (request : GenerateRequest) (s : σ) (stored bytes : Bytes)
    (program : pipe.renderer = .ofProgram installation)
    (handed : pipe.HandsOver now request s stored bytes) :
    ∃ document filled, decode stored = .ok document ∧
      inDocument pipe.options request.id (.obj request.values) document = .ok filled ∧
      decode bytes = .ok filled.reread ∧ (decode bytes = .ok filled ↔ document.Steady) ∧
      (pipe.generate now request s).1 = .rendered (runJob installation bytes) ∧
      writePages 0 .empty filled.reread.pages = (filled.directory, filled.inputs) ∧
      (∀ i page source, document.pages[i]? = some page → page.source = some source →
        ∃ output, pageOutput pipe.options request.id (.obj request.values) i source = .ok output ∧
          (∀ job, jobOf filled.reread = .ok job →
            job.directory (pageFileName i) = some output) ∧
          ((∀ j < i, ¬document.Lacks j) → filled.directory (pageFileName i) = some output) ∧
          ∀ j < i, document.Lacks j → filled.directory (pageFileName i) = none) ∧
      (∀ e, filled.inputs = .error e ↔ ∃ i, document.Lacks i ∧ e = .invalidPage i .noContent) ∧
      (∀ e, (runJob installation bytes).2 = .error e →
        e = .io ∨ e = .binaryMissing ∨ (∃ exit stderr, e = .process exit stderr) ∨
          ∃ i, document.Lacks i ∧ e = .invalidPage i .noContent) ∧
      ∀ i, document.Lacks i → ∀ (γ : Type) (other : Installation γ), other.scratch = true →
        runJob other bytes = ([], .error (.invalidPage i .noContent)) := by
  obtain ⟨document, filled, decoded, substituted, fills, rfl⟩ := filled_of_prepared handed.prepared
  have readable : decode filled.encode = .ok filled.reread := fills.readable
  have wrote := writePages_eq filled.reread
  rw [directory_reread, inputs_reread] at wrote
  refine ⟨document, filled, decoded, substituted, readable, fills.restored, ?_, wrote, ?_,
    fun e => fills.inputs_error, ?_, ?_⟩
  · rw [handed.generate, program]
    rfl
  · intro i page source there held
    obtain ⟨output, gave, written, stopped⟩ := fills.written there held
    refine ⟨output, gave, fun job made => ?_, written, stopped⟩
    rw [jobOf_directory made, directory_reread]
    exact written fun j _ => fills.not_lacks made j
  · intro e failed
    rw [← fills.inputs_error, ← inputs_reread]
    exact runJob_error readable failed
  · intro i lacks γ other scratch
    have unread := fills.inputs_error.mpr ⟨i, lacks, rfl⟩
    rw [← inputs_reread] at unread
    exact runJob_inputs readable scratch unread

def printing : Pipeline Memory Rehearsal.Printed where
  store := Memory.store
  renderer := .ofProgram (Rehearsal.program .runnable true {})

theorem pageOutput_gathered : pageOutput {} "a" (.obj []) 0 "eA==" = .ok [0x78] := by
  simp only [pageOutput, markup_gathered, compile_gathered, Except.mapError, returned_ok, ok_bind]
  rfl

-- The template writes itself, so the document is handed over as it is.
theorem handsOver_gathered :
    let kept := ({} : Memory).put 0 "a" scattered.bytes none
    printing.HandsOver 1 ⟨"a", []⟩ kept scattered.bytes gathered.encode := by
  intro kept
  have read : Memory.get 1 "a" kept = (.ok scattered.bytes, kept) :=
    (Memory.keeps_put {} 0 "a" scattered.bytes).get 1
  have first : inPage {} "a" (.obj []) 0 (Page.withSource "eA==" [("k", .null)]) =
      .ok (Page.withSource "eA==" [("k", .null)]) := by
    have again : Base64.encode [0x78] = "eA==" := by cbv
    simp only [inPage, Page.withSource, Page.replaceSource, pageOutput_gathered, again, ok_bind]
  have pages : inPages {} "a" (.obj []) 0 gathered.pages = .ok gathered.pages := by
    unfold gathered
    simp only [inPages, first, ok_bind]
    rfl
  refine ⟨by decide, congrArg Prod.fst read, ?_⟩
  rw [prepare_eq decode_scattered]
  exact congrArg (Except.map _) pages

theorem lacks_gathered : gathered.Lacks 1 := by
  refine ⟨⟨Page.ofFields [(sourceKey, .bool true)], rfl, ?_⟩, ?_⟩
  · rintro (templated | ⟨path, given, -⟩)
    · exact templated rfl
    · cases given
  · intro j less page there
    cases Nat.lt_one_iff.mp less
    cases there
    exact .inl (by simp [Page.withSource, Page.replaceSource])

theorem handed_over_gathered :
    let kept := ({} : Memory).put 0 "a" scattered.bytes none
    printing.HandsOver 1 ⟨"a", []⟩ kept scattered.bytes gathered.encode ∧
      decode gathered.encode = .ok gathered ∧
      gathered.directory (pageFileName 0) = some [0x78] ∧
      ∀ (γ : Type) (other : Installation γ), other.scratch = true →
        runJob other gathered.encode = ([], .error (.invalidPage 1 .noContent)) := by
  intro kept
  obtain ⟨document, filled, decoded, -, -, restored, -, -, files, -, -, stopped⟩ :=
    handed_over_as_filled printing (Rehearsal.program .runnable true {}) 1 ⟨"a", []⟩ kept
      scattered.bytes gathered.encode rfl handsOver_gathered
  cases decoded.symm.trans decode_scattered
  have again := (decode_encode_decoded decode_scattered)
  rw [steady_gathered] at again
  cases (restored.mpr steady_gathered).symm.trans again
  obtain ⟨output, gave, -, held, -⟩ := files 0 _ "eA==" rfl rfl
  cases gave.symm.trans pageOutput_gathered
  exact ⟨handsOver_gathered, again, held nofun, stopped 1 lacks_gathered⟩

-- What was handed over is another document where the renderer reads it.
theorem handed_over_slips :
    let kept := ({} : Memory).put 0 "a" zoomed none
    printing.HandsOver 1 ⟨"a", []⟩ kept zoomed slipped.encode ∧
      inDocument {} "a" (.obj []) slipped = .ok slipped ∧ decode slipped.encode ≠ .ok slipped := by
  intro kept
  have read : Memory.get 1 "a" kept = (.ok zoomed, kept) :=
    (Memory.keeps_put {} 0 "a" zoomed).get 1
  refine ⟨⟨by decide, congrArg Prod.fst read, ?_⟩, rfl, fun same => not_steady_slipped ?_⟩
  · rw [prepare_eq decode_zoomed]
    rfl
  · exact Except.ok.inj ((decode_encode_decoded decode_zoomed).symm.trans same)

end Pipeline
end PagePress
