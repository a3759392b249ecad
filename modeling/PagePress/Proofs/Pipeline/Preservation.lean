import PagePress.Proofs.Base64
import PagePress.Proofs.Document.Built
import PagePress.Proofs.Pipeline.StoredDocument

namespace PagePress

open Chain

namespace Json

theorem legible_obj_append {depth : Nat} {fields : Fields} {key a b : String}
    (legible : Legible depth (.obj (fields ++ [(key, .str a)]))) :
    Legible depth (.obj (fields ++ [(key, .str b)])) := by
  cases depth with
  | zero => exact absurd legible (by simp [Legible])
  | succ depth =>
    rw [Legible, legibleFields_forall] at legible ⊢
    obtain ⟨distinct, members⟩ := legible
    refine ⟨by simpa [Fields.keys] using distinct, fun field member => ?_⟩
    rcases List.mem_append.mp member with own | last
    · exact members field (List.mem_append_left _ own)
    · cases List.mem_singleton.mp last
      simp [Legible]

end Json

namespace Page

theorem toFields_of_bare {page : Page} (bare : page.Bare) {source : String}
    (held : page.source = some source) :
    page.toFields = page.fields ++ [(sourceKey, .str source)] := by
  have fresh := bare (by rw [held]; exact Option.some_ne_none _)
  rw [toFields, held]
  exact Json.insert_fresh fresh _

theorem bare_replaceSource {page : Page} (bare : page.Bare) (templated : page.source ≠ none)
    (source : String) : (page.replaceSource source).Bare :=
  fun _ => bare templated

theorem legible_replaceSource {page : Page} (bare : page.Bare) (templated : page.source ≠ none)
    (source : String) {depth : Nat} (legible : Json.Legible depth page.toJson) :
    Json.Legible depth (page.replaceSource source).toJson := by
  obtain ⟨old, held⟩ := Option.ne_none_iff_exists'.mp templated
  have last : (page.replaceSource source).toFields = page.fields ++ [(sourceKey, .str source)] :=
    toFields_of_bare (bare_replaceSource bare templated source) rfl
  rw [toJson, toFields_of_bare bare held] at legible
  rw [toJson, last]
  exact Json.legible_obj_append legible

end Page

namespace Document

theorem legible_toJson_iff {document : Document} {depth : Nat} :
    Json.Legible (depth + 2) document.toJson ↔
      (pagesKey :: Fields.keys document.extra).Nodup ∧
      (∀ page ∈ document.pages, Json.Legible depth page.toJson) ∧
      Json.LegibleFields (depth + 1) document.extra := by
  rw [toJson, Json.Legible, Json.LegibleFields, Json.Legible, Json.legibleItems_forall,
    List.forall_mem_map]
  rfl

end Document

namespace Substitution

variable {options : Template.Options} {id : String} {values : Json}

-- What can become of a page. Nothing here is about another page.
inductive Outcome (options : Template.Options) (id : String) (values : Json) (index : Nat)
    (page : Page) : Except (Halt PipelineError) Page → Prop where
  | kept : page.source = none → Outcome options id values index page (.ok page)
  | filled {source : String} {markup output : Bytes} {template : Template} :
      page.source = some source → Base64.decode (Text.utf8 source) = .ok markup →
      Template.compile markup id = .ok template → template.render options values = .ok output →
      Outcome options id values index page (.ok (page.replaceSource (Base64.encode output)))
  | noBase64 {source : String} {e : Base64.DecodeError} :
      page.source = some source → Base64.decode (Text.utf8 source) = .error e →
      Outcome options id values index page
        (.error (.fault (.server .decodingData (.base64 index e))))
  | noTemplate {source : String} {markup : Bytes} {e : Template.Error} :
      page.source = some source → Base64.decode (Text.utf8 source) = .ok markup →
      Template.compile markup id = .error e →
      Outcome options id values index page (.error (.fault (.server .fileParseFail (.template e))))
  | notRun {source : String} {markup : Bytes} {template : Template} {stop : Halt Template.Error} :
      page.source = some source → Base64.decode (Text.utf8 source) = .ok markup →
      Template.compile markup id = .ok template → template.render options values = .error stop →
      Outcome options id values index page
        (.error (stop.map fun e => .server .templateExecFail (.template e)))

theorem inPage_outcome (index : Nat) (page : Page) :
    Outcome options id values index page (inPage options id values index page) := by
  rw [inPage]
  split
  · rename_i untemplated
    exact .kept untemplated
  · rename_i source held
    rw [pageOutput]
    cases markup : Base64.decode (Text.utf8 source) with
    | error e => exact .noBase64 held markup
    | ok bytes =>
      simp only [Except.mapError, returned_ok, ok_bind]
      cases compiled : Template.compile bytes id with
      | error e => exact .noTemplate held markup compiled
      | ok template =>
        simp only [returned_ok, ok_bind]
        cases rendered : template.render options values with
        | error stop => exact .notRun held markup compiled rendered
        | ok output => exact .filled held markup compiled rendered

theorem outcome_iff {index : Nat} {page : Page} {result : Except (Halt PipelineError) Page} :
    Outcome options id values index page result ↔ inPage options id values index page = result := by
  constructor
  · intro outcome
    cases outcome with
    | kept untemplated => simp only [inPage, untemplated]
    | filled held markup compiled rendered =>
      simp only [inPage, held, pageOutput, markup, compiled, rendered, Except.mapError, returned_ok,
        ok_bind]
    | noBase64 held markup =>
      simp only [inPage, held, pageOutput, markup, Except.mapError, returned_error, error_bind]
    | noTemplate held markup compiled =>
      simp only [inPage, held, pageOutput, markup, compiled, Except.mapError, returned_ok,
        returned_error, ok_bind, error_bind]
    | notRun held markup compiled rendered =>
      simp only [inPage, held, pageOutput, markup, compiled, rendered, Except.mapError, returned_ok,
        ok_bind, error_bind]
  · rintro rfl
    exact inPage_outcome index page

theorem Outcome.fields {index : Nat} {page done : Page}
    (outcome : Outcome options id values index page (.ok done)) :
    done.fields = page.fields ∧ (page.source = none → done = page) := by
  cases outcome with
  | kept untemplated => exact ⟨rfl, fun _ => rfl⟩
  | filled held => exact ⟨rfl, fun untemplated => by cases held.symm.trans untemplated⟩

theorem inPages_cases (index : Nat) (pages : List Page) :
    (∃ filled, inPages options id values index pages = .ok filled ∧
      filled.length = pages.length ∧ ∀ i page, pages[i]? = some page →
        ∃ done, filled[i]? = some done ∧ Outcome options id values (index + i) page (.ok done)) ∨
    ∃ i page stop, inPages options id values index pages = .error stop ∧ pages[i]? = some page ∧
      Outcome options id values (index + i) page (.error stop) ∧
      ∀ j < i, ∀ earlier, pages[j]? = some earlier →
        ∃ done, Outcome options id values (index + j) earlier (.ok done) := by
  simp only [inPages_eq, outcome_iff]
  cases result : eachFrom (inPage options id values) index pages with
  | ok filled => exact .inl ⟨filled, rfl, eachFrom_eq_ok.mp result⟩
  | error stop =>
    obtain ⟨i, page, failing⟩ := eachFrom_eq_error.mp result
    exact .inr ⟨i, page, stop, rfl, failing⟩

end Substitution

namespace Document

theorem toJson_of_lifts {item : Json} {page : Page} (distinct : item.Distinct)
    (lifts : Lifts item page) (untemplated : ∀ source, item.get? sourceKey ≠ some (.str source)) :
    page.source = none ∧ page.toJson = item := by
  obtain ⟨fields, rfl, rfl⟩ := lifts
  rw [Json.Distinct] at distinct
  rcases Page.ofFields_cases distinct.1 with ⟨source, member, -, -⟩ | ⟨none_lifted, whole⟩
  · exact absurd (Fields.get?_of_mem distinct.1 member) (untemplated source)
  · rw [Page.toJson, Page.toFields, none_lifted, whole]
    exact ⟨rfl, rfl⟩

end Document

def Pipeline.Generated.rendered {β : Type} : List β × Except RenderError Unit → Generated β
  | (sink, .ok ()) => ⟨.ok (.ok none), sink⟩
  | (sink, .error e) => ⟨.error (.fault (.server .convertingToPdf (.render e))), sink⟩

namespace Pipeline

open Document Substitution

variable {σ β : Type} {pipe : Pipeline σ β} {request : GenerateRequest} {stored : Bytes}

theorem renderStored_prepared {bytes : Bytes}
    (prepared : prepare pipe.options request.id (.obj request.values) stored = .ok bytes) :
    pipe.renderStored request stored = .rendered (pipe.renderer.render bytes) := by
  rw [renderStored, prepared]
  rfl

theorem renderStored_stopped {stop : Halt PipelineError}
    (stopped : prepare pipe.options request.id (.obj request.values) stored = .error stop) :
    pipe.renderStored request stored = .stopped stop := by
  rw [renderStored, stopped]

variable (pipe request) in
def Fillable (pages : List Page) : Prop :=
  ∀ (i : Nat) (page : Page), pages[i]? = some page →
    ∃ done, Outcome pipe.options request.id (.obj request.values) i page (.ok done)

variable (pipe request) in
structure Fails (pages : List Page) (i : Nat) (page : Page) (stop : Halt PipelineError) : Prop where
  there : pages[i]? = some page
  failed : Outcome pipe.options request.id (.obj request.values) i page (.error stop)
  first : ∀ j < i, ∀ earlier, pages[j]? = some earlier →
    ∃ done, Outcome pipe.options request.id (.obj request.values) j earlier (.ok done)

variable (pipe request stored) in
structure Filled (document filled : Document) : Prop where
  -- It is read back with every number as its text is read.
  readable : decode filled.encode = .ok filled.reread
  restored : decode filled.encode = .ok filled ↔ document.Steady
  extra : filled.extra = document.extra
  length : filled.pages.length = document.pages.length
  pages : ∀ (i : Nat) (page : Page), document.pages[i]? = some page →
    ∃ done, filled.pages[i]? = some done ∧ done.fields = page.fields ∧
      Outcome pipe.options request.id (.obj request.values) i page (.ok done)
  -- Where no source stands in the stored value, the same value is handed on.
  untemplated : ∃ fields items, Json.read stored = .ok (.obj fields) ∧
    (pagesKey, .arr items) ∈ fields ∧ ∀ (i : Nat) (item : Json), items[i]? = some item →
      (∀ source, item.get? sourceKey ≠ some (.str source)) →
        ∃ done, filled.pages[i]? = some done ∧ done.toJson = item

section Decoded

variable {document : Document} (decoded : decode stored = .ok document)
include decoded

theorem prepare_eq : prepare pipe.options request.id (.obj request.values) stored =
    (inPages pipe.options request.id (.obj request.values) 0 document.pages).map
      fun filled => encode { document with pages := filled } := by
  have read : decodeStored stored = .ok document := by rw [decodeStored, decoded]
  rw [prepare, read, returned_ok, ok_bind, inDocument]
  cases inPages pipe.options request.id (.obj request.values) 0 document.pages <;> rfl

variable {filled : List Page} (length : filled.length = document.pages.length)
  (outcomes : ∀ (i : Nat) (page : Page), document.pages[i]? = some page → ∃ done,
    filled[i]? = some done ∧
      Outcome pipe.options request.id (.obj request.values) i page (.ok done))
include length outcomes

-- A filled page goes back to where its source came from.
theorem filled_legible : ∀ done ∈ filled, done.Bare ∧ Json.Legible 125 done.toJson := by
  obtain ⟨-, legible, -⟩ := legible_toJson_iff.mp (legible_decoded decoded)
  intro done member
  obtain ⟨i, less, there⟩ := List.mem_iff_getElem.mp member
  have before := List.getElem?_eq_getElem (length ▸ less)
  obtain ⟨same, found, outcome⟩ := outcomes i _ before
  have bare := bare_decoded decoded _ (List.mem_of_getElem? before)
  have was := legible _ (List.mem_of_getElem? before)
  rw [List.getElem?_eq_getElem less, there] at found
  cases found
  cases outcome with
  | kept untemplated => exact ⟨bare, was⟩
  | filled held =>
    have templated : document.pages[i].source ≠ none := by rw [held]; exact Option.some_ne_none _
    exact ⟨Page.bare_replaceSource bare templated _,
      Page.legible_replaceSource bare templated _ was⟩

omit decoded in
theorem steady_ofOutcomes : Steady { document with pages := filled } ↔ document.Steady := by
  have fields : filled.map Page.fields = document.pages.map Page.fields := by
    refine List.ext_getElem? fun i => ?_
    rw [List.getElem?_map, List.getElem?_map]
    cases before : document.pages[i]? with
    | none =>
      rw [List.getElem?_eq_none_iff, ← length, ← List.getElem?_eq_none_iff] at before
      rw [before]
    | some page =>
      obtain ⟨done, found, outcome⟩ := outcomes i page before
      rw [found, Option.map_some, Option.map_some, outcome.fields.1]
  have each (pages : List Page) : (∀ page ∈ pages, page.reread = page) ↔
      ∀ own ∈ pages.map Page.fields, Json.rereadFields own = own := by
    simp only [List.forall_mem_map, Page.reread_eq_self]
  rw [steady_iff, steady_iff, each, each, fields]

theorem filled_ofOutcomes :
    Filled pipe request stored document { document with pages := filled } := by
  have legible := legible_toJson_iff.mp (legible_decoded decoded)
  have each := filled_legible decoded length outcomes
  obtain ⟨fields, items, read, -, member, -, lifts⟩ := decoded_cases decoded
  have readable := @decode_encode { document with pages := filled }
    (legible_toJson_iff.mpr ⟨legible.1, fun page inside => (each page inside).2, legible.2.2⟩)
    fun page inside => (each page inside).1
  refine ⟨readable, ?_, rfl, length, ?_, fields, items, read, member, ?_⟩
  · rw [readable, Except.ok.injEq]
    exact steady_ofOutcomes length outcomes
  · intro i page there
    obtain ⟨done, found, outcome⟩ := outcomes i page there
    exact ⟨done, found, outcome.fields.1, outcome⟩
  · intro i item there untemplated
    obtain ⟨inside, rfl⟩ := List.getElem?_eq_some_iff.mp there
    have within : i < document.pages.length := lifts.length_eq ▸ inside
    obtain ⟨distinct, own⟩ := lifts.get inside within
    obtain ⟨none_held, same⟩ := toJson_of_lifts distinct own untemplated
    obtain ⟨done, found, outcome⟩ := outcomes i _ (List.getElem?_eq_getElem within)
    refine ⟨done, found, ?_⟩
    have kept : done = document.pages[i] := outcome.fields.2 none_held
    rw [kept]
    exact same

end Decoded

theorem filled_of_prepared {bytes : Bytes}
    (prepared : prepare pipe.options request.id (.obj request.values) stored = .ok bytes) :
    ∃ document filled, decode stored = .ok document ∧
      inDocument pipe.options request.id (.obj request.values) document = .ok filled ∧
      Filled pipe request stored document filled ∧ filled.encode = bytes := by
  cases decoded : decode stored with
  | error e =>
    cases e with
    | malformed e | shape e =>
      rw [prepare, decodeStored, decoded] at prepared
      cases prepared
  | ok document =>
    rcases inPages_cases 0 document.pages with ⟨pages, result, length, outcomes⟩ |
      ⟨i, page, stop, result, -, -, -⟩
    · simp only [Nat.zero_add] at outcomes
      rw [prepare_eq decoded, result] at prepared
      refine ⟨document, { document with pages := pages }, rfl, ?_,
        filled_ofOutcomes decoded length outcomes, Except.ok.inj prepared⟩
      rw [inDocument, result]
      rfl
    · rw [prepare_eq decoded, result] at prepared
      cases prepared

theorem generate_preserves (pipe : Pipeline σ β) (now : Int) (request : GenerateRequest)
    (s after : σ) (stored : Bytes) (document : Document) (named : request.id ≠ "")
    (found : pipe.store.get now request.id s = (.ok stored, after))
    (decoded : decode stored = .ok document) :
    let generated := (pipe.generate now request s).1
    (pipe.Fillable request document.pages → ∃ filled, pipe.Filled request stored document filled ∧
      generated = .rendered (pipe.renderer.render filled.encode)) ∧
    (¬pipe.Fillable request document.pages → ∃ i page stop,
      pipe.Fails request document.pages i page stop ∧ generated = .stopped stop) := by
  intro generated
  have shown : generated = pipe.renderStored request stored :=
    congrArg Prod.fst (generate_found named found)
  rcases inPages_cases 0 document.pages with ⟨filled, result, length, outcomes⟩ |
    ⟨i, page, stop, result, there, outcome, earlier⟩
  · simp only [Nat.zero_add] at outcomes
    refine ⟨fun _ => ⟨_, filled_ofOutcomes decoded length outcomes, ?_⟩, fun unfillable => ?_⟩
    · rw [shown]
      apply renderStored_prepared
      rw [prepare_eq decoded, result]
      rfl
    · refine absurd (fun i page there => ?_) unfillable
      obtain ⟨done, -, outcome⟩ := outcomes i page there
      exact ⟨done, outcome⟩
  · simp only [Nat.zero_add] at outcome earlier
    refine ⟨fun fillable => ?_, fun _ => ⟨i, page, stop, ⟨there, outcome, earlier⟩, ?_⟩⟩
    · obtain ⟨done, succeeded⟩ := fillable i page there
      cases (outcome_iff.mp outcome).symm.trans (outcome_iff.mp succeeded)
    · rw [shown]
      apply renderStored_stopped
      rw [prepare_eq decoded, result]
      rfl

theorem markup_gathered : Base64.decode (Text.utf8 "eA==") = .ok [0x78] := by cbv

theorem compile_gathered : Template.compile [0x78] "a" = .ok ⟨"a", [.text [0x78]]⟩ := by cbv

theorem fillable_gathered : relay.Fillable ⟨"a", []⟩ gathered.pages := by
  intro i page there
  rcases i with _ | _ | i
  · cases there
    exact ⟨_, .filled rfl markup_gathered compile_gathered rfl⟩
  · cases there
    exact ⟨_, .kept rfl⟩
  · cases there

theorem generate_preserves_gathered :
    let kept := ({} : Memory).put 0 "a" scattered.bytes none
    relay.Fillable ⟨"a", []⟩ gathered.pages ∧
      ∃ filled, relay.Filled ⟨"a", []⟩ scattered.bytes gathered filled ∧
        (relay.generate 1 ⟨"a", []⟩ kept).1 = .rendered (relay.renderer.render filled.encode) := by
  intro kept
  have found : relay.store.get 1 "a" kept = (.ok scattered.bytes, kept) :=
    (Memory.keeps_put {} 0 "a" scattered.bytes).get 1
  have preserved := generate_preserves relay 1 ⟨"a", []⟩ kept kept scattered.bytes gathered
    (by decide) found decode_scattered
  exact ⟨fillable_gathered, preserved.1 fillable_gathered⟩

-- A page without a source has another field after the way to the renderer.
theorem generate_slips :
    let kept := ({} : Memory).put 0 "a" zoomed none
    decode zoomed = .ok slipped ∧
      (relay.generate 1 ⟨"a", []⟩ kept).1 = .rendered (relay.renderer.render slipped.encode) ∧
      ∃ read, decode slipped.encode = .ok read ∧
        read.pages.map Page.fields ≠ slipped.pages.map Page.fields := by
  intro kept
  have found : relay.store.get 1 "a" kept = (.ok zoomed, kept) :=
    (Memory.keeps_put {} 0 "a" zoomed).get 1
  refine ⟨decode_zoomed, ?_, slipped.reread, decode_encode_decoded decode_zoomed, fun same => ?_⟩
  · rw [generate_found (by decide) found]
    apply renderStored_prepared
    rw [prepare_eq decode_zoomed]
    rfl
  · have zoom : [[("Zoom", Json.num Json.slipping.reread)]] =
        [[("Zoom", .num Json.slipping)]] := same
    rw [Json.reread_slipping] at zoom
    cases zoom

end Pipeline
end PagePress
