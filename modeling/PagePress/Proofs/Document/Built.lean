import PagePress.Proofs.Document.NormalForm
import PagePress.Proofs.Json.Depth
import PagePress.Proofs.Json.Steady

namespace PagePress

open Chain

namespace Fields

theorem mem_insert_self (fields : Fields) (key : String) (value : Json) :
    (key, value) ∈ insert fields key value := by
  induction fields with
  | nil => exact List.mem_cons_self
  | cons first rest ih =>
    rw [insert]
    split
    · rename_i same
      rw [same]
      exact List.mem_cons_self
    · exact List.mem_cons_of_mem _ ih

theorem filter_insert (fields : Fields) (key : String) (value : Json) :
    (insert fields key value).filter (·.1 != key) = fields.filter (·.1 != key) := by
  induction fields with
  | nil => simp [insert]
  | cons first rest ih =>
    rw [insert]
    split
    · rename_i same
      simp [same]
    · rw [List.filter_cons, List.filter_cons, ih]

theorem distinct_insert {fields : Fields} (distinct : (Json.obj fields).Distinct) {key : String}
    {value : Json} (own : value.Distinct) : (Json.obj (insert fields key value)).Distinct := by
  rw [Json.Distinct, Json.distinctFields_forall] at distinct ⊢
  refine ⟨nodup_insert distinct.1 key value, fun field member => ?_⟩
  rcases mem_insert member with rfl | old
  · exact own
  · exact distinct.2 field old

theorem distinct_filter {fields : Fields} (distinct : (Json.obj fields).Distinct)
    (p : String × Json → Bool) : (Json.obj (fields.filter p)).Distinct := by
  rw [Json.Distinct, Json.distinctFields_forall] at distinct ⊢
  exact ⟨nodup_filter distinct.1 p,
    fun field member => distinct.2 field (List.mem_of_mem_filter member)⟩

end Fields

namespace Page

-- The ways to a page that do not read one. What is given as fields is a map, so no key is there
-- twice.
inductive Built : Page → Prop where
  | ofFields {fields : Fields} : (Json.obj fields).Distinct → Built (.ofFields fields)
  | withSource {fields : Fields} (source : String) :
      (Json.obj fields).Distinct → Built (.withSource source fields)
  | replaceSource {page : Page} (source : String) : Built page → Built (page.replaceSource source)

theorem Built.distinct {page : Page} (built : page.Built) : (Json.obj page.fields).Distinct := by
  induction built with
  | ofFields distinct => exact Fields.distinct_filter distinct _
  | withSource source distinct => exact Fields.distinct_filter distinct _
  | replaceSource source _ ih => exact ih

def settled (page : Page) : Page :=
  match page.source with
  | none => page
  | some _ =>
    { page with
      fields := page.fields.filter (·.1 != sourceKey)
      lifted := fun field member => page.lifted field (List.mem_of_mem_filter member) }

theorem settled_of_bare {page : Page} (bare : page.Bare) : page.settled = page := by
  rw [settled]
  split
  · rfl
  · rename_i source held
    have fresh := bare (by rw [held]; exact Option.some_ne_none _)
    exact ext_parts rfl (Fields.filter_ne_of_fresh fresh)

variable {page : Page} (distinct : (Json.obj page.fields).Distinct)
include distinct

theorem distinct_toJson : page.toJson.Distinct := by
  rw [toJson, toFields]
  split
  · exact Fields.distinct_insert distinct (by simp [Json.Distinct])
  · exact distinct

theorem ofFields_toFields_settled : ofFields page.toFields = page.settled := by
  have apart := distinct_toJson distinct
  rw [toJson, Json.Distinct] at apart
  cases held : page.source with
  | none =>
    have settles : page.settled = page := by rw [settled, held]
    rw [settles]
    exact ofFields_toFields fun templated => absurd held templated
  | some source =>
    have whole : page.toFields = Fields.insert page.fields sourceKey (.str source) := by
      rw [toFields, held]
    have member : (sourceKey, .str source) ∈ page.toFields := by
      rw [whole]
      exact Fields.mem_insert_self _ _ _
    rcases ofFields_cases apart.1 with ⟨other, found, lifted, rest⟩ | ⟨-, nothing⟩
    · have same := Fields.eq_of_nodup apart.1 found member rfl
      rw [Prod.mk.injEq, Json.str.injEq] at same
      have settles : page.settled.source = some source ∧
          page.settled.fields = page.fields.filter (·.1 != sourceKey) := by
        rw [settled, held]
        exact ⟨rfl, rfl⟩
      apply ext_parts
      · rw [lifted, same.2, settles.1]
      · rw [rest, whole, Fields.filter_insert, settles.2]
    · rw [← nothing] at member
      have plain := (ofFields page.toFields).lifted _ member
      simp [isSourceField] at plain

omit distinct in
theorem bare_of_same (same : page.settled.reread.same page = true) : page.Bare := by
  intro templated shadowed
  obtain ⟨source, held⟩ := Option.ne_none_iff_exists'.mp templated
  obtain ⟨field, member, key⟩ := List.mem_map.mp shadowed
  have shorter : (page.fields.filter (·.1 != sourceKey)).length < page.fields.length := by
    rw [List.length_filter_lt_length_iff_exists]
    exact ⟨field, member, by simp [key]⟩
  have fields : page.settled.fields = page.fields.filter (·.1 != sourceKey) := by
    rw [settled, held]
  have length : page.settled.reread.fields.length = page.settled.fields.length := by
    rw [fields_reread, Json.rereadFields_eq_map, List.length_map]
  rw [Page.same, Json.same, length, fields] at same
  simp only [Bool.and_eq_true, beq_iff_eq] at same
  omega

theorem settled_same_iff :
    page.settled.reread.same page = true ↔ page.Bare ∧ page.reread = page := by
  constructor
  · intro same
    have bare := bare_of_same same
    rw [settled_of_bare bare, Page.same, Bool.and_eq_true] at same
    have whole := Json.reread_of_same distinct same.2
    rw [Json.reread, Json.obj.injEq] at whole
    exact ⟨bare, ext_parts rfl whole⟩
  · rintro ⟨bare, steady⟩
    rw [settled_of_bare bare, steady, Page.same, Json.same_refl distinct, beq_self_eq_true]
    rfl

end Page

namespace Document

inductive Built : Document → Prop where
  | new {pages : List Page} {extra : Fields} : (∀ page ∈ pages, page.Built) →
      (Json.obj extra).Distinct → pagesKey ∉ Fields.keys extra → Built ⟨pages, extra⟩
  | singlePage (markup : Bytes) {fields extra : Fields} : (Json.obj fields).Distinct →
      (Json.obj extra).Distinct → pagesKey ∉ Fields.keys extra →
      Built (.singlePage markup fields extra)
  | replaceSource {document replaced : Document} {index : Nat} {source : String} :
      Built document → document.replaceSource? index source = some replaced → Built replaced

structure Mapped (document : Document) : Prop where
  pages : ∀ page ∈ document.pages, (Json.obj page.fields).Distinct
  extra : (Json.obj document.extra).Distinct
  fresh : pagesKey ∉ Fields.keys document.extra

theorem Mapped.replaceSource {document replaced : Document} (mapped : document.Mapped)
    {index : Nat} {source : String}
    (replace : document.replaceSource? index source = some replaced) : replaced.Mapped := by
  rw [replaceSource?] at replace
  split at replace
  · rename_i page there
    cases replace
    refine ⟨fun other member => ?_, mapped.extra, mapped.fresh⟩
    rcases List.mem_or_eq_of_mem_set member with old | rfl
    · exact mapped.pages other old
    · exact mapped.pages page (List.mem_of_getElem? there)
  · cases replace

theorem Built.mapped {document : Document} (built : document.Built) : document.Mapped := by
  induction built with
  | new pages distinct fresh =>
    exact ⟨fun page member => (pages page member).distinct, distinct, fresh⟩
  | singlePage markup fields distinct fresh =>
    refine ⟨fun page member => ?_, distinct, fresh⟩
    cases List.mem_singleton.mp member
    exact (Page.Built.withSource _ fields).distinct
  | replaceSource _ replace ih => exact ih.replaceSource replace

def settled (document : Document) : Document :=
  { document with pages := document.pages.map Page.settled }

section Mapped

variable {document : Document} (mapped : document.Mapped)
include mapped

theorem distinct_toJson : document.toJson.Distinct := by
  have extra := mapped.extra
  rw [Json.Distinct] at extra
  rw [toJson, Json.Distinct, Json.DistinctFields, Json.Distinct, Json.distinctItems_forall,
    List.forall_mem_map]
  exact ⟨List.nodup_cons.mpr ⟨mapped.fresh, extra.1⟩,
    fun page member => Page.distinct_toJson (mapped.pages page member), extra.2⟩

theorem decode_encode_settled (shallow : document.toJson.nesting ≤ Json.maxDepth) :
    decode document.encode = .ok document.settled.reread := by
  have legible := (Json.legible_iff _ _).mpr ⟨shallow, distinct_toJson mapped⟩
  have fresh : pagesKey ∉ Fields.keys document.reread.extra := by
    rw [reread, Json.keys_rereadFields]
    exact mapped.fresh
  have pages : (document.reread.pages.map fun page => Page.ofFields page.toFields) =
      document.settled.reread.pages := by
    rw [reread, reread, settled, List.map_map, List.map_map]
    refine List.map_congr_left fun page member => ?_
    rw [Function.comp_apply, Function.comp_apply, page.toFields_reread, Page.ofFields_reread,
      Page.ofFields_toFields_settled (mapped.pages page member)]
  refine decode_eq_ok.mpr ⟨document.toJson.reread, Json.read_bytes legible, ?_⟩
  rw [← toJson_reread, ofJson_toJson fresh, pages]
  rfl

theorem decode_encode_tooDeep (deep : Json.maxDepth < document.toJson.nesting) :
    ∃ e, decode document.encode = .error (.malformed e) ∧ e.fault = .tooDeep := by
  obtain ⟨e, failed, fault⟩ := Json.readValue_alone_tooDeep (distinct_toJson mapped) deep
  exact ⟨e, by rw [decode, encode, failed]; rfl, fault⟩

theorem settled_same_iff : document.settled.reread.same document = true ↔
    (∀ page ∈ document.pages, page.Bare) ∧ document.Steady := by
  have each : ∀ pages : List Page, (∀ page ∈ pages, (Json.obj page.fields).Distinct) →
      (samePages ((pages.map Page.settled).map Page.reread) pages = true ↔
        ∀ page ∈ pages, page.Bare ∧ page.reread = page) := by
    intro pages distinct
    induction pages with
    | nil => exact ⟨fun _ _ member => absurd member List.not_mem_nil, fun _ => rfl⟩
    | cons page rest ih =>
      obtain ⟨first, later⟩ := List.forall_mem_cons.mp distinct
      rw [List.map_cons, List.map_cons, samePages, Bool.and_eq_true, Page.settled_same_iff first,
        ih later, List.forall_mem_cons]
  have extra : (Json.obj (Json.rereadFields document.extra)).same (.obj document.extra) = true ↔
      Json.rereadFields document.extra = document.extra := by
    constructor
    · intro same
      have whole := Json.reread_of_same mapped.extra same
      rwa [Json.reread, Json.obj.injEq] at whole
    · intro steady
      rw [steady, Json.same_refl mapped.extra]
  rw [same, settled, reread, Bool.and_eq_true, each document.pages mapped.pages, extra, steady_iff]
  simp only [forall_and, and_assoc]

end Mapped

theorem decode_encode_built (document : Document) (built : document.Built) :
    (document.toJson.nesting ≤ Json.maxDepth →
      decode document.encode = .ok document.settled.reread) ∧
    (Json.maxDepth < document.toJson.nesting →
      ∃ e, decode document.encode = .error (.malformed e) ∧ e.fault = .tooDeep) ∧
    (document.toJson.nesting ≤ Json.maxDepth → (∀ page ∈ document.pages, page.Bare) →
      document.Steady → decode document.encode = .ok document) ∧
    ((∃ read, decode document.encode = .ok read ∧ read.same document = true) ↔
      document.toJson.nesting ≤ Json.maxDepth ∧ (∀ page ∈ document.pages, page.Bare) ∧
        document.Steady) := by
  have mapped := built.mapped
  refine ⟨decode_encode_settled mapped, decode_encode_tooDeep mapped, ?_, ?_⟩
  · intro shallow bare steady
    have decoded :=
      decode_encode ((Json.legible_iff _ _).mpr ⟨shallow, distinct_toJson mapped⟩) bare
    rwa [steady] at decoded
  · constructor
    · rintro ⟨read, decoded, same⟩
      rcases Nat.lt_or_ge Json.maxDepth document.toJson.nesting with deep | shallow
      · obtain ⟨e, refused, -⟩ := decode_encode_tooDeep mapped deep
        cases refused.symm.trans decoded
      · cases (decode_encode_settled mapped shallow).symm.trans decoded
        exact ⟨shallow, (settled_same_iff mapped).mp same⟩
    · rintro ⟨shallow, bare⟩
      exact ⟨document.settled.reread, decode_encode_settled mapped shallow,
        (settled_same_iff mapped).mpr bare⟩

theorem decode_encode_singlePage :
    let document := singlePage [0x78] [("k", .null)] [("v", .ofNat 1)]
    document.Built ∧ document.toJson.nesting = 3 ∧ document.Steady ∧
      decode document.encode = .ok document := by
  intro document
  have built : document.Built := .singlePage _ (by decide) (by decide) (by decide)
  have bare : ∀ page ∈ document.pages, page.Bare := by
    intro page member _
    cases List.mem_singleton.mp member
    decide
  have nesting : document.toJson.nesting = 3 := by decide
  have integer : (Json.ofNat 1).reread = .ofNat 1 := by simp [Json.ofNat, Number.ofNat, Json.reread]
  have steady : document.Steady := by
    rw [Steady, reread]
    simp only [document, singlePage, Json.rereadFields, integer]
    rfl
  exact ⟨built, nesting, steady,
    (decode_encode_built document built).2.2.1 (by rw [nesting]; decide) bare steady⟩

def shadowed : Document := ⟨[(Page.ofFields [(sourceKey, .ofNat 12)]).replaceSource "x"], []⟩

theorem built_shadowed : shadowed.Built := by
  refine .new (fun page member => ?_) (by decide) (by decide)
  cases List.mem_singleton.mp member
  exact .replaceSource "x" (.ofFields (by decide))

def nestedLists : Nat → Json
  | 0 => .arr []
  | n + 1 => .arr [nestedLists n]

theorem distinct_nestedLists (n : Nat) : (nestedLists n).Distinct := by
  induction n with
  | zero => simp [nestedLists, Json.Distinct, Json.DistinctItems]
  | succ n ih => simp [nestedLists, Json.Distinct, Json.DistinctItems, ih]

theorem nesting_nestedLists (n : Nat) : (nestedLists n).nesting = n + 1 := by
  induction n with
  | zero => rfl
  | succ n ih =>
    rw [nestedLists, Json.nesting, Json.nestingItems, Json.nestingItems, ih, Nat.max_zero]

-- With the document itself, its containers are one too many.
def bottomless : Document := ⟨[], [("v", nestedLists 126)]⟩

theorem built_bottomless : bottomless.Built :=
  .new nofun (by simp [Json.Distinct, Json.DistinctFields, Fields.keys, distinct_nestedLists])
    (by decide)

def slipped : Document := ⟨[.ofFields [("Zoom", .num Json.slipping)]], []⟩

theorem not_steady_slipped : ¬slipped.Steady := by
  rw [steady_iff]
  rintro ⟨pages, -⟩
  have zoom : [("Zoom", Json.num Json.slipping.reread)] = [("Zoom", .num Json.slipping)] :=
    Page.reread_eq_self.mp (pages _ List.mem_cons_self)
  rw [Json.reread_slipping] at zoom
  cases zoom

-- More digits for that number than it is printed with.
def zoom : Json.Spelling where
  negative := false
  whole := ['9', '3']
  part := some ['0', '6', '8', '3', '8', '3', '9', '9', '0', '9', '7', '0', '9', '7', '2']
  power := none
  wholeDigits := ⟨⟨List.all_eq_true.mp rfl, by decide⟩, by decide⟩
  partDigits digits same := by
    cases same
    exact ⟨List.all_eq_true.mp rfl, by decide⟩
  powerDigits p same := by cases same

theorem number?_zoom : zoom.number? = some Json.slipping := by
  decide +kernel

def zoomed : Bytes := Text.utf8 "\x7b\"Pages\":[\x7b\"Zoom\":93.068383990970972\x7d]\x7d"

theorem decode_zoomed : decode zoomed = .ok slipped := by
  have text : zoomed = '{'.toUInt8 :: Json.keyed pagesKey ('['.toUInt8 :: '{'.toUInt8 ::
      Json.keyed "Zoom" ('9'.toUInt8 :: Text.utf8 "3.068383990970972\x7d]\x7d")) := by
    decide +kernel
  have number : Text.utf8Chars zoom.chars ++ ['}'.toUInt8, ']'.toUInt8, '}'.toUInt8] =
      '9'.toUInt8 :: Text.utf8 "3.068383990970972\x7d]\x7d" := by
    decide +kernel
  have ends : Json.EndsNumber ['}'.toUInt8, ']'.toUInt8, '}'.toUInt8] :=
    Json.endsNumber_cons (by decide) _
  have spelled := zoom.reads ends number?_zoom
  rw [number] at spelled
  have pages := Json.readValue_singleItem (by decide) (by decide)
    (@Json.readValue_singleMember 124 "Zoom" _ _ _ (Json.readValue_number (by decide) spelled))
  obtain ⟨shorter, read⟩ := @Json.readValue_singleMember _ pagesKey _ _ _ pages
  rw [text, decode, Json.maxDepth, read]
  rfl

theorem built_slipped : slipped.Built := by
  refine .new (fun page member => ?_) (by decide) (by decide)
  cases List.mem_singleton.mp member
  exact .ofFields (by decide)

theorem built_not_restored :
    (shadowed.Built ∧ ∃ read, decode shadowed.encode = .ok read ∧ read.same shadowed = false) ∧
    (slipped.Built ∧ ∃ read, decode slipped.encode = .ok read ∧ read.same slipped = false) ∧
    bottomless.Built ∧ ∀ read, decode bottomless.encode ≠ .ok read := by
  refine ⟨⟨built_shadowed, shadowed.settled.reread, ?_, ?_⟩,
    ⟨built_slipped, slipped.settled.reread, ?_, ?_⟩, built_bottomless, ?_⟩
  · exact decode_encode_settled built_shadowed.mapped (by decide)
  · decide +kernel
  · exact decode_encode_settled built_slipped.mapped (by decide)
  · decide +kernel
  · intro read decoded
    have deep : Json.maxDepth < bottomless.toJson.nesting := by
      simp [bottomless, toJson, Json.nesting, Json.nestingItems, Json.nestingFields,
        nesting_nestedLists, Json.maxDepth]
    obtain ⟨e, refused, -⟩ := decode_encode_tooDeep built_bottomless.mapped deep
    cases refused.symm.trans decoded

end Document
end PagePress
