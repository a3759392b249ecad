import PagePress.Proofs.Document.Classification
import PagePress.Proofs.Document.RoundTrip
import PagePress.Proofs.Json.Reordering

namespace PagePress

open Chain

namespace Fields

theorem not_mem_keys_filter (fields : Fields) (key : String) :
    key ∉ keys (fields.filter (·.1 != key)) := by
  intro member
  obtain ⟨field, inside, same⟩ := List.mem_map.mp member
  have other := (List.mem_filter.mp inside).2
  rw [bne_iff_ne] at other
  exact other same

theorem nodup_filter {fields : Fields} (distinct : (keys fields).Nodup)
    (p : String × Json → Bool) : (keys (fields.filter p)).Nodup :=
  distinct.sublist (List.filter_sublist.map _)

theorem perm_lifted {fields : Fields} (distinct : (keys fields).Nodup) {key : String} {value : Json}
    (member : (key, value) ∈ fields) :
    fields.Perm ((key, value) :: fields.filter (·.1 != key)) := by
  have apart : (keys ((key, value) :: fields.filter (·.1 != key))).Nodup :=
    List.nodup_cons.mpr ⟨not_mem_keys_filter fields key, nodup_filter distinct _⟩
  rw [List.perm_ext_iff_of_nodup (List.Nodup.of_map _ distinct) (List.Nodup.of_map _ apart)]
  intro field
  rw [List.mem_cons, List.mem_filter, bne_iff_ne]
  constructor
  · intro inside
    by_cases same : field.1 = key
    · exact .inl (eq_of_nodup distinct inside member same)
    · exact .inr ⟨inside, same⟩
  · rintro (rfl | ⟨inside, -⟩)
    · exact member
    · exact inside

end Fields

namespace Page

theorem isSourceField_iff {field : String × Json} :
    isSourceField field = true ↔ ∃ source, field = (sourceKey, .str source) := by
  obtain ⟨key, value⟩ := field
  cases value <;> simp [isSourceField]

variable {fields : Fields} (distinct : (Fields.keys fields).Nodup)
include distinct

theorem ofFields_cases :
    (∃ source, (sourceKey, .str source) ∈ fields ∧ (ofFields fields).source = some source ∧
      (ofFields fields).fields = fields.filter (·.1 != sourceKey)) ∨
    (ofFields fields).source = none ∧ (ofFields fields).fields = fields := by
  by_cases held : ∃ source, (sourceKey, .str source) ∈ fields
  · obtain ⟨source, member⟩ := held
    refine .inl ⟨source, member, ?_, List.filter_congr fun field inside => ?_⟩
    · rw [ofFields, Fields.get?_of_mem distinct member]
    · rw [Bool.eq_iff_iff, Bool.not_eq_true', bne_iff_ne, ← Bool.not_eq_true, isSourceField_iff]
      refine not_congr ⟨?_, fun same => ⟨source, ?_⟩⟩
      · rintro ⟨other, rfl⟩
        rfl
      · exact Fields.eq_of_nodup distinct inside member same
  · right
    constructor
    · rw [ofFields]
      dsimp only
      split
      · rename_i source found
        exact absurd ⟨source, Fields.mem_of_get? found⟩ held
      · rfl
    · refine List.filter_eq_self.mpr fun field inside => ?_
      rw [Bool.not_eq_true', ← Bool.not_eq_true, isSourceField_iff]
      rintro ⟨source, rfl⟩
      exact held ⟨source, inside⟩

theorem bare_ofFields : (ofFields fields).Bare := by
  intro lifted
  rcases ofFields_cases distinct with ⟨source, -, -, rest⟩ | ⟨none_lifted, -⟩
  · rw [rest]
    exact Fields.not_mem_keys_filter fields sourceKey
  · exact absurd none_lifted lifted

theorem perm_toFields : fields.Perm (ofFields fields).toFields := by
  rcases ofFields_cases distinct with ⟨source, member, lifted, rest⟩ | ⟨none_lifted, whole⟩
  · have last : (ofFields fields).toFields =
        fields.filter (·.1 != sourceKey) ++ [(sourceKey, .str source)] := by
      rw [toFields, lifted, rest]
      exact Json.insert_fresh (Fields.not_mem_keys_filter fields sourceKey) _
    rw [last]
    exact (Fields.perm_lifted distinct member).trans (List.perm_append_singleton _ _).symm
  · rw [toFields, none_lifted, whole]

end Page

namespace Document

theorem decode_eq_ok {source : Bytes} {document : Document} :
    decode source = .ok document ↔
      ∃ value, Json.read source = .ok value ∧ ofJson value = .ok document := by
  constructor
  · intro decoded
    have reading := decode_reading source
    rw [decoded] at reading
    cases reading with
    | whole first shape ended => exact ⟨_, read_eq_ok.mpr ⟨_, first, ended, rfl⟩, shape⟩
  · rintro ⟨value, read, shape⟩
    obtain ⟨p, first, ended, rfl⟩ := read_eq_ok.mp read
    simp only [decode, first, shape, ended, Except.mapError, ok_bind]

def Lifts (item : Json) (page : Page) : Prop :=
  ∃ fields, item = .obj fields ∧ page = Page.ofFields fields

theorem pagesOf_cases {items : List Json} {pages : List Page} {index : Nat}
    (read : pagesOf index items = .ok pages) : List.Forall₂ Lifts items pages := by
  induction items generalizing pages index with
  | nil =>
    cases read
    exact .nil
  | cons item rest ih =>
    cases item with
    | obj fields =>
      obtain ⟨later, found, same⟩ := bind_eq_ok.mp read
      cases same
      exact .cons ⟨fields, rfl, rfl⟩ (ih found)
    | _ => cases read

theorem ofJson_cases {value : Json} {document : Document} (shape : ofJson value = .ok document) :
    ∃ fields items, value = .obj fields ∧ (pagesKey, .arr items) ∈ fields ∧
      document.extra = fields.filter (·.1 != pagesKey) ∧
      List.Forall₂ Lifts items document.pages := by
  cases value with
  | obj fields =>
    rw [ofJson] at shape
    split at shape
    · rename_i items found
      obtain ⟨pages, read, same⟩ := bind_eq_ok.mp shape
      cases same
      exact ⟨fields, items, rfl, Fields.mem_of_get? found, rfl, pagesOf_cases read⟩
    · cases shape
    · cases shape
  | _ => cases shape

section Decoded

variable {source : Bytes} {document : Document} (decoded : decode source = .ok document)
include decoded

theorem decoded_cases : ∃ fields items, Json.read source = .ok (.obj fields) ∧
    (Fields.keys fields).Nodup ∧ (pagesKey, .arr items) ∈ fields ∧
    document.extra = fields.filter (·.1 != pagesKey) ∧
    List.Forall₂ (fun item page => item.Distinct ∧ Lifts item page) items document.pages := by
  obtain ⟨value, read, shape⟩ := decode_eq_ok.mp decoded
  obtain ⟨-, distinct⟩ := (Json.legible_iff value Json.maxDepth).mp (Json.read_legible read)
  obtain ⟨fields, items, rfl, member, rest, pages⟩ := ofJson_cases shape
  rw [Json.Distinct] at distinct
  have inner : (Json.arr items).Distinct := Json.distinctFields_forall.mp distinct.2 _ member
  rw [Json.Distinct, Json.distinctItems_forall] at inner
  exact ⟨fields, items, read, distinct.1, member, rest,
    (List.forall₂_and_left _ _).mpr ⟨inner, pages⟩⟩

theorem reordered_decoded : ∃ value, Json.read source = .ok value ∧
    Json.Reordered value document.toJson := by
  obtain ⟨fields, items, read, distinct, member, rest, pages⟩ := decoded_cases decoded
  have perm := Fields.perm_lifted distinct member
  have likes : Json.Reordered (.arr items) (.arr (document.pages.map Page.toJson)) := by
    rw [Json.Reordered, Json.reorderedItems_iff, List.forall₂_map_right_iff]
    refine pages.imp ?_
    rintro item page ⟨apart, own, rfl, rfl⟩
    rw [Json.Distinct] at apart
    exact .of_perm (Page.perm_toFields apart.1)
  refine ⟨_, read, ?_⟩
  rw [toJson, rest, Json.Reordered, Json.reorderedFields_iff]
  refine ⟨perm.map _, fun field inside => ?_⟩
  rcases List.mem_cons.mp (perm.mem_iff.mp inside) with rfl | other
  · exact ⟨_, List.mem_cons_self, likes⟩
  · exact ⟨_, List.mem_cons_of_mem _ other, .refl _⟩

theorem bare_decoded : ∀ page ∈ document.pages, page.Bare := by
  obtain ⟨fields, items, -, -, -, -, pages⟩ := decoded_cases decoded
  have bare : List.Forall₂ (fun page item => page.Bare ∧ Lifts item page) document.pages items := by
    refine (pages.imp ?_).flip
    rintro item page ⟨apart, own, rfl, rfl⟩
    rw [Json.Distinct] at apart
    exact ⟨Page.bare_ofFields apart.1, own, rfl, rfl⟩
  exact ((List.forall₂_and_left _ _).mp bare).1

theorem legible_decoded : Json.Legible Json.maxDepth document.toJson := by
  obtain ⟨value, read, same⟩ := reordered_decoded decoded
  exact same.legible (Json.read_legible read)

theorem decode_encode_decoded : decode document.encode = .ok document.reread :=
  decode_encode (legible_decoded decoded) (bare_decoded decoded)

end Decoded

-- What a document is encoded as is the stored value but for the order of members. It is read with
-- every number as its text is read, so where those are steady it is read as that value.
theorem encode_normal_form (source : Bytes) (document : Document)
    (decoded : decode source = .ok document) :
    decode document.encode = .ok document.reread ∧
    (document.Steady →
      decode document.encode = .ok document ∧
      (∀ again, decode document.encode = .ok again → again.encode = document.encode) ∧
      ∃ stored printed, Json.read source = .ok stored ∧ Json.read document.encode = .ok printed ∧
        Json.Reordered stored printed ∧ stored.same printed = true) ∧
    (∃ stored, Json.read source = .ok stored ∧ Json.Reordered stored document.toJson ∧
      stored.same document.toJson = true) ∧
    (∀ page ∈ document.pages, ∀ text, (sourceKey, .str text) ∉ page.fields) ∧
    pagesKey ∉ Fields.keys document.extra := by
  have settled := decode_encode_decoded decoded
  obtain ⟨value, read, same⟩ := reordered_decoded decoded
  have legible := legible_decoded decoded
  have equal := same.equal ((Json.legible_iff _ _).mp legible).2
  refine ⟨settled, ?_, ⟨value, read, same, equal⟩, ?_, ?_⟩
  · intro steady
    have printed := Json.read_bytes legible
    rw [← toJson_reread, steady] at printed
    rw [steady] at settled
    refine ⟨settled, fun again found => ?_, value, document.toJson, read, printed, same, equal⟩
    cases settled.symm.trans found
    rfl
  · intro page _ text member
    have plain := page.lifted _ member
    rw [← Bool.not_eq_true, Page.isSourceField_iff] at plain
    exact plain ⟨text, rfl⟩
  · obtain ⟨fields, items, -, -, -, rest, -⟩ := decoded_cases decoded
    rw [rest]
    exact Fields.not_mem_keys_filter fields pagesKey

-- Neither the pages nor a source stand where they are put again.
def scattered : Json :=
  .obj [("v", .ofNat 1),
    (pagesKey, .arr [.obj [(sourceKey, .str "eA=="), ("k", .null)],
      .obj [(sourceKey, .bool true)]]),
    ("w", .null)]

def gathered : Document :=
  ⟨[Page.withSource "eA==" [("k", .null)], Page.ofFields [(sourceKey, .bool true)]],
    [("v", .ofNat 1), ("w", .null)]⟩

theorem decode_scattered : decode scattered.bytes = .ok gathered := by
  have legible := (Json.legible_iff scattered Json.maxDepth).mpr (by decide)
  have steady : scattered.reread = scattered := by
    simp [scattered, Json.reread, Json.rereadItems, Json.rereadFields, Json.ofNat, Number.ofNat]
  have read := Json.read_bytes legible
  rw [steady] at read
  exact decode_eq_ok.mpr ⟨scattered, read, rfl⟩

theorem steady_gathered : gathered.Steady := by
  have integer : (Json.ofNat 1).reread = .ofNat 1 := by simp [Json.ofNat, Number.ofNat, Json.reread]
  rw [Document.Steady, gathered, reread, Json.rereadFields, integer]
  rfl

theorem encode_normal_form_gathered :
    decode scattered.bytes = .ok gathered ∧ gathered.encode ≠ scattered.bytes ∧
      gathered.Steady ∧ decode gathered.encode = .ok gathered :=
  ⟨decode_scattered, by decide +kernel, steady_gathered,
    ((encode_normal_form scattered.bytes gathered decode_scattered).2.1 steady_gathered).1⟩

end Document
end PagePress
