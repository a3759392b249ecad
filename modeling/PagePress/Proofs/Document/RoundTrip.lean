import PagePress.Document.Codec
import PagePress.Proofs.Json.RoundTrip

namespace PagePress

open Chain

namespace Fields

theorem get?_of_fresh {fields : Fields} {key : String} (fresh : key ∉ keys fields) :
    get? fields key = none := by
  have none_found : fields.find? (·.1 == key) = none := by
    rw [List.find?_eq_none]
    intro field member same
    exact fresh (List.mem_map.mpr ⟨field, member, beq_iff_eq.mp same⟩)
  rw [get?, none_found, Option.map_none]

theorem mem_of_get? {fields : Fields} {key : String} {value : Json}
    (found : get? fields key = some value) : (key, value) ∈ fields := by
  obtain ⟨field, first, rfl⟩ := Option.map_eq_some_iff.mp found
  have same : field.1 = key := by simpa using List.find?_some first
  rw [← same]
  exact List.mem_of_find?_eq_some first

theorem get?_append_fresh {fields : Fields} {key : String} (fresh : key ∉ keys fields)
    (value : Json) : get? (fields ++ [(key, value)]) key = some value := by
  have none_found := get?_of_fresh fresh
  rw [get?, Option.map_eq_none_iff] at none_found
  simp [get?, List.find?_append, none_found]

theorem filter_ne_of_fresh {fields : Fields} {key : String} (fresh : key ∉ keys fields) :
    fields.filter (·.1 != key) = fields := by
  rw [List.filter_eq_self]
  intro field member
  rw [bne_iff_ne]
  rintro rfl
  exact fresh (List.mem_map_of_mem member)

theorem get?_rereadFields (fields : Fields) (key : String) :
    get? (Json.rereadFields fields) key = (get? fields key).map Json.reread := by
  rw [Json.rereadFields_eq_map, get?, get?, List.find?_map, Option.map_map, Option.map_map]
  rfl

theorem rereadFields_insert (fields : Fields) (key : String) (value : Json) :
    Json.rereadFields (insert fields key value) =
      insert (Json.rereadFields fields) key value.reread := by
  induction fields with
  | nil => rfl
  | cons first rest ih =>
    rw [insert, Json.rereadFields, insert]
    split
    · rfl
    · rw [Json.rereadFields, ih]

end Fields

namespace Page

theorem isSourceField_reread (key : String) (value : Json) :
    isSourceField (key, value.reread) = isSourceField (key, value) := by
  cases value <;> rfl

def reread (page : Page) : Page where
  source := page.source
  fields := Json.rereadFields page.fields
  lifted field member := by
    rw [Json.rereadFields_eq_map] at member
    obtain ⟨own, inside, rfl⟩ := List.mem_map.mp member
    exact (isSourceField_reread own.1 own.2).trans (page.lifted own inside)

@[simp] theorem source_reread (page : Page) : page.reread.source = page.source := rfl

@[simp] theorem fields_reread (page : Page) :
    page.reread.fields = Json.rereadFields page.fields := rfl

theorem toFields_reread (page : Page) : page.reread.toFields = Json.rereadFields page.toFields := by
  rw [toFields, toFields, reread]
  cases page.source with
  | none => rfl
  | some source => exact (Fields.rereadFields_insert page.fields sourceKey (.str source)).symm

-- No other value stands under the key that a source goes back to.
def Bare (page : Page) : Prop := page.source ≠ none → sourceKey ∉ Fields.keys page.fields

theorem bare_reread {page : Page} (bare : page.Bare) : page.reread.Bare := by
  intro templated
  rw [reread, Json.keys_rereadFields]
  exact bare templated

theorem ext_parts {a b : Page} (source : a.source = b.source) (fields : a.fields = b.fields) :
    a = b := by
  cases a; cases b
  cases source; cases fields
  rfl

theorem reread_eq_self {page : Page} :
    page.reread = page ↔ Json.rereadFields page.fields = page.fields :=
  ⟨congrArg Page.fields, fun same => ext_parts rfl same⟩

theorem filter_fields (page : Page) : page.fields.filter (!isSourceField ·) = page.fields := by
  rw [List.filter_eq_self]
  intro field member
  rw [page.lifted field member]
  rfl

theorem source_ofFields (page : Page) : (ofFields page.fields).source = none := by
  rw [ofFields]
  dsimp only
  split
  · rename_i source found
    have plain := page.lifted _ (Fields.mem_of_get? found)
    simp [isSourceField] at plain
  · rfl

theorem ofFields_toFields {page : Page} (bare : page.Bare) : ofFields page.toFields = page := by
  cases held : page.source with
  | none =>
    have same : page.toFields = page.fields := by rw [toFields, held]
    apply ext_parts
    · rw [same, source_ofFields, held]
    · rw [same]
      exact page.filter_fields
  | some source =>
    have fresh : sourceKey ∉ Fields.keys page.fields :=
      bare (by rw [held]; exact Option.some_ne_none _)
    have last : page.toFields = page.fields ++ [(sourceKey, .str source)] := by
      rw [toFields, held]
      exact Json.insert_fresh fresh _
    apply ext_parts
    · rw [last, ofFields, Fields.get?_append_fresh fresh, held]
    · rw [last]
      simp only [ofFields, List.filter_append, page.filter_fields]
      simp [isSourceField]

theorem ofFields_reread (fields : Fields) :
    ofFields (Json.rereadFields fields) = (ofFields fields).reread := by
  apply ext_parts
  · rw [source_reread, ofFields, ofFields, Fields.get?_rereadFields]
    cases Fields.get? fields sourceKey with
    | none => rfl
    | some value => cases value <;> rfl
  · rw [fields_reread, ofFields, ofFields]
    simp only [Json.rereadFields_eq_map, List.filter_map]
    congr 1
    exact List.filter_congr fun field _ => congrArg _ (isSourceField_reread field.1 field.2)

end Page

namespace Document

def reread (document : Document) : Document :=
  ⟨document.pages.map Page.reread, Json.rereadFields document.extra⟩

def Steady (document : Document) : Prop := document.reread = document

theorem steady_iff {document : Document} : document.Steady ↔
    (∀ page ∈ document.pages, page.reread = page) ∧
      Json.rereadFields document.extra = document.extra := by
  have pages := List.map_inj_left (f := Page.reread) (g := id) (l := document.pages)
  rw [List.map_id] at pages
  rw [Steady, reread, mk.injEq, pages]
  rfl

theorem toJson_reread (document : Document) : document.reread.toJson = document.toJson.reread := by
  have pages : document.reread.pages.map Page.toJson =
      Json.rereadItems (document.pages.map Page.toJson) := by
    rw [reread, Json.rereadItems_eq_map, List.map_map, List.map_map]
    refine List.map_congr_left fun page _ => ?_
    exact congrArg Json.obj page.toFields_reread
  rw [toJson, toJson, pages, Json.reread, Json.rereadFields, Json.reread]
  rfl

theorem pagesOf_toJson (pages : List Page) (index : Nat) :
    pagesOf index (pages.map Page.toJson) =
      .ok (pages.map fun page => Page.ofFields page.toFields) := by
  induction pages generalizing index with
  | nil => rfl
  | cons page rest ih => rw [List.map_cons, Page.toJson, pagesOf, ih, ok_bind, List.map_cons]

theorem ofJson_toJson {document : Document} (fresh : pagesKey ∉ Fields.keys document.extra) :
    ofJson document.toJson =
      .ok ⟨document.pages.map fun page => Page.ofFields page.toFields, document.extra⟩ := by
  have found : Fields.get? ((pagesKey, .arr (document.pages.map Page.toJson)) :: document.extra)
      pagesKey = some (.arr (document.pages.map Page.toJson)) := by simp [Fields.get?]
  rw [toJson, ofJson, found]
  simp only [pagesOf_toJson, ok_bind]
  simp [Fields.filter_ne_of_fresh fresh]

theorem ofJson_toJson_bare {document : Document} (fresh : pagesKey ∉ Fields.keys document.extra)
    (bare : ∀ page ∈ document.pages, page.Bare) : ofJson document.toJson = .ok document := by
  have pages : (document.pages.map fun page => Page.ofFields page.toFields) = document.pages :=
    (List.map_congr_left fun page member => Page.ofFields_toFields (bare page member)).trans
      (List.map_id' _)
  rw [ofJson_toJson fresh, pages]

theorem decode_encode {document : Document} (legible : Json.Legible Json.maxDepth document.toJson)
    (bare : ∀ page ∈ document.pages, page.Bare) :
    decode document.encode = .ok document.reread := by
  obtain ⟨shorter, value⟩ := Json.readValue_alone legible
  have fresh : pagesKey ∉ Fields.keys document.reread.extra := by
    rw [toJson, Json.maxDepth, Json.Legible] at legible
    rw [reread, Json.keys_rereadFields]
    exact (List.nodup_cons.mp legible.1).1
  have again : ∀ page ∈ document.reread.pages, page.Bare :=
    List.forall_mem_map.mpr fun page member => Page.bare_reread (bare page member)
  have shape := ofJson_toJson_bare fresh again
  rw [toJson_reread] at shape
  rw [decode, encode, value]
  simp only [Except.mapError, ok_bind, shape]
  rfl

end Document
end PagePress
