import PagePress.Document.Codec
import PagePress.Proofs.Json.RoundTrip

namespace PagePress.Document

open Chain

def WellFormed (source : Bytes) : Prop := ∃ value, Json.read source = .ok value

def Shaped (value : Json) : Prop :=
  ∃ fields items, value = .obj fields ∧ Fields.get? fields pagesKey = some (.arr items) ∧
    ∀ item ∈ items, ∃ page, item = .obj page

-- A value that is no document stands first; what follows it is open.
def Misleads (source : Bytes) : Prop :=
  ∃ p, Json.readValue Json.maxDepth source = .ok p ∧ ¬Shaped p.value

def Broken (source : Bytes) : Prop := ¬WellFormed source ∧ ¬Misleads source

theorem pagesOf_eq_ok {items : List Json} (index : Nat) :
    (∃ pages, pagesOf index items = .ok pages) ↔ ∀ item ∈ items, ∃ page, item = .obj page := by
  induction items generalizing index with
  | nil => exact ⟨fun _ _ member => (List.not_mem_nil member).elim, fun _ => ⟨[], rfl⟩⟩
  | cons item rest ih =>
    constructor
    · rintro ⟨pages, accepted⟩
      cases item with
      | obj fields =>
        obtain ⟨later, found, -⟩ := bind_eq_ok.mp accepted
        exact List.forall_mem_cons.mpr ⟨⟨fields, rfl⟩, (ih _).mp ⟨later, found⟩⟩
      | _ => cases accepted
    · intro objects
      obtain ⟨⟨fields, rfl⟩, later⟩ := List.forall_mem_cons.mp objects
      obtain ⟨pages, found⟩ := (ih _).mpr later
      exact ⟨Page.ofFields fields :: pages, by rw [pagesOf, found, ok_bind]⟩

theorem ofJson_eq_ok {value : Json} : (∃ document, ofJson value = .ok document) ↔ Shaped value := by
  constructor
  · rintro ⟨document, accepted⟩
    cases value with
    | obj fields =>
      rw [ofJson] at accepted
      split at accepted
      · rename_i items found
        obtain ⟨pages, read, -⟩ := bind_eq_ok.mp accepted
        exact ⟨fields, items, rfl, found, (pagesOf_eq_ok 0).mp ⟨pages, read⟩⟩
      · cases accepted
      · cases accepted
    | _ => cases accepted
  · rintro ⟨fields, items, rfl, found, objects⟩
    obtain ⟨pages, read⟩ := (pagesOf_eq_ok 0).mpr objects
    exact ⟨⟨pages, fields.filter (·.1 != pagesKey)⟩, by simp only [ofJson, found, read, ok_bind]⟩

theorem ofJson_eq_error {value : Json} :
    (∃ fault, ofJson value = .error fault) ↔ ¬Shaped value := by
  rw [← ofJson_eq_ok]
  cases ofJson value <;> simp

theorem read_eq_ok {source : Bytes} {value : Json} :
    Json.read source = .ok value ↔ ∃ p, Json.readValue Json.maxDepth source = .ok p ∧
      Json.readEnd p.rest = .ok () ∧ p.value = value := by
  rw [Json.read, bind_eq_ok]
  constructor
  · rintro ⟨p, first, done⟩
    obtain ⟨⟨⟩, ended, last⟩ := bind_eq_ok.mp done
    exact ⟨p, first, ended, Except.ok.inj last⟩
  · rintro ⟨p, first, ended, rfl⟩
    exact ⟨p, first, by rw [ended, ok_bind]⟩

inductive Reading (source : Bytes) : Except DecodeError Document → Prop where
  | noValue {e : Json.ReadError} : Json.readValue Json.maxDepth source = .error e →
      Reading source (.error (.malformed e))
  | misshapen {p : Json.Parsed Json source.length} {fault : ShapeFault} :
      Json.readValue Json.maxDepth source = .ok p → ofJson p.value = .error fault →
      Reading source (.error (.shape fault))
  | notEnded {p : Json.Parsed Json source.length} {document : Document} {e : Json.ReadError} :
      Json.readValue Json.maxDepth source = .ok p → ofJson p.value = .ok document →
      Json.readEnd p.rest = .error e → Reading source (.error (.malformed e))
  | whole {p : Json.Parsed Json source.length} {document : Document} :
      Json.readValue Json.maxDepth source = .ok p → ofJson p.value = .ok document →
      Json.readEnd p.rest = .ok () → Reading source (.ok document)

theorem decode_reading (source : Bytes) : Reading source (decode source) := by
  rw [decode]
  cases first : Json.readValue Json.maxDepth source with
  | error e => exact .noValue first
  | ok p =>
    simp only [Except.mapError, ok_bind]
    cases shape : ofJson p.value with
    | error fault => exact .misshapen first shape
    | ok document =>
      cases ended : Json.readEnd p.rest with
      | error e => exact .notEnded first shape ended
      | ok done => exact .whole first shape ended

theorem decode_shape_iff {source : Bytes} :
    (∃ fault, decode source = .error (.shape fault)) ↔ Misleads source := by
  constructor
  · rintro ⟨fault, failed⟩
    have reading := decode_reading source
    rw [failed] at reading
    cases reading with
    | misshapen first shape => exact ⟨_, first, ofJson_eq_error.mp ⟨_, shape⟩⟩
  · rintro ⟨p, first, misshapen⟩
    obtain ⟨fault, shape⟩ := ofJson_eq_error.mpr misshapen
    exact ⟨fault, by simp only [decode, first, shape, Except.mapError, ok_bind, error_bind]⟩

theorem decode_ok_iff {source : Bytes} :
    (∃ document, decode source = .ok document) ↔
      ∃ value, Json.read source = .ok value ∧ Shaped value := by
  constructor
  · rintro ⟨document, accepted⟩
    have reading := decode_reading source
    rw [accepted] at reading
    cases reading with
    | whole first shape ended =>
      exact ⟨_, read_eq_ok.mpr ⟨_, first, ended, rfl⟩, ofJson_eq_ok.mp ⟨_, shape⟩⟩
  · rintro ⟨value, whole, shaped⟩
    obtain ⟨p, first, ended, rfl⟩ := read_eq_ok.mp whole
    obtain ⟨document, shape⟩ := ofJson_eq_ok.mpr shaped
    exact ⟨document, by simp only [decode, first, shape, ended, Except.mapError, ok_bind]⟩

theorem decode_malformed_iff {source : Bytes} :
    (∃ e, decode source = .error (.malformed e)) ↔ Broken source := by
  constructor
  · rintro ⟨e, failed⟩
    have other : ¬Misleads source := by
      rw [← decode_shape_iff]
      rintro ⟨fault, shape⟩
      cases failed.symm.trans shape
    refine ⟨?_, other⟩
    rintro ⟨value, whole⟩
    obtain ⟨p, first, ended, same⟩ := read_eq_ok.mp whole
    have shaped : Shaped value :=
      Classical.byContradiction fun misshapen => other ⟨p, first, same ▸ misshapen⟩
    obtain ⟨document, accepted⟩ := decode_ok_iff.mpr ⟨value, whole, shaped⟩
    cases failed.symm.trans accepted
  · rintro ⟨ill, other⟩
    cases result : decode source with
    | error e =>
      cases e with
      | malformed e => exact ⟨e, rfl⟩
      | shape fault => exact (other (decode_shape_iff.mp ⟨fault, result⟩)).elim
    | ok document =>
      obtain ⟨value, whole, -⟩ := decode_ok_iff.mp ⟨document, result⟩
      exact (ill ⟨value, whole⟩).elim

-- How texts would be told apart if an error behind a value counted before the value does.
structure Classified (source : Bytes) : Prop where
  malformed : (∃ e, decode source = .error (.malformed e)) ↔ ¬WellFormed source
  misshapen : (∃ fault, decode source = .error (.shape fault)) ↔
    ∃ value, Json.read source = .ok value ∧ ¬Shaped value
  accepted : (∃ document, decode source = .ok document) ↔
    ∃ value, Json.read source = .ok value ∧ Shaped value

theorem classified_iff {source : Bytes} :
    Classified source ↔ (Misleads source → WellFormed source) := by
  constructor
  · intro classified misleads
    obtain ⟨value, whole, -⟩ := classified.misshapen.mp (decode_shape_iff.mpr misleads)
    exact ⟨value, whole⟩
  · intro ends
    refine ⟨decode_malformed_iff.trans ⟨And.left, ?_⟩, decode_shape_iff.trans ⟨?_, ?_⟩,
      decode_ok_iff⟩
    · intro ill
      exact ⟨ill, fun misleads => ill (ends misleads)⟩
    · intro misleads
      obtain ⟨value, whole⟩ := ends misleads
      obtain ⟨p, first, misshapen⟩ := misleads
      obtain ⟨q, again, -, rfl⟩ := read_eq_ok.mp whole
      cases Except.ok.inj (first.symm.trans again)
      exact ⟨_, whole, misshapen⟩
    · rintro ⟨value, whole, misshapen⟩
      obtain ⟨p, first, -, rfl⟩ := read_eq_ok.mp whole
      exact ⟨p, first, misshapen⟩

-- The bytes of `null x`: the value counts first, and it is no document.
theorem readValue_null_x :
    Json.Reads (Json.readValue Json.maxDepth [0x6E, 0x75, 0x6C, 0x6C, 0x20, 0x78]) .null
      [0x20, 0x78] := Json.readValue_null [0x20, 0x78]

theorem misleads_null_x : Misleads [0x6E, 0x75, 0x6C, 0x6C, 0x20, 0x78] := by
  obtain ⟨shorter, first⟩ := readValue_null_x
  refine ⟨_, first, ?_⟩
  rintro ⟨fields, items, object, -⟩
  cases object

theorem not_wellFormed_null_x : ¬WellFormed [0x6E, 0x75, 0x6C, 0x6C, 0x20, 0x78] := by
  obtain ⟨shorter, first⟩ := readValue_null_x
  rintro ⟨value, whole⟩
  obtain ⟨p, again, ended, -⟩ := read_eq_ok.mp whole
  cases Except.ok.inj (first.symm.trans again)
  cases ended

theorem not_classified_null_x :
    ¬Classified [0x6E, 0x75, 0x6C, 0x6C, 0x20, 0x78] := fun classified =>
  not_wellFormed_null_x (classified_iff.mp classified misleads_null_x)

end PagePress.Document
