import PagePress.Proofs.Json.Legible

namespace PagePress.Json
open Text Chain

theorem readValue_bracket_failed {depth : Nat} {r : Bytes} {e : ReadError}
    (failed : readItems depth (r.length + 1) true [] r (Nat.lt_succ_self _) = .error e) :
    readValue (depth + 1) ('['.toUInt8 :: r) = .error e := by
  rw [readValue_open_items, failed, error_bind]

theorem readValue_brace_failed {depth : Nat} {r : Bytes} {e : ReadError}
    (failed : readFields depth (r.length + 1) true [] r (Nat.lt_succ_self _) = .error e) :
    readValue (depth + 1) ('{'.toUInt8 :: r) = .error e := by
  rw [readValue_open_fields, failed, error_bind]

theorem readValue_bracket_zero (r : Bytes) :
    readValue 0 ('['.toUInt8 :: r) = .error (Fault.tooDeep.lookingAt ('['.toUInt8 :: r)) := by
  have start := skipBlank_cons (b := '['.toUInt8) (by decide) r
  have mark : letter '['.toUInt8 = '[' := by decide
  rw [readValue, match_skipBlank start]
  simp [mark]

theorem readValue_brace_zero (r : Bytes) :
    readValue 0 ('{'.toUInt8 :: r) = .error (Fault.tooDeep.lookingAt ('{'.toUInt8 :: r)) := by
  have start := skipBlank_cons (b := '{'.toUInt8) (by decide) r
  have mark : letter '{'.toUInt8 = '{' := by decide
  rw [readValue, match_skipBlank start]
  simp [mark]

theorem readItems_failed {depth bound : Nat} {first : Bool} (before : List Json) {s r : Bytes}
    {e : ReadError} (less : s.length < bound)
    (next : ∃ within, nextItem first s = .ok (.item r within))
    (failed : readValue depth r = .error e) :
    readItems depth bound first before s less = .error e := by
  obtain ⟨within, next⟩ := next
  rw [readItems, next]
  simp only [ok_bind, failed, error_bind]

theorem readFields_failed {depth bound : Nat} {first : Bool} (before : Fields) {s r k c : Bytes}
    {key : String} {e : ReadError} (less : s.length < bound)
    (next : ∃ within, nextKey first s = .ok (.item r within))
    (readKey : Reads (readString r) key k) (colon : Reads (readColon k) () c)
    (failed : readValue depth c = .error e) :
    readFields depth bound first before s less = .error e := by
  obtain ⟨within, next⟩ := next
  obtain ⟨shortKey, readKey⟩ := readKey
  obtain ⟨shortColon, colon⟩ := colon
  rw [readFields, next]
  simp only [ok_bind, readKey, colon, failed, error_bind]

def RefusesDepth {α : Type} {bound : Nat} (result : Read α bound) : Prop :=
  ∃ e, result = .error e ∧ e.fault = .tooDeep

-- Every value in front of the one that is too deep is read.
mutual
theorem readValue_tooDeep (v : Json) (depth : Nat) (distinct : v.Distinct)
    (deep : depth < v.nesting) (rest : Bytes) :
    RefusesDepth (readValue depth (v.bytes ++ rest)) := by
  match v, depth with
  | .null, _ | .bool _, _ | .num _, _ | .str _, _ => exact absurd deep (Nat.not_lt_zero _)
  | .arr items, 0 =>
    rw [bytes_arr, List.cons_append]
    exact ⟨_, readValue_bracket_zero _, rfl⟩
  | .obj fields, 0 =>
    rw [bytes_obj, List.cons_append]
    exact ⟨_, readValue_brace_zero _, rfl⟩
  | .arr items, depth + 1 =>
    rw [Distinct] at distinct
    rw [nesting] at deep
    rw [bytes_arr, List.cons_append, List.append_assoc]
    obtain ⟨e, failed, fault⟩ := readItems_tooDeep items depth distinct
      (Nat.lt_of_succ_lt_succ deep) _ true [] rest (Nat.lt_succ_self _)
    exact ⟨e, readValue_bracket_failed failed, fault⟩
  | .obj fields, depth + 1 =>
    rw [Distinct] at distinct
    rw [nesting] at deep
    rw [bytes_obj, List.cons_append, List.append_assoc]
    obtain ⟨e, failed, fault⟩ := readFields_tooDeep fields depth distinct.2
      (Nat.lt_of_succ_lt_succ deep) _ true [] rest (Nat.lt_succ_self _)
    exact ⟨e, readValue_brace_failed failed, fault⟩

theorem readItems_tooDeep (items : List Json) (depth : Nat) (distinct : DistinctItems items)
    (deep : depth < nestingItems items) (bound : Nat) (first : Bool) (before : List Json)
    (rest : Bytes) (less : (listed first items ++ ']'.toUInt8 :: rest).length < bound) :
    RefusesDepth
      (readItems depth bound first before (listed first items ++ ']'.toUInt8 :: rest) less) := by
  match items with
  | [] => exact absurd deep (Nat.not_lt_zero _)
  | item :: later =>
    rw [DistinctItems] at distinct
    have next := nextItem_listed ((legible_iff item item.nesting).mpr ⟨Nat.le_refl _, distinct.1⟩)
      first later rest
    by_cases here : depth < item.nesting
    · obtain ⟨e, failed, fault⟩ := readValue_tooDeep item depth distinct.1 here
        (listed false later ++ ']'.toUInt8 :: rest)
      exact ⟨e, readItems_failed before less next failed, fault⟩
    · have behind : depth < nestingItems later := by
        rw [nestingItems] at deep
        omega
      have legible := (legible_iff item depth).mpr ⟨Nat.not_lt.mp here, distinct.1⟩
      have read := readValue_bytes item depth legible (listed false later ++ ']'.toUInt8 :: rest)
        (endsNumber_listed later rest)
      obtain ⟨less', same⟩ := readItems_item before less next read
      rw [same]
      exact readItems_tooDeep later depth distinct.2 behind bound false
        (item.reread :: before) rest less'

theorem readFields_tooDeep (fields : Fields) (depth : Nat) (distinct : DistinctFields fields)
    (deep : depth < nestingFields fields) (bound : Nat) (first : Bool) (before : Fields)
    (rest : Bytes) (less : (named first fields ++ '}'.toUInt8 :: rest).length < bound) :
    RefusesDepth
      (readFields depth bound first before (named first fields ++ '}'.toUInt8 :: rest) less) := by
  match fields with
  | [] => exact absurd deep (Nat.not_lt_zero _)
  | (key, value) :: later =>
    rw [DistinctFields] at distinct
    have next := nextKey_named first key value later rest
    have readKey := readString_stringText key
      (':'.toUInt8 :: (value.bytes ++ (named false later ++ '}'.toUInt8 :: rest)))
    have colon := readColon_colon (value.bytes ++ (named false later ++ '}'.toUInt8 :: rest))
    by_cases here : depth < value.nesting
    · obtain ⟨e, failed, fault⟩ := readValue_tooDeep value depth distinct.1 here
        (named false later ++ '}'.toUInt8 :: rest)
      exact ⟨e, readFields_failed before less next readKey colon failed, fault⟩
    · have behind : depth < nestingFields later := by
        rw [nestingFields] at deep
        omega
      have legible := (legible_iff value depth).mpr ⟨Nat.not_lt.mp here, distinct.1⟩
      have read := readValue_bytes value depth legible (named false later ++ '}'.toUInt8 :: rest)
        (endsNumber_named later rest)
      obtain ⟨less', same⟩ := readFields_item before less next readKey colon read
      rw [same]
      exact readFields_tooDeep later depth distinct.2 behind bound false _ rest less'
end

theorem readValue_alone_tooDeep {v : Json} (distinct : v.Distinct) (deep : maxDepth < v.nesting) :
    RefusesDepth (readValue maxDepth v.bytes) := by
  have refused := readValue_tooDeep v maxDepth distinct deep []
  rwa [List.append_nil] at refused

end PagePress.Json
