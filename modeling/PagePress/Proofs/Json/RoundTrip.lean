import PagePress.Proofs.Json.Strings

namespace PagePress

-- What the text of a number is read as. An integer is read as itself, a float as one that may be
-- next to it, since its digits are not read to the nearest number.
def Number.reread (n : Number) : Number :=
  match Json.readNumber (Text.utf8Chars n.jsonText) with
  | .ok p => p.value
  | .error _ => n

namespace Json
open Text Chain

mutual
def reread : Json → Json
  | .null => .null
  | .bool b => .bool b
  | .num n => .num n.reread
  | .str s => .str s
  | .arr items => .arr (rereadItems items)
  | .obj fields => .obj (rereadFields fields)

def rereadItems : List Json → List Json
  | [] => []
  | item :: rest => reread item :: rereadItems rest

def rereadFields : List (String × Json) → List (String × Json)
  | [] => []
  | (key, value) :: rest => (key, reread value) :: rereadFields rest
end

theorem rereadItems_eq_map (items : List Json) : rereadItems items = items.map reread := by
  induction items with
  | nil => rfl
  | cons item rest ih => rw [rereadItems, ih, List.map_cons]

theorem rereadFields_eq_map (fields : Fields) :
    rereadFields fields = fields.map fun (key, value) => (key, value.reread) := by
  induction fields with
  | nil => rfl
  | cons field rest ih => rw [rereadFields, ih, List.map_cons]

theorem keys_rereadFields (fields : Fields) :
    Fields.keys (rereadFields fields) = Fields.keys fields := by
  rw [rereadFields_eq_map, Fields.keys, Fields.keys, List.map_map]
  rfl

def EndsNumber (rest : Bytes) : Prop :=
  ∀ b ∈ rest.head?, letter b = ',' ∨ letter b = ']' ∨ letter b = '}'

def LegibleNumber (n : Number) : Prop :=
  ∃ b body, utf8Chars n.jsonText = b :: body ∧ (letter b = '-' ∨ (letter b).isDigit) ∧
    ∀ rest, EndsNumber rest → Reads (readNumber (b :: body ++ rest)) n.reread rest

mutual
def Legible : Nat → Json → Prop
  | _, .null | _, .bool _ | _, .str _ => True
  | _, .num n => LegibleNumber n
  | 0, .arr _ | 0, .obj _ => False
  | depth + 1, .arr items => LegibleItems depth items
  | depth + 1, .obj fields => (Fields.keys fields).Nodup ∧ LegibleFields depth fields

def LegibleItems (depth : Nat) : List Json → Prop
  | [] => True
  | item :: rest => Legible depth item ∧ LegibleItems depth rest

def LegibleFields (depth : Nat) : List (String × Json) → Prop
  | [] => True
  | (_, value) :: rest => Legible depth value ∧ LegibleFields depth rest
end

def listed (first : Bool) : List Json → Bytes
  | [] => []
  | item :: rest => (if first then [] else [','.toUInt8]) ++ (item.bytes ++ listed false rest)

def keyed (key : String) (rest : Bytes) : Bytes :=
  '"'.toUInt8 :: (utf8Chars (key.toList.flatMap escapeChar) ++ '"'.toUInt8 :: ':'.toUInt8 :: rest)

def named (first : Bool) : Fields → Bytes
  | [] => []
  | (key, value) :: rest =>
    (if first then [] else [','.toUInt8]) ++ keyed key (value.bytes ++ named false rest)

theorem utf8Chars_comma (first : Bool) :
    utf8Chars (if first then [] else [',']) = if first then [] else [','.toUInt8] := by
  cases first <;> decide

theorem bytes_items (item : Json) (rest : List Json) (first : Bool) :
    utf8Chars ((if first then [] else [',']) ++ joinWith [','] (itemChars (item :: rest))) =
      listed first (item :: rest) := by
  rw [utf8Chars_append, utf8Chars_comma]
  induction rest generalizing item first with
  | nil => simp [itemChars, joinWith, listed, bytes]
  | cons next later ih =>
    have tail := ih next false
    simp only [itemChars, joinWith, listed] at tail ⊢
    rw [utf8Chars_append, utf8Chars_append, List.append_assoc]
    exact congrArg _ (congrArg _ tail)

theorem bytes_arr (items : List Json) :
    (Json.arr items).bytes = '['.toUInt8 :: (listed true items ++ [']'.toUInt8]) := by
  cases items with
  | nil => rfl
  | cons item rest =>
    have inside := bytes_items item rest true
    have left : String.utf8EncodeChar '[' = ['['.toUInt8] := by decide
    have right : utf8Chars [']'] = [']'.toUInt8] := by decide
    rw [if_pos rfl, List.nil_append] at inside
    rw [bytes, chars, List.cons_append, utf8Chars_cons, utf8Chars_append, inside, left, right]
    rfl

theorem bytes_member (key : String) (value : Json) (rest : Bytes) :
    utf8Chars (stringText key ++ ':' :: value.chars) ++ rest = keyed key (value.bytes ++ rest) := by
  have quote : String.utf8EncodeChar '"' = ['"'.toUInt8] := by decide
  have colon : String.utf8EncodeChar ':' = [':'.toUInt8] := by decide
  simp [stringText, keyed, bytes, quote, colon]

theorem bytes_members (key : String) (value : Json) (rest : Fields) (first : Bool) :
    utf8Chars ((if first then [] else [',']) ++
        joinWith [','] (fieldChars ((key, value) :: rest))) =
      named first ((key, value) :: rest) := by
  rw [utf8Chars_append, utf8Chars_comma]
  induction rest generalizing key value first with
  | nil =>
    have member := bytes_member key value []
    rw [List.append_nil] at member
    rw [fieldChars, fieldChars, joinWith, member, named, named]
  | cons next later ih =>
    have tail := ih next.1 next.2 false
    have member := bytes_member key value (named false (next :: later))
    simp only [fieldChars, joinWith, named] at tail member ⊢
    rw [utf8Chars_append, utf8Chars_append, List.append_assoc, ← member]
    exact congrArg _ (congrArg _ tail)

theorem bytes_obj (fields : Fields) :
    (Json.obj fields).bytes = '{'.toUInt8 :: (named true fields ++ ['}'.toUInt8]) := by
  cases fields with
  | nil => rfl
  | cons field rest =>
    have inside := bytes_members field.1 field.2 rest true
    have left : String.utf8EncodeChar '{' = ['{'.toUInt8] := by decide
    have right : utf8Chars ['}'] = ['}'.toUInt8] := by decide
    rw [if_pos rfl, List.nil_append] at inside
    rw [bytes, chars, List.cons_append, utf8Chars_cons, utf8Chars_append, inside, left, right]
    rfl

theorem skipBlank_cons {b : UInt8} (shown : isBlank b = false) (s : Bytes) :
    skipBlank (b :: s) = b :: s := by simp [skipBlank, shown]

theorem readValue_null {depth : Nat} (rest : Bytes) :
    Reads (readValue depth (Json.null.bytes ++ rest)) .null rest := by
  have text : Json.null.bytes = 'n'.toUInt8 :: ['u'.toUInt8, 'l'.toUInt8, 'l'.toUInt8] := by decide
  have start := skipBlank_cons (b := 'n'.toUInt8) (by decide)
    (['u'.toUInt8, 'l'.toUInt8, 'l'.toUInt8] ++ rest)
  rw [text, List.cons_append]
  refine ⟨by simp only [List.length_append, List.length_cons]; omega, ?_⟩
  rw [readValue, match_skipBlank start]
  rfl

theorem readValue_true {depth : Nat} (rest : Bytes) :
    Reads (readValue depth ((Json.bool true).bytes ++ rest)) (.bool true) rest := by
  have text : (Json.bool true).bytes = 't'.toUInt8 :: ['r'.toUInt8, 'u'.toUInt8, 'e'.toUInt8] := by
    decide
  have start := skipBlank_cons (b := 't'.toUInt8) (by decide)
    (['r'.toUInt8, 'u'.toUInt8, 'e'.toUInt8] ++ rest)
  rw [text, List.cons_append]
  refine ⟨by simp only [List.length_append, List.length_cons]; omega, ?_⟩
  rw [readValue, match_skipBlank start]
  rfl

theorem readValue_false {depth : Nat} (rest : Bytes) :
    Reads (readValue depth ((Json.bool false).bytes ++ rest)) (.bool false) rest := by
  have text : (Json.bool false).bytes =
      'f'.toUInt8 :: ['a'.toUInt8, 'l'.toUInt8, 's'.toUInt8, 'e'.toUInt8] := by decide
  have start := skipBlank_cons (b := 'f'.toUInt8) (by decide)
    (['a'.toUInt8, 'l'.toUInt8, 's'.toUInt8, 'e'.toUInt8] ++ rest)
  rw [text, List.cons_append]
  refine ⟨by simp only [List.length_append, List.length_cons]; omega, ?_⟩
  rw [readValue, match_skipBlank start]
  rfl

theorem readValue_quote {depth : Nat} {r rest : Bytes} {text : String}
    (read : Reads (readString r) text rest) :
    Reads (readValue depth ('"'.toUInt8 :: r)) (.str text) rest := by
  obtain ⟨shorter, read⟩ := read
  refine ⟨by simpa using shorter, ?_⟩
  have start := skipBlank_cons (b := '"'.toUInt8) (by decide) r
  have mark : letter '"'.toUInt8 = '"' := by decide
  rw [readValue, match_skipBlank start]
  simp [mark, read]

theorem readValue_open_items (depth : Nat) (r : Bytes) :
    readValue (depth + 1) ('['.toUInt8 :: r) =
      (readItems depth (r.length + 1) true [] r (Nat.lt_succ_self _) >>= fun p =>
        .ok ⟨.arr p.value, p.rest, p.shorter⟩) := by
  have start := skipBlank_cons (b := '['.toUInt8) (by decide) r
  have mark : letter '['.toUInt8 = '[' := by decide
  rw [readValue, match_skipBlank start]
  simp only [mark]
  rfl

theorem readValue_open_fields (depth : Nat) (r : Bytes) :
    readValue (depth + 1) ('{'.toUInt8 :: r) =
      (readFields depth (r.length + 1) true [] r (Nat.lt_succ_self _) >>= fun p =>
        .ok ⟨.obj p.value, p.rest, p.shorter⟩) := by
  have start := skipBlank_cons (b := '{'.toUInt8) (by decide) r
  have mark : letter '{'.toUInt8 = '{' := by decide
  rw [readValue, match_skipBlank start]
  simp only [mark]
  rfl

theorem readValue_bracket {depth : Nat} {r rest : Bytes} {items : List Json}
    (read : Reads (readItems depth (r.length + 1) true [] r (Nat.lt_succ_self _)) items rest) :
    Reads (readValue (depth + 1) ('['.toUInt8 :: r)) (.arr items) rest := by
  obtain ⟨shorter, read⟩ := read
  refine ⟨shorter, ?_⟩
  rw [readValue_open_items, read, ok_bind]

theorem readValue_brace {depth : Nat} {r rest : Bytes} {fields : Fields}
    (read : Reads (readFields depth (r.length + 1) true [] r (Nat.lt_succ_self _)) fields rest) :
    Reads (readValue (depth + 1) ('{'.toUInt8 :: r)) (.obj fields) rest := by
  obtain ⟨shorter, read⟩ := read
  refine ⟨shorter, ?_⟩
  rw [readValue_open_fields, read, ok_bind]

-- A number starts with a minus sign or a digit, which also ends no list and no blanks.
theorem number_start {b : UInt8} (start : letter b = '-' ∨ (letter b).isDigit) :
    isBlank b = false ∧ letter b ≠ ']' := by
  have every : ∀ n < 256, letter (UInt8.ofNat n) = '-' ∨ (letter (UInt8.ofNat n)).isDigit →
      isBlank (UInt8.ofNat n) = false ∧ letter (UInt8.ofNat n) ≠ ']' := by decide +kernel
  have here := every b.toNat b.toNat_lt
  rw [UInt8.ofNat_toNat] at here
  exact here start

theorem readValue_number {depth : Nat} {b : UInt8} {r rest : Bytes} {n : Number}
    (start : letter b = '-' ∨ (letter b).isDigit) (read : Reads (readNumber (b :: r)) n rest) :
    Reads (readValue depth (b :: r)) (.num n) rest := by
  obtain ⟨shorter, read⟩ := read
  refine ⟨shorter, ?_⟩
  have begins := skipBlank_cons (number_start start).1 r
  rw [readValue, match_skipBlank begins]
  split
  case h_7 => simp [start, read]
  all_goals
    rename_i other
    rw [other] at start
    exact absurd start (by decide)

theorem bytes_start {depth : Nat} {v : Json} (legible : Legible depth v) :
    ∃ b t, v.bytes = b :: t ∧ isBlank b = false ∧ letter b ≠ ']' := by
  cases v with
  | null => exact ⟨'n'.toUInt8, _, rfl, by decide, by decide⟩
  | bool value =>
    cases value with
    | true => exact ⟨'t'.toUInt8, _, rfl, by decide, by decide⟩
    | false => exact ⟨'f'.toUInt8, _, rfl, by decide, by decide⟩
  | num n =>
    rw [Legible] at legible
    obtain ⟨b, body, text, start, _⟩ := legible
    exact ⟨b, body, text, number_start start⟩
  | str s => exact ⟨'"'.toUInt8, _, rfl, by decide, by decide⟩
  | arr items => exact ⟨'['.toUInt8, _, bytes_arr items, by decide, by decide⟩
  | obj fields => exact ⟨'{'.toUInt8, _, bytes_obj fields, by decide, by decide⟩

theorem nextItem_end (first : Bool) (rest : Bytes) :
    ∃ within, nextItem first (']'.toUInt8 :: rest) = .ok (.done rest within) := by
  have start := skipBlank_cons (b := ']'.toUInt8) (by decide) rest
  have mark : letter ']'.toUInt8 = ']' := by decide
  refine ⟨by simp only [List.length_cons]; omega, ?_⟩
  rw [nextItem, match_skipBlank start]
  simp [mark]

theorem nextItem_start {b : UInt8} (shown : isBlank b = false) (more : letter b ≠ ']')
    (first : Bool) (t : Bytes) :
    ∃ within, nextItem first ((if first then [] else [','.toUInt8]) ++ b :: t) =
      .ok (.item (b :: t) within) := by
  have inner := skipBlank_cons shown t
  cases first with
  | true =>
    refine ⟨by simp, ?_⟩
    change nextItem true (b :: t) = _
    rw [nextItem, match_skipBlank inner]
    simp [more]
  | false =>
    have start := skipBlank_cons (b := ','.toUInt8) (by decide) (b :: t)
    have mark : letter ','.toUInt8 = ',' := by decide
    refine ⟨by simp, ?_⟩
    change nextItem false (','.toUInt8 :: b :: t) = _
    rw [nextItem, match_skipBlank start, if_neg (by decide), if_neg (by decide), if_pos mark]
    rw [match_skipBlank inner, if_neg more]

theorem nextKey_end (first : Bool) (rest : Bytes) :
    ∃ within, nextKey first ('}'.toUInt8 :: rest) = .ok (.done rest within) := by
  have start := skipBlank_cons (b := '}'.toUInt8) (by decide) rest
  have mark : letter '}'.toUInt8 = '}' := by decide
  refine ⟨by simp, ?_⟩
  rw [nextKey, match_skipBlank start]
  simp [mark]

theorem nextKey_quote (first : Bool) (t : Bytes) :
    ∃ within, nextKey first ((if first then [] else [','.toUInt8]) ++ '"'.toUInt8 :: t) =
      .ok (.item t within) := by
  have inner := skipBlank_cons (b := '"'.toUInt8) (by decide) t
  have quote : letter '"'.toUInt8 = '"' := by decide
  cases first with
  | true =>
    refine ⟨by simp, ?_⟩
    change nextKey true ('"'.toUInt8 :: t) = _
    rw [nextKey, match_skipBlank inner]
    simp [quote]
  | false =>
    have start := skipBlank_cons (b := ','.toUInt8) (by decide) ('"'.toUInt8 :: t)
    have mark : letter ','.toUInt8 = ',' := by decide
    refine ⟨by simp only [List.length_append, List.length_cons]; omega, ?_⟩
    change nextKey false (','.toUInt8 :: '"'.toUInt8 :: t) = _
    rw [nextKey, match_skipBlank start, if_neg (by decide), if_neg (by decide), if_pos mark]
    rw [match_skipBlank inner, if_pos quote]

theorem nextItem_listed {depth : Nat} {item : Json} (legible : Legible depth item) (first : Bool)
    (later : List Json) (rest : Bytes) :
    ∃ within, nextItem first (listed first (item :: later) ++ ']'.toUInt8 :: rest) =
      .ok (.item (item.bytes ++ (listed false later ++ ']'.toUInt8 :: rest)) within) := by
  obtain ⟨b, t, text, shown, more⟩ := bytes_start legible
  have parts : listed first (item :: later) ++ ']'.toUInt8 :: rest =
      (if first then [] else [','.toUInt8]) ++
        (item.bytes ++ (listed false later ++ ']'.toUInt8 :: rest)) := by
    simp [listed]
  have next := nextItem_start shown more first (t ++ (listed false later ++ ']'.toUInt8 :: rest))
  rwa [← List.cons_append, ← text, ← parts] at next

theorem nextKey_named (first : Bool) (key : String) (value : Json) (later : Fields)
    (rest : Bytes) :
    ∃ within, nextKey first (named first ((key, value) :: later) ++ '}'.toUInt8 :: rest) =
      .ok (.item (utf8Chars (key.toList.flatMap escapeChar) ++ '"'.toUInt8 :: ':'.toUInt8 ::
        (value.bytes ++ (named false later ++ '}'.toUInt8 :: rest))) within) := by
  have parts : named first ((key, value) :: later) ++ '}'.toUInt8 :: rest =
      (if first then [] else [','.toUInt8]) ++
        keyed key (value.bytes ++ (named false later ++ '}'.toUInt8 :: rest)) := by
    simp [named, keyed]
  have next := nextKey_quote first (utf8Chars (key.toList.flatMap escapeChar) ++
    '"'.toUInt8 :: ':'.toUInt8 :: (value.bytes ++ (named false later ++ '}'.toUInt8 :: rest)))
  rwa [← keyed, ← parts] at next

theorem readColon_colon (rest : Bytes) : Reads (readColon (':'.toUInt8 :: rest)) () rest := by
  have start := skipBlank_cons (b := ':'.toUInt8) (by decide) rest
  have mark : letter ':'.toUInt8 = ':' := by decide
  refine ⟨by simp, ?_⟩
  rw [readColon, match_skipBlank start]
  simp [mark]

theorem readItems_end {depth bound : Nat} {first : Bool} {before : List Json} (rest : Bytes)
    (less : (']'.toUInt8 :: rest).length < bound) :
    Reads (readItems depth bound first before (']'.toUInt8 :: rest) less) before.reverse rest := by
  obtain ⟨within, next⟩ := nextItem_end first rest
  refine ⟨Nat.lt_of_succ_lt less, ?_⟩
  rw [readItems, next]
  rfl

theorem readItems_item {depth bound : Nat} {first : Bool} (before : List Json) {s r t : Bytes}
    {item : Json} (less : s.length < bound)
    (next : ∃ within, nextItem first s = .ok (.item r within))
    (read : Reads (readValue depth r) item t) :
    ∃ less', readItems depth bound first before s less =
      readItems depth bound false (item :: before) t less' := by
  obtain ⟨within, next⟩ := next
  obtain ⟨shorter, read⟩ := read
  refine ⟨by omega, ?_⟩
  rw [readItems, next]
  simp only [ok_bind, read]

theorem readFields_end {depth bound : Nat} {first : Bool} {before : Fields} (rest : Bytes)
    (less : ('}'.toUInt8 :: rest).length < bound) :
    Reads (readFields depth bound first before ('}'.toUInt8 :: rest) less) before rest := by
  obtain ⟨within, next⟩ := nextKey_end first rest
  refine ⟨Nat.lt_of_succ_lt less, ?_⟩
  rw [readFields, next]
  rfl

theorem readFields_item {depth bound : Nat} {first : Bool} (before : Fields) {s r k c t : Bytes}
    {key : String} {value : Json} (less : s.length < bound)
    (next : ∃ within, nextKey first s = .ok (.item r within))
    (readKey : Reads (readString r) key k) (colon : Reads (readColon k) () c)
    (read : Reads (readValue depth c) value t) :
    ∃ less', readFields depth bound first before s less =
      readFields depth bound false (Fields.insert before key value) t less' := by
  obtain ⟨within, next⟩ := next
  obtain ⟨shortKey, readKey⟩ := readKey
  obtain ⟨shortColon, colon⟩ := colon
  obtain ⟨shorter, read⟩ := read
  refine ⟨by omega, ?_⟩
  conv => lhs; rw [readFields, next]
  simp only [ok_bind, readKey, colon, read]

theorem insert_fresh {fields : Fields} {key : String} (fresh : key ∉ Fields.keys fields)
    (value : Json) : Fields.insert fields key value = fields ++ [(key, value)] := by
  induction fields with
  | nil => rfl
  | cons field rest ih =>
    simp only [Fields.keys, List.map_cons, List.mem_cons, not_or] at fresh
    rw [Fields.insert, if_neg (Ne.symm fresh.1), ih fresh.2, List.cons_append]

theorem endsNumber_cons {b : UInt8} (close : letter b = ',' ∨ letter b = ']' ∨ letter b = '}')
    (rest : Bytes) : EndsNumber (b :: rest) := by
  intro c member
  cases member
  exact close

theorem endsNumber_listed (items : List Json) (rest : Bytes) :
    EndsNumber (listed false items ++ ']'.toUInt8 :: rest) := by
  cases items with
  | nil => exact endsNumber_cons (by decide) _
  | cons item later => exact endsNumber_cons (by decide) _

theorem endsNumber_named (fields : Fields) (rest : Bytes) :
    EndsNumber (named false fields ++ '}'.toUInt8 :: rest) := by
  cases fields with
  | nil => exact endsNumber_cons (by decide) _
  | cons field later => exact endsNumber_cons (by decide) _

mutual
theorem readValue_bytes (v : Json) (depth : Nat) (legible : Legible depth v) (rest : Bytes)
    (ends : EndsNumber rest) : Reads (readValue depth (v.bytes ++ rest)) v.reread rest := by
  match v, depth with
  | .null, _ => exact readValue_null rest
  | .bool true, _ => exact readValue_true rest
  | .bool false, _ => exact readValue_false rest
  | .num n, _ =>
    rw [Legible] at legible
    obtain ⟨b, body, text, start, read⟩ := legible
    have spelled : (Json.num n).bytes = b :: body := text
    rw [spelled]
    exact readValue_number start (read rest ends)
  | .str s, _ =>
    have spelled : (Json.str s).bytes ++ rest =
        '"'.toUInt8 :: (utf8Chars (s.toList.flatMap escapeChar) ++ '"'.toUInt8 :: rest) := by
      have quote : String.utf8EncodeChar '"' = ['"'.toUInt8] := by decide
      simp [bytes, chars, stringText, quote]
    rw [spelled]
    exact readValue_quote (readString_stringText s rest)
  | .arr items, 0 => exact False.elim (by rwa [Legible] at legible)
  | .obj fields, 0 => exact False.elim (by rwa [Legible] at legible)
  | .arr items, depth + 1 =>
    rw [Legible] at legible
    rw [bytes_arr, List.cons_append, List.append_assoc]
    exact readValue_bracket (readItems_listed items depth legible _ true [] rest _)
  | .obj fields, depth + 1 =>
    rw [Legible] at legible
    rw [bytes_obj, List.cons_append, List.append_assoc]
    exact readValue_brace (readFields_named fields depth legible.2 _ true [] rest legible.1 _)

theorem readItems_listed (items : List Json) (depth : Nat) (legible : LegibleItems depth items)
    (bound : Nat) (first : Bool) (before : List Json) (rest : Bytes)
    (less : (listed first items ++ ']'.toUInt8 :: rest).length < bound) :
    Reads (readItems depth bound first before (listed first items ++ ']'.toUInt8 :: rest) less)
      (before.reverse ++ rereadItems items) rest := by
  match items with
  | [] =>
    rw [rereadItems, List.append_nil]
    exact readItems_end rest less
  | item :: later =>
    rw [LegibleItems] at legible
    have next := nextItem_listed legible.1 first later rest
    have read := readValue_bytes item depth legible.1 (listed false later ++ ']'.toUInt8 :: rest)
      (endsNumber_listed later rest)
    obtain ⟨less', same⟩ := readItems_item before less next read
    obtain ⟨shorter, tail⟩ :=
      readItems_listed later depth legible.2 bound false (item.reread :: before) rest less'
    refine ⟨shorter, ?_⟩
    rw [same, tail, rereadItems]
    simp

theorem readFields_named (fields : Fields) (depth : Nat) (legible : LegibleFields depth fields)
    (bound : Nat) (first : Bool) (before : Fields) (rest : Bytes)
    (distinct : (Fields.keys (before ++ fields)).Nodup)
    (less : (named first fields ++ '}'.toUInt8 :: rest).length < bound) :
    Reads (readFields depth bound first before (named first fields ++ '}'.toUInt8 :: rest) less)
      (before ++ rereadFields fields) rest := by
  match fields with
  | [] =>
    rw [rereadFields, List.append_nil]
    exact readFields_end rest less
  | (key, value) :: later =>
    rw [LegibleFields] at legible
    have next := nextKey_named first key value later rest
    have read := readValue_bytes value depth legible.1 (named false later ++ '}'.toUInt8 :: rest)
      (endsNumber_named later rest)
    obtain ⟨less', same⟩ := readFields_item before less next
      (readString_stringText key _) (readColon_colon _) read
    have apart : (Fields.keys before ++ key :: Fields.keys later).Nodup := by
      simpa [Fields.keys] using distinct
    have fresh : key ∉ Fields.keys before := fun member =>
      (List.nodup_append.mp apart).2.2 key member key List.mem_cons_self rfl
    rw [insert_fresh fresh] at same
    obtain ⟨shorter, tail⟩ := readFields_named later depth legible.2 bound false
      (before ++ [(key, value.reread)]) rest (by simpa [Fields.keys] using distinct) less'
    refine ⟨shorter, ?_⟩
    rw [same, tail, rereadFields, List.append_assoc]
    rfl
end

theorem readValue_singleItem {depth : Nat} {b : UInt8} {t rest : Bytes} {item : Json}
    (shown : isBlank b = false) (more : letter b ≠ ']')
    (read : Reads (readValue depth (b :: t)) item (']'.toUInt8 :: rest)) :
    Reads (readValue (depth + 1) ('['.toUInt8 :: b :: t)) (.arr [item]) rest := by
  obtain ⟨less, same⟩ :=
    readItems_item [] (Nat.lt_succ_self _) (nextItem_start shown more true t) read
  obtain ⟨shorter, ended⟩ := @readItems_end depth _ false [item] rest less
  exact readValue_bracket ⟨shorter, same.trans ended⟩

theorem readValue_singleMember {depth : Nat} {key : String} {t rest : Bytes} {value : Json}
    (read : Reads (readValue depth t) value ('}'.toUInt8 :: rest)) :
    Reads (readValue (depth + 1) ('{'.toUInt8 :: keyed key t)) (.obj [(key, value)]) rest := by
  obtain ⟨less, same⟩ := readFields_item [] (Nat.lt_succ_self _)
    (nextKey_quote true _) (readString_stringText key _) (readColon_colon t) read
  obtain ⟨shorter, ended⟩ := @readFields_end depth _ false [(key, value)] rest less
  exact readValue_brace ⟨shorter, same.trans ended⟩

theorem readValue_alone {v : Json} (legible : Legible maxDepth v) :
    Reads (readValue maxDepth v.bytes) v.reread [] := by
  have read := readValue_bytes v maxDepth legible [] (by simp [EndsNumber])
  rwa [List.append_nil] at read

theorem read_bytes {v : Json} (legible : Legible maxDepth v) : read v.bytes = .ok v.reread := by
  obtain ⟨shorter, value⟩ := readValue_alone legible
  rw [read, value]
  rfl

end Json
end PagePress
