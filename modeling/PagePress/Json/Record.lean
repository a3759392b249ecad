import PagePress.Json.Reader
import PagePress.Json.Printer
import PagePress.Text.Quoted

namespace PagePress.Json
open Text

-- What is skipped is only followed far enough to find its end: letters of strings and sizes of
-- numbers are not looked at, and nesting is not limited.
def skipStringOnto (bound : Nat) (s : Bytes) (less : s.length < bound) : Read Unit bound :=
  match s, less with
  | [], _ => .error (Fault.endInString.before [])
  | b :: r, less =>
    if letter b = '"' then .ok ⟨(), r, length_tail_lt less⟩
    else if letter b = '\\' then
      match r, less with
      | [], _ => .error (Fault.endInString.before [])
      | e :: t, less =>
        if letter e = 'u' then do
          let p ← readHex t
          skipStringOnto bound p.rest (by
            have := p.shorter; simp only [List.length_cons] at less; omega)
        else if letter e ∈ ['"', '\\', '/', 'b', 'f', 'n', 'r', 't'] then
          skipStringOnto bound t (length_tail_lt (length_tail_lt less))
        else .error (Fault.invalidEscape.before t)
    else if b < 0x20 then .error (Fault.controlCharacter.before (b :: r))
    else skipStringOnto bound r (length_tail_lt less)
termination_by s.length
decreasing_by
  · have := p.shorter; simp only [List.length_cons]; omega
  · simp only [List.length_cons]; omega
  · simp only [List.length_cons]; omega

def skipString (s : Bytes) : Read Unit (s.length + 1) :=
  skipStringOnto (s.length + 1) s (Nat.lt_add_one _)

-- Like `readNumber`, but every end of the text is an invalid number.
def skipNumber (s : Bytes) : Read Unit s.length :=
  let ended (e : ReadError) : ReadError :=
    if e.fault = .endInValue then { e with fault := .invalidNumber } else e
  let body := if s.head?.map letter == some '-' then s.drop 1 else s
  have le : body.length ≤ s.length := pastSign_le s
  Except.mapError ended do
    let whole ← readWhole body
    let part ← readPart whole.rest
    let power ← readPower false part.rest
    .ok ⟨(), power.rest, pastPower_lt le whole part power⟩

inductive Opening where
  | scalar
  | list
  | object
  deriving DecidableEq

def skipOpening (s : Bytes) : Read Opening s.length :=
  match h : skipBlank s with
  | [] => .error (Fault.endInValue.lookingAt [])
  | b :: r =>
    have le : r.length + 1 ≤ s.length := skipBlank_lt h
    match letter b with
    | 'n' => do
      let ⟨rest, less⟩ ← readWord ['u', 'l', 'l'] r
      .ok ⟨.scalar, rest, word_lt le less⟩
    | 't' => do
      let ⟨rest, less⟩ ← readWord ['r', 'u', 'e'] r
      .ok ⟨.scalar, rest, word_lt le less⟩
    | 'f' => do
      let ⟨rest, less⟩ ← readWord ['a', 'l', 's', 'e'] r
      .ok ⟨.scalar, rest, word_lt le less⟩
    | '"' => do
      let p ← skipString r
      .ok ⟨.scalar, p.rest, p.behind_lt le⟩
    | '[' => .ok ⟨.list, r, le⟩
    | '{' => .ok ⟨.object, r, le⟩
    | c =>
      if c = '-' ∨ c.isDigit then do
        let p ← skipNumber (b :: r)
        .ok ⟨.scalar, p.rest, p.behind_lt le⟩
      else .error (Fault.expectedValue.lookingAt (b :: r))

def skipKey (s : Bytes) : Read Unit s.length :=
  match h : skipBlank s with
  | [] => .error (Fault.endInObject.lookingAt [])
  | b :: r => do
    if letter b = '"' then
      let key ← skipString r
      let colon ← readColon key.rest
      .ok ⟨(), colon.rest, by
        have := skipBlank_lt h
        have := key.shorter
        have := colon.shorter
        omega⟩
    else .error (Fault.keyNotString.lookingAt (b :: r))

-- Inside the containers of the stack, true for an object. `fresh` right behind an opening bracket.
def skipInside (bound : Nat) (fresh : Bool) (stack : List Bool) (s : Bytes)
    (less : s.length < bound) : Read Unit bound :=
  match stack with
  | [] => .ok ⟨(), s, less⟩
  | isObject :: outer =>
    let member (r : Bytes) : Read Opening (r.length) := do
      if isObject then
        let key ← skipKey r
        let p ← skipOpening key.rest
        .ok (p.widen (Nat.le_of_lt key.shorter))
      else skipOpening r
    let enter (opening : Opening) : Bool × List Bool :=
      match opening with
      | .scalar => (false, isObject :: outer)
      | .list => (true, false :: isObject :: outer)
      | .object => (true, true :: isObject :: outer)
    match h : skipBlank s with
    | [] => .error ((if isObject then Fault.endInObject else Fault.endInList).lookingAt [])
    | b :: r =>
      have le : r.length + 1 ≤ s.length := skipBlank_lt h
      if !fresh ∧ letter b = ',' then do
        let p ← member r
        skipInside bound (enter p.value).1 (enter p.value).2 p.rest (by have := p.shorter; omega)
      else if letter b = (if isObject then '}' else ']') then
        skipInside bound false outer r (by omega)
      else if fresh then do
        let p ← member (b :: r)
        skipInside bound (enter p.value).1 (enter p.value).2 p.rest
          (by have := p.shorter; simp only [List.length_cons] at this; omega)
      else
        .error ((if isObject then Fault.expectedObjectEnd else Fault.expectedListEnd).lookingAt
          (b :: r))
termination_by s.length
decreasing_by
  · have := p.shorter; omega
  · omega
  · have := p.shorter; simp only [List.length_cons] at this; omega

def skipValue (s : Bytes) : Read Unit s.length := do
  let p ← skipOpening s
  match p.value with
  | .scalar => .ok ⟨(), p.rest, p.shorter⟩
  | .list => skipInside s.length true [false] p.rest p.shorter
  | .object => skipInside s.length true [true] p.rest p.shorter

inductive FieldKind where
  | text
  | word16
  | members
  -- Null is the same as nothing.
  | optional
  deriving DecidableEq

structure FieldShape where
  name : String
  kind : FieldKind
  -- May be left out, also at the end of a list.
  defaulted : Bool

structure RecordShape where
  name : String
  fields : List FieldShape

def numberName : Number → String
  | .int n _ => "integer `" ++ String.ofList (Numeral.intText n) ++ "`"
  | .float x => "floating point `" ++ String.ofList (Numeral.jsonText x) ++ "`"

-- A value of the wrong type is read to its end if it is a scalar.
def refuse (expected : String) (s : Bytes) : ReadError :=
  let reject (found : String) (rest : Bytes) : ReadError :=
    (Fault.wrongType found expected).before rest
  let ofWord (cs : List Char) (found : String) (r : Bytes) : ReadError :=
    match readWord cs r with
    | .ok p => reject found p.val
    | .error e => e
  match s with
  | [] => Fault.expectedValue.lookingAt []
  | b :: r =>
    match letter b with
    | 'n' => ofWord ['u', 'l', 'l'] "null" r
    | 't' => ofWord ['r', 'u', 'e'] "boolean `true`" r
    | 'f' => ofWord ['a', 'l', 's', 'e'] "boolean `false`" r
    | '"' =>
      match readString r with
      | .ok p => reject ("string " ++ quoted p.value) p.rest
      | .error e => e
    | '[' => reject "sequence" (b :: r)
    | '{' => reject "map" (b :: r)
    | c =>
      if c = '-' ∨ c.isDigit then
        match readNumber (b :: r) with
        | .ok p => reject (numberName p.value) p.rest
        | .error e => e
      else Fault.expectedValue.lookingAt (b :: r)

def readWord16 (s : Bytes) : Read Json s.length := do
  let p ← readNumber s
  match p.value with
  | .int n _ =>
    if 0 ≤ n ∧ n < 2 ^ 16 then .ok ⟨.num p.value, p.rest, p.shorter⟩
    else .error ((Fault.wrongValue (numberName p.value) "u16").before p.rest)
  | .float _ => .error ((Fault.wrongType (numberName p.value) "u16").before p.rest)

def readField (kind : FieldKind) (depth : Nat) (s : Bytes) : Read Json s.length :=
  match h : skipBlank s with
  | [] => .error (Fault.endInValue.lookingAt [])
  | b :: r =>
    have le : (b :: r).length ≤ s.length := skipBlank_lt h
    let open? (yes : Bool) (expected : String) (read : Read Json (b :: r).length) :
        Read Json s.length := do
      if yes then
        let p ← read
        .ok (p.widen le)
      else .error (refuse expected (b :: r))
    match kind with
    | .text => open? (letter b = '"') "a string" (readValue depth (b :: r))
    | .members => open? (letter b = '{') "a map" (readValue depth (b :: r))
    | .word16 => open? (letter b = '-' ∨ isDigit b) "u16" (readWord16 (b :: r))
    | .optional => open? true "" (readValue depth (b :: r))

abbrev Given := List (String × Json)

def checkMissing (shape : RecordShape) (given : Given) (rest : Bytes) : Except ReadError Unit :=
  match shape.fields.find? fun f =>
      !f.defaulted && f.kind != .optional && (Fields.get? given f.name).isNone with
  | some f => .error ((Fault.missingField f.name).before rest)
  | none => .ok ()

-- Where a repeated key is reported: behind the brace, if one follows.
def pastBrace (s : Bytes) : Bytes :=
  match skipBlank s with
  | [] => []
  | b :: r => if letter b = '}' then r else b :: r

theorem member_lt {α : Type} {s rest : Bytes} {bound : Nat} (less : s.length < bound)
    (within : rest.length < s.length) (key : Parsed String (rest.length + 1))
    (colon : Parsed Unit key.rest.length) (p : Parsed α colon.rest.length) :
    p.rest.length < bound := by
  have := key.shorter
  have := colon.shorter
  have := p.shorter
  omega

def readMembers (shape : RecordShape) (depth bound : Nat) (first : Bool) (given : Given)
    (s : Bytes) (less : s.length < bound) : Read Given bound := do
  match ← nextKey first s with
  | .done rest within =>
    checkMissing shape given rest
    .ok ⟨given, rest, Nat.lt_trans within less⟩
  | .item rest within =>
    let key ← readString rest
    match shape.fields.find? (·.name == key.value) with
    | some f =>
      if (Fields.get? given f.name).isSome then
        .error ((Fault.repeatedField f.name).before (pastBrace key.rest))
      else
        let colon ← readColon key.rest
        let p ← readField f.kind depth colon.rest
        readMembers shape depth bound false (given ++ [(f.name, p.value)]) p.rest
          (member_lt less within key colon p)
    | none =>
      let colon ← readColon key.rest
      let p ← skipValue colon.rest
      readMembers shape depth bound false given p.rest (member_lt less within key colon p)
termination_by s.length
decreasing_by
  · have := key.shorter; have := colon.shorter; have := p.shorter; omega
  · have := key.shorter; have := colon.shorter; have := p.shorter; omega

def RecordShape.expected (shape : RecordShape) : String :=
  let n := shape.fields.length
  shape.name ++ " with " ++ toString n ++ (if n = 1 then " element" else " elements")

def readListEnd (s : Bytes) : Except ReadError Bytes :=
  match skipBlank s with
  | [] => .error (Fault.endInList.lookingAt [])
  | b :: r =>
    if letter b = ']' then .ok r
    else if letter b = ',' then
      match skipBlank r with
      | c :: t =>
        .error ((if letter c = ']' then Fault.trailingComma else Fault.trailingCharacters).lookingAt
          (c :: t))
      | [] => .error (Fault.trailingCharacters.lookingAt [])
    else .error (Fault.trailingCharacters.lookingAt (b :: r))

-- The fields of a list, in order; it may end where all that is left has a default.
def readRow (shape : RecordShape) (depth : Nat) (given : Given) (fields : List FieldShape)
    (s : Bytes) : Except ReadError (Given × Bytes) := do
  match fields with
  | [] => .ok (given, ← readListEnd s)
  | f :: later =>
    match ← nextItem given.isEmpty s with
    | .done rest _ =>
      if fields.all (·.defaulted) then .ok (given, rest)
      else .error ((Fault.wrongLength given.length shape.expected).before rest)
    | .item rest _ =>
      let p ← readField f.kind depth rest
      readRow shape depth (given ++ [(f.name, p.value)]) later p.rest

def readRecord (shape : RecordShape) (s : Bytes) : Except ReadError Given := do
  match skipBlank s with
  | [] => .error (Fault.endInValue.lookingAt [])
  | b :: r =>
    match letter b with
    | '[' =>
      let (given, rest) ← readRow shape (maxDepth - 1) [] shape.fields r
      readEnd rest
      .ok given
    | '{' =>
      let p ← readMembers shape (maxDepth - 1) (r.length + 1) true [] r (Nat.lt_succ_self _)
      readEnd p.rest
      .ok p.value
    | _ => .error (refuse shape.name (b :: r))

end PagePress.Json
