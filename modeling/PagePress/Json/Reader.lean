import PagePress.Json.Value
import PagePress.Json.Fault
import PagePress.Numeral.Read

namespace PagePress.Json
open Text

structure Parsed (α : Type) (bound : Nat) where
  value : α
  rest : Bytes
  shorter : rest.length < bound

abbrev Read (α : Type) (bound : Nat) := Except ReadError (Parsed α bound)

def Parsed.widen {α : Type} {bound wider : Nat} (p : Parsed α bound) (le : bound ≤ wider) :
    Parsed α wider := ⟨p.value, p.rest, Nat.lt_of_lt_of_le p.shorter le⟩

def isBlank (b : UInt8) : Bool := b == 0x20 || b == 0x0A || b == 0x09 || b == 0x0D

def skipBlank (s : Bytes) : Bytes := s.dropWhile isBlank

theorem skipBlank_le (s : Bytes) : (skipBlank s).length ≤ s.length :=
  (List.dropWhile_sublist isBlank).length_le

theorem skipBlank_lt {s r : Bytes} {b : UInt8} (h : skipBlank s = b :: r) :
    r.length + 1 ≤ s.length := by
  have le := skipBlank_le s
  rwa [h, List.length_cons] at le

-- Readers look at what is behind the blanks; the proof that it is there keeps them from a rewrite.
theorem match_skipBlank {α : Type} {s r : Bytes} {b : UInt8} (start : skipBlank s = b :: r)
    (stop : skipBlank s = [] → α) (go : ∀ b r, skipBlank s = b :: r → α) :
    (match h : skipBlank s with
      | [] => stop h
      | b :: r => go b r h) = go b r start := by
  split
  · rename_i empty
    cases start.symm.trans empty
  · rename_i found
    cases start.symm.trans found
    rfl

def isDigit (b : UInt8) : Bool := (letter b).isDigit

theorem word_lt {s r rest : Bytes} (behind : r.length + 1 ≤ s.length)
    (le : rest.length ≤ r.length) : rest.length < s.length :=
  Nat.lt_of_le_of_lt le behind

theorem Parsed.behind_lt {α : Type} {s r : Bytes} (behind : r.length + 1 ≤ s.length)
    (p : Parsed α (r.length + 1)) : p.rest.length < s.length :=
  Nat.lt_of_lt_of_le p.shorter behind

def readWord : List Char → (s : Bytes) → Except ReadError { r : Bytes // r.length ≤ s.length }
  | [], s => .ok ⟨s, Nat.le_refl _⟩
  | _ :: _, [] => .error (Fault.endInValue.before [])
  | c :: cs, b :: s =>
    if letter b = c then do
      let ⟨r, le⟩ ← readWord cs s
      .ok ⟨r, Nat.le_trans le (by simp)⟩
    else .error (Fault.expectedWord.before s)

def hexDigit? (b : UInt8) : Option Nat := Numeral.digitOf? 16 (letter b)

def readHex (s : Bytes) : Read Nat s.length :=
  match s with
  | a :: b :: c :: d :: r =>
    match hexDigit? a, hexDigit? b, hexDigit? c, hexDigit? d with
    | some a, some b, some c, some d => .ok ⟨((a * 16 + b) * 16 + c) * 16 + d, r, by simp; omega⟩
    | _, _, _, _ => .error (Fault.invalidEscape.before r)
  | _ => .error (Fault.endInString.before [])

def highSurrogate (n : Nat) : Bool := 0xD800 ≤ n && n ≤ 0xDBFF
def lowSurrogate (n : Nat) : Bool := 0xDC00 ≤ n && n ≤ 0xDFFF

def readMark (mark : Char) (s : Bytes) : Read Unit s.length :=
  match s with
  | [] => .error (Fault.endInString.before [])
  | b :: r =>
    if letter b = mark then .ok ⟨(), r, by simp⟩ else .error (Fault.unfinishedEscape.before r)

def readUnicode (s : Bytes) : Read Char s.length := do
  let p ← readHex s
  if lowSurrogate p.value then .error (Fault.loneSurrogate.before p.rest)
  else if highSurrogate p.value then do
    let backslash ← readMark '\\' p.rest
    let mark ← readMark 'u' backslash.rest
    let q ← readHex mark.rest
    if lowSurrogate q.value then
      let n := (p.value - 0xD800) * 0x400 + (q.value - 0xDC00) + 0x10000
      .ok ⟨Char.ofNat n, q.rest, by
        have := p.shorter
        have := backslash.shorter
        have := mark.shorter
        have := q.shorter
        omega⟩
    else .error (Fault.loneSurrogate.before q.rest)
  else .ok ⟨Char.ofNat p.value, p.rest, p.shorter⟩

def readEscape (s : Bytes) : Read Char s.length :=
  match s with
  | [] => .error (Fault.endInString.before [])
  | b :: r =>
    let plain (c : Char) : Read Char (b :: r).length := .ok ⟨c, r, by simp⟩
    match letter b with
    | '"' => plain '"'
    | '\\' => plain '\\'
    | '/' => plain '/'
    | 'b' => plain '\x08'
    | 'f' => plain '\x0c'
    | 'n' => plain '\n'
    | 'r' => plain '\r'
    | 't' => plain '\t'
    | 'u' => do
      let p ← readUnicode r
      .ok (p.widen (by simp))
    | _ => .error (Fault.invalidEscape.before r)

def isPlain (b : UInt8) : Bool := letter b != '"' && letter b != '\\' && 0x20 ≤ b

def splitPlain (s : Bytes) : Bytes × Bytes := (s.takeWhile isPlain, s.dropWhile isPlain)

theorem splitPlain_le (s : Bytes) : (splitPlain s).2.length ≤ s.length :=
  (List.dropWhile_sublist isPlain).length_le

-- The text that the bytes of a string are. Where they are none, the fault is as far before what
-- follows the string as these bytes go on from there.
def textOf (bytes rest : Bytes) : Except ReadError String :=
  match Text.decodeRun bytes with
  | (cs, []) => .ok (String.ofList cs)
  | (_, broken) => .error ⟨.invalidCharacter, broken.length + rest.length⟩

-- Behind the opening quote; `before` holds the bytes of what was read, last byte first.
def readStringOnto (bound : Nat) (before : Bytes) (s : Bytes) (less : s.length < bound) :
    Read String bound :=
  match splitPlain s, splitPlain_le s with
  | (_, []), _ => .error (Fault.endInString.before [])
  | (run, b :: r), le => do
    if letter b = '"' then
      let text ← textOf (before.reverse ++ run) r
      .ok ⟨text, r, by simp only [List.length_cons] at le; omega⟩
    else if letter b = '\\' then
      let p ← readEscape r
      let escaped := String.utf8EncodeChar p.value
      readStringOnto bound (escaped.reverse ++ (run.reverse ++ before)) p.rest
        (by have := p.shorter; simp at le; omega)
    else .error (Fault.controlCharacter.before r)
termination_by s.length
decreasing_by
  have := p.shorter
  simp at le
  omega

def readString (s : Bytes) : Read String (s.length + 1) :=
  readStringOnto (s.length + 1) [] s (Nat.lt_succ_self _)

def splitDigits (s : Bytes) : List Char × Bytes :=
  ((s.takeWhile isDigit).map letter, s.dropWhile isDigit)

theorem splitDigits_le (s : Bytes) : (splitDigits s).2.length ≤ s.length :=
  (List.dropWhile_sublist isDigit).length_le

-- The digits before the point: a zero stands alone.
def readWhole (s : Bytes) : Read (List Char) s.length :=
  match s with
  | [] => .error (Fault.endInValue.before [])
  | b :: r =>
    if letter b = '0' then
      if r.head?.any isDigit then .error (Fault.invalidNumber.lookingAt r)
      else .ok ⟨['0'], r, by simp⟩
    else if isDigit b then
      .ok ⟨letter b :: (splitDigits r).1, (splitDigits r).2, Nat.lt_succ_of_le (splitDigits_le r)⟩
    else .error (Fault.invalidNumber.before r)

def readPart (s : Bytes) : Read (Option (List Char)) (s.length + 1) :=
  match s with
  | b :: r =>
    if letter b = '.' then
      match splitDigits r, splitDigits_le r with
      | ([], rest), _ =>
        .error ((if rest = [] then Fault.endInValue else Fault.invalidNumber).lookingAt rest)
      | (digits, rest), le => .ok ⟨some digits, rest, by simp at le ⊢; omega⟩
    else .ok ⟨none, b :: r, Nat.lt_succ_self _⟩
  | [] => .ok ⟨none, [], Nat.lt_succ_self _⟩

def maxPower : Nat := 2147483647

-- The digits behind the one that makes the number larger than the largest exponent.
def pastMaxPower? (n : Nat) : List Char → Option (List Char)
  | [] => none
  | c :: cs =>
    let n := 10 * n + Numeral.digitsValue [c]
    if maxPower < n then some cs else pastMaxPower? n cs

-- An `e`, a sign if there is one, and at least one digit; or nothing. Where the power may not be
-- too large, reading stops at the digit that makes it so.
def readPower (limited : Bool) (s : Bytes) : Read (Option Int) (s.length + 1) :=
  match s with
  | b :: r =>
    if letter b = 'e' ∨ letter b = 'E' then
      let negative := r.head?.map letter == some '-'
      let signed := negative || r.head?.map letter == some '+'
      let body := if signed then r.drop 1 else r
      match body with
      | [] => .error (Fault.endInValue.before [])
      | d :: t =>
        match splitDigits body, splitDigits_le body with
        | ([], _), _ => .error (Fault.invalidNumber.before t)
        | (digits, rest), le =>
          match (if limited ∧ !negative then pastMaxPower? 0 digits else none) with
          | some later => .error ⟨.numberOutOfRange, later.length + rest.length⟩
          | none =>
            let e : Int := Numeral.digitsValue digits
            .ok ⟨some (if negative then -e else e), rest, by
              have : body.length ≤ r.length := by
                simp only [body]; split <;> simp
              simp only [List.length_cons] at le ⊢
              omega⟩
    else .ok ⟨none, b :: r, Nat.lt_succ_self _⟩
  | [] => .ok ⟨none, [], Nat.lt_succ_self _⟩

-- Digits are taken on as long as the number has 64 bits; the first that does not fit is left with
-- those behind it.
def takeDigits (n : Nat) : List Char → Nat × List Char
  | [] => (n, [])
  | c :: cs =>
    let longer := 10 * n + Numeral.digitsValue [c]
    if longer < 2 ^ 64 then takeDigits longer cs else (n, c :: cs)

def maxTenPower : Nat := 308

def tenPower (k : Nat) : Binary64 := Binary64.ofInt (10 ^ k)

-- x · 10 ^ e by way of one product or quotient of two numbers, each rounded by then, so that it
-- need not be the nearest number. A power that is too small is worked off in several quotients.
def shifted? (x : Binary64) (e : Int) : Option Binary64 :=
  if e.natAbs ≤ maxTenPower then
    if 0 ≤ e then x.times? (tenPower e.natAbs) else x.over? (tenPower e.natAbs)
  else if x.isZero then some x
  else if 0 ≤ e then none
  else (x.over? (tenPower maxTenPower)).bind (shifted? · (e + maxTenPower))
termination_by (-e).toNat
decreasing_by simp only [maxTenPower]; omega

-- Of the digits before the point those that are not taken on count as zeros, of those behind it
-- they are dropped.
def floatOf? (negative : Bool) (whole part : List Char) (power : Int) : Option Binary64 :=
  let (n, zeros) := takeDigits 0 whole
  let (n, dropped) := takeDigits n part
  (shifted? (Binary64.ofInt n) (power + zeros.length + dropped.length - part.length)).map
    (·.withSign negative)

-- The negative zero is no integer.
def integerOf? (negative : Bool) (whole : List Char) : Option Number :=
  let n := Numeral.digitsValue whole
  if negative then (if n = 0 then none else Number.ofInt? (-(n : Int))) else Number.ofInt? n

def numberOf? (negative : Bool) (whole : List Char) (part : Option (List Char))
    (power : Option Int) : Option Number :=
  (if part.isSome ∨ power.isSome then none else integerOf? negative whole) <|>
    (floatOf? negative whole (part.getD []) (power.getD 0)).map .float

theorem pastSign_le (s : Bytes) :
    (if s.head?.map letter == some '-' then s.drop 1 else s).length ≤ s.length := by
  split <;> simp

theorem pastPower_lt {s body : Bytes} (le : body.length ≤ s.length)
    (whole : Parsed (List Char) body.length)
    (part : Parsed (Option (List Char)) (whole.rest.length + 1))
    (power : Parsed (Option Int) (part.rest.length + 1)) : power.rest.length < s.length := by
  have := whole.shorter
  have := part.shorter
  have := power.shorter
  omega

def readNumber (s : Bytes) : Read Number s.length := do
  let negative := s.head?.map letter == some '-'
  let body := if negative then s.drop 1 else s
  have le : body.length ≤ s.length := pastSign_le s
  let whole ← readWhole body
  let part ← readPart whole.rest
  let power ← readPower ((whole.value ++ part.value.getD []).any (· ≠ '0')) part.rest
  match numberOf? negative whole.value part.value power.value with
  | some n => .ok ⟨n, power.rest, pastPower_lt le whole part power⟩
  | none => .error (Fault.numberOutOfRange.before power.rest)

def readColon (s : Bytes) : Read Unit s.length :=
  match h : skipBlank s with
  | [] => .error (Fault.endInObject.lookingAt [])
  | b :: r =>
    if letter b = ':' then
      .ok ⟨(), r, skipBlank_lt h⟩
    else .error (Fault.expectedColon.lookingAt (b :: r))

-- Whether a list goes on, seen from behind its bracket or an item: the bytes of the next item, or
-- those behind the closing bracket.
inductive Next (bound : Nat) where
  | item (rest : Bytes) (within : rest.length < bound)
  | done (rest : Bytes) (within : rest.length < bound)

def nextItem (first : Bool) (s : Bytes) : Except ReadError (Next (s.length + 1)) :=
  match h : skipBlank s with
  | [] => .error (Fault.endInList.lookingAt [])
  | b :: r =>
    have le : r.length + 1 ≤ s.length := skipBlank_lt h
    if letter b = ']' then .ok (.done r (by omega))
    else if first then .ok (.item (b :: r) (by simp only [List.length_cons]; omega))
    else if letter b = ',' then
      match h : skipBlank r with
      | [] => .error (Fault.endInValue.lookingAt [])
      | c :: t =>
        if letter c = ']' then .error (Fault.trailingComma.lookingAt (c :: t))
        else .ok (.item (c :: t) (by have := skipBlank_lt h; simp only [List.length_cons]; omega))
    else .error (Fault.expectedListEnd.lookingAt (b :: r))

def nextKey (first : Bool) (s : Bytes) : Except ReadError (Next s.length) :=
  match h : skipBlank s with
  | [] => .error (Fault.endInObject.lookingAt [])
  | b :: r =>
    have le : r.length + 1 ≤ s.length := skipBlank_lt h
    if letter b = '}' then .ok (.done r (by omega))
    else if first then
      if letter b = '"' then .ok (.item r (by omega))
      else .error (Fault.keyNotString.lookingAt (b :: r))
    else if letter b = ',' then
      match h : skipBlank r with
      | [] => .error (Fault.endInValue.lookingAt [])
      | c :: t =>
        if letter c = '"' then
          .ok (.item t (by have := skipBlank_lt h; omega))
        else if letter c = '}' then .error (Fault.trailingComma.lookingAt (c :: t))
        else .error (Fault.keyNotString.lookingAt (c :: t))
    else .error (Fault.expectedObjectEnd.lookingAt (b :: r))

-- `depth` containers may still be opened.
mutual
def readValue (depth : Nat) (s : Bytes) : Read Json s.length :=
  match h : skipBlank s with
  | [] => .error (Fault.endInValue.lookingAt [])
  | b :: r =>
    have le : r.length + 1 ≤ s.length := skipBlank_lt h
    match letter b with
    | 'n' => do
      let ⟨rest, less⟩ ← readWord ['u', 'l', 'l'] r
      .ok ⟨.null, rest, word_lt le less⟩
    | 't' => do
      let ⟨rest, less⟩ ← readWord ['r', 'u', 'e'] r
      .ok ⟨.bool true, rest, word_lt le less⟩
    | 'f' => do
      let ⟨rest, less⟩ ← readWord ['a', 'l', 's', 'e'] r
      .ok ⟨.bool false, rest, word_lt le less⟩
    | '"' => do
      let p ← readString r
      .ok ⟨.str p.value, p.rest, p.behind_lt le⟩
    | '[' =>
      match depth with
      | 0 => .error (Fault.tooDeep.lookingAt (b :: r))
      | depth + 1 => do
        let p ← readItems depth s.length true [] r (by omega)
        .ok ⟨.arr p.value, p.rest, p.shorter⟩
    | '{' =>
      match depth with
      | 0 => .error (Fault.tooDeep.lookingAt (b :: r))
      | depth + 1 => do
        let p ← readFields depth s.length true [] r (by omega)
        .ok ⟨.obj p.value, p.rest, p.shorter⟩
    | c =>
      if c = '-' ∨ c.isDigit then do
        let p ← readNumber (b :: r)
        .ok ⟨.num p.value, p.rest, p.behind_lt le⟩
      else .error (Fault.expectedValue.lookingAt (b :: r))
termination_by (s.length, 0)

def readItems (depth bound : Nat) (first : Bool) (before : List Json) (s : Bytes)
    (less : s.length < bound) : Read (List Json) bound := do
  match ← nextItem first s with
  | .done rest within => .ok ⟨before.reverse, rest, by omega⟩
  | .item rest within =>
    let p ← readValue depth rest
    readItems depth bound false (p.value :: before) p.rest (by have := p.shorter; omega)
termination_by (s.length, 1)
decreasing_by
  · omega
  · have := p.shorter; omega

def readFields (depth bound : Nat) (first : Bool) (before : Fields) (s : Bytes)
    (less : s.length < bound) : Read Fields bound := do
  match ← nextKey first s with
  | .done rest within => .ok ⟨before, rest, by omega⟩
  | .item rest within =>
    let key ← readString rest
    let colon ← readColon key.rest
    let p ← readValue depth colon.rest
    readFields depth bound false (before.insert key.value p.value) p.rest
      (by have := key.shorter; have := colon.shorter; have := p.shorter; omega)
termination_by (s.length, 1)
decreasing_by
  · have := key.shorter; have := colon.shorter; omega
  · have := key.shorter; have := colon.shorter; have := p.shorter; omega
end

def maxDepth : Nat := 127

def readEnd (s : Bytes) : Except ReadError Unit :=
  match skipBlank s with
  | [] => .ok ()
  | rest => .error (Fault.trailingCharacters.lookingAt rest)

def read (s : Bytes) : Except ReadError Json := do
  let p ← readValue maxDepth s
  readEnd p.rest
  .ok p.value

end PagePress.Json
