import PagePress.Http.MediaType
import PagePress.Text.Split
import PagePress.Text.Utf8

namespace PagePress.Http
open Text

inductive UploadFault where
  -- No form, or one that breaks off.
  | unreadable
  | noFile
  deriving DecidableEq, Repr

def uploadField : String := "file"

def splitAt? (pattern : Bytes) : Bytes → Option (Bytes × Bytes)
  | [] => if pattern.isEmpty then some ([], []) else none
  | b :: r =>
    if pattern.isPrefixOf (b :: r) then some ([], b :: r)
    else (splitAt? pattern r).map fun (before, found) => (b :: before, found)

theorem splitAt?_length {pattern s before found : Bytes}
    (split : splitAt? pattern s = some (before, found)) : found.length ≤ s.length := by
  induction s generalizing before with
  | nil =>
    unfold splitAt? at split
    split at split <;> cases split
    exact Nat.le_refl _
  | cons b r ih =>
    unfold splitAt? at split
    split at split
    · cases split
      exact Nat.le_refl _
    · obtain ⟨⟨before', found'⟩, inner, same⟩ := Option.map_eq_some_iff.mp split
      cases same
      exact Nat.le_succ_of_le (ih inner)

def boundary? (contentType : String) : Option String := do
  let media ← MediaType.read? contentType
  if media.kind = "multipart" ∧ media.subtype = "form-data" then media.parameter "boundary"
  else none

def isValueByte (b : UInt8) : Bool := b == 9 || (0x20 ≤ b && b != 0x7F)

def isBlankByte (b : UInt8) : Bool := b == 0x20 || b == 9

def headersOf : List Bytes → Option (List (String × Bytes))
  | [] => some []
  | line :: rest =>
    let line := if line.getLast? = some 13 then line.dropLast else line
    if line.isEmpty then some []
    else
      let name := line.takeWhile (isTokenChar ∘ letter)
      match line.drop name.length with
      | colon :: value =>
        if letter colon = ':' ∧ !name.isEmpty ∧ value.all isValueByte then
          (headersOf rest).map ((lower (name.map letter), trim isBlankByte value) :: ·)
        else none
      | [] => none

-- What follows the first `name` that begins a word. Where one ends a longer word, what stands
-- right behind it begins a word again.
def afterName? (begins : Bool) : Bytes → Option Bytes
  | 0x6E :: 0x61 :: 0x6D :: 0x65 :: rest => if begins then some rest else afterName? true rest
  | b :: rest => afterName? (isBlankByte b || letter b == ';') rest
  | [] => none

-- Up to a quote without a backslash before it. The others lose theirs.
def quotedText? : Bytes → Option Bytes
  | 0x5C :: 0x22 :: rest => (quotedText? rest).map (0x22 :: ·)
  | 0x22 :: _ => some []
  | b :: rest => (quotedText? rest).map (b :: ·)
  | [] => none

def nameIn? (value : Bytes) : Option Bytes := do
  let behind ← afterName? true value
  let equals :: written := behind.dropWhile isBlankByte | none
  if letter equals = '=' then
    match written.dropWhile isBlankByte with
    | 0x22 :: quoted => quotedText? quoted
    | bare => some (bare.takeWhile fun b => letter b ≠ ';' ∧ letter b ≠ ' ')
  else none

-- Of two headers of one name the later one counts.
def fieldName? (headers : List (String × Bytes)) : Option String := do
  let (_, value) ← headers.reverse.find? (·.1 == "content-disposition")
  ofUtf8? (← nameIn? value)

def maxHeaders : Nat := 32

def headersAt? (s : Bytes) : Option (List (String × Bytes) × Bytes) := do
  let (lines, rest) ← splitAt? [13, 10, 13, 10] s
  let headers ← (headersOf (pieces 10 (lines ++ [13, 10]))).filter (·.length ≤ maxHeaders)
  some (headers, rest.drop 4)

theorem headersAt?_length {s rest : Bytes} {headers : List (String × Bytes)}
    (read : headersAt? s = some (headers, rest)) : rest.length ≤ s.length := by
  simp only [headersAt?, Option.bind_eq_bind, Option.bind_eq_some_iff, Option.some.injEq,
    Prod.mk.injEq] at read
  obtain ⟨_, split, _, _, _, rfl⟩ := read
  have le := splitAt?_length split
  simp only [List.length_drop]
  omega

def lineEnd? (s : Bytes) : Option Bytes :=
  match s.dropWhile isBlankByte with
  | 13 :: 10 :: rest => some rest
  | _ => none

theorem lineEnd?_length {s rest : Bytes} (ended : lineEnd? s = some rest) :
    rest.length < s.length := by
  unfold lineEnd? at ended
  split at ended
  · rename_i dropped
    cases ended
    have le := (List.dropWhile_suffix isBlankByte (l := s)).length_le
    rw [dropped] at le
    simp only [List.length_cons] at le
    omega
  · cases ended

def readParts (mark : Bytes) (s : Bytes) : Except UploadFault Bytes :=
  match s.drop mark.length with
  | 45 :: 45 :: _ => .error .noFile
  | _ =>
    match _ : lineEnd? (s.drop mark.length) with
    | none => .error .unreadable
    | some line =>
      match _ : headersAt? line with
      | none => .error .unreadable
      | some (headers, rest) =>
        match _ : splitAt? (13 :: 10 :: mark) rest with
        | none => .error .unreadable
        | some (data, next) =>
          if fieldName? headers = some uploadField then .ok data
          else readParts mark (next.drop 2)
termination_by s.length
decreasing_by
  have := lineEnd?_length ‹_›
  have := headersAt?_length ‹_›
  have := splitAt?_length ‹_›
  simp only [List.length_drop] at *
  omega

-- What comes before the first boundary is skipped.
def readUpload (contentType : Option String) (limit : Nat) (body : Bytes) :
    Except UploadFault Bytes :=
  match contentType.bind boundary? with
  | none => .error .unreadable
  | some boundary =>
    if limit < body.length then .error .unreadable
    else
      let mark := utf8 ("--" ++ boundary)
      match splitAt? mark body with
      | none => .error .unreadable
      | some (_, found) => readParts mark found

end PagePress.Http
