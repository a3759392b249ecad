namespace PagePress

abbrev Bytes := List UInt8

namespace Text

def utf8Chars (cs : List Char) : Bytes := cs.flatMap String.utf8EncodeChar

def utf8 (s : String) : Bytes := utf8Chars s.toList

-- The character with the number of a byte: in UTF-8 the byte itself while it is below 0x80.
def letter (b : UInt8) : Char := Char.ofNat b.toNat

theorem length_tail_lt {b : UInt8} {r : Bytes} {bound : Nat} (less : (b :: r).length < bound) :
    r.length < bound :=
  Nat.lt_of_succ_lt less

def continuation? (b : UInt8) : Option Nat :=
  if 0x80 ≤ b ∧ b < 0xC0 then some (b.toNat - 0x80) else none

-- A scalar in its only form: not below the least one that needs so many bytes, and no surrogate.
def scalar? (least n : Nat) : Option Char :=
  if least ≤ n ∧ n.isValidChar then some (Char.ofNat n) else none

def decodeFirst? : Bytes → Option (Char × Bytes)
  | [] => none
  | a :: r =>
    if a < 0x80 then some (letter a, r)
    else if a < 0xC0 then none
    else if a < 0xE0 then
      match r with
      | b :: r => do
        let x ← continuation? b
        let c ← scalar? 0x80 ((a.toNat - 0xC0) * 64 + x)
        some (c, r)
      | _ => none
    else if a < 0xF0 then
      match r with
      | b :: c :: r => do
        let x ← continuation? b
        let y ← continuation? c
        let c ← scalar? 0x800 (((a.toNat - 0xE0) * 64 + x) * 64 + y)
        some (c, r)
      | _ => none
    else if a < 0xF8 then
      match r with
      | b :: c :: d :: r => do
        let x ← continuation? b
        let y ← continuation? c
        let z ← continuation? d
        let c ← scalar? 0x10000 ((((a.toNat - 0xF0) * 64 + x) * 64 + y) * 64 + z)
        some (c, r)
      | _ => none
    else none

theorem decodeFirst?_shorter {s r : Bytes} {c : Char} (found : decodeFirst? s = some (c, r)) :
    r.length < s.length := by
  unfold decodeFirst? at found
  split at found
  · cases found
  · split at found
    · cases found; simp
    · split at found
      · cases found
      · split at found
        · split at found
          · simp only [Option.bind_eq_bind, Option.bind_eq_some_iff, Option.some.injEq,
              Prod.mk.injEq] at found
            obtain ⟨_, _, _, _, _, rfl⟩ := found
            simp only [List.length_cons]; omega
          · cases found
        · split at found
          · split at found
            · simp only [Option.bind_eq_bind, Option.bind_eq_some_iff, Option.some.injEq,
                Prod.mk.injEq] at found
              obtain ⟨_, _, _, _, _, _, _, rfl⟩ := found
              simp only [List.length_cons]; omega
            · cases found
          · split at found
            · split at found
              · simp only [Option.bind_eq_bind, Option.bind_eq_some_iff, Option.some.injEq,
                  Prod.mk.injEq] at found
                obtain ⟨_, _, _, _, _, _, _, _, _, rfl⟩ := found
                simp only [List.length_cons]; omega
              · cases found
            · cases found

def decodeOnto (before : List Char) (s : Bytes) : List Char × Bytes :=
  match s with
  | [] => (before.reverse, [])
  | a :: t =>
    match _ : decodeFirst? (a :: t) with
    | some (c, r) => decodeOnto (c :: before) r
    | none => (before.reverse, a :: t)
termination_by s.length
decreasing_by exact decodeFirst?_shorter ‹_›

def decodeRun (s : Bytes) : List Char × Bytes := decodeOnto [] s

def decode? (s : Bytes) : Option (List Char) :=
  match decodeRun s with
  | (cs, []) => some cs
  | (_, _ :: _) => none

def ofUtf8? (s : Bytes) : Option String := (decode? s).map String.ofList

def beginsCharacter (s : Bytes) : Bool :=
  [0x80, 0xBF].any fun fill =>
    (decodeFirst? (s ++ List.replicate 3 fill)).any fun (_, rest) => rest.length < 3

-- How many bytes are lost together where no character starts.
def brokenLength (s : Bytes) : Nat :=
  ([3, 2].find? fun n => n ≤ s.length && beginsCharacter (s.take n)).getD 1

def readableChars (s : Bytes) : List Char :=
  match s with
  | [] => []
  | a :: t =>
    match _ : decodeFirst? (a :: t) with
    | some (c, r) => c :: readableChars r
    | none => '\uFFFD' :: readableChars (t.drop (brokenLength (a :: t) - 1))
termination_by s.length
decreasing_by
  · exact decodeFirst?_shorter ‹_›
  · simp only [List.length_drop, List.length_cons]; omega

def readable (s : Bytes) : String := String.ofList (readableChars s)

end Text
end PagePress
