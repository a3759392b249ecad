import PagePress.Text.Utf8

attribute [instance (20000)] instPowNat

attribute [default_instance 20000] instPowNat

namespace PagePress.Base64
open Text

def symbol (n : Nat) : Char :=
  if n < 26 then Char.ofNat ('A'.toNat + n)
  else if n < 52 then Char.ofNat ('a'.toNat + (n - 26))
  else if n < 62 then Char.ofNat ('0'.toNat + (n - 52))
  else if n = 62 then '+'
  else '/'

def value? (b : UInt8) : Option Nat :=
  let c := letter b
  if c.isUpper then some (c.toNat - 'A'.toNat)
  else if c.isLower then some (c.toNat - 'a'.toNat + 26)
  else if c.isDigit then some (c.toNat - '0'.toNat + 52)
  else if c = '+' then some 62
  else if c = '/' then some 63
  else none

def isPad (b : UInt8) : Bool := letter b == '='

-- `before` holds what was written, last symbol first.
def encodeOnto (before : List Char) : Bytes → List Char
  | [] => before.reverse
  | [a] =>
    let n := a.toNat * 2 ^ 4
    (['=', '=', symbol (n % 64), symbol (n / 64)] ++ before).reverse
  | [a, b] =>
    let n := (a.toNat * 2 ^ 8 + b.toNat) * 2 ^ 2
    (['=', symbol (n % 64), symbol (n / 64 % 64), symbol (n / 64 ^ 2)] ++ before).reverse
  | a :: b :: c :: rest =>
    let n := (a.toNat * 2 ^ 8 + b.toNat) * 2 ^ 8 + c.toNat
    encodeOnto ([symbol (n % 64), symbol (n / 64 % 64), symbol (n / 64 ^ 2 % 64),
      symbol (n / 64 ^ 3)] ++ before) rest

def encode (s : Bytes) : String := String.ofList (encodeOnto [] s)

inductive DecodeError where
  | invalidSymbol (byte : UInt8) (offset : Nat)
  | invalidLength (length : Nat)
  | invalidLastSymbol (byte : UInt8) (offset : Nat)
  | invalidPadding
  deriving DecidableEq, Repr

def DecodeError.message : DecodeError → String
  | .invalidSymbol byte offset =>
    "Invalid symbol " ++ toString byte ++ ", offset " ++ toString offset ++ "."
  | .invalidLength length => "Invalid input length: " ++ toString length
  | .invalidLastSymbol byte offset =>
    "Invalid last symbol " ++ toString byte ++ ", offset " ++ toString offset ++ "."
  | .invalidPadding => "Invalid padding"

def symbolValue (byte : UInt8) (offset : Nat) : Except DecodeError Nat :=
  match value? byte with
  | some n => .ok n
  | none => .error (.invalidSymbol byte offset)

-- The symbols of the last group, its padding left out. Padding stands behind two symbols at least
-- and nothing stands behind it.
def lastSymbols (start : Nat) (group : Bytes) : Except DecodeError (List Nat) := do
  let symbols := group.takeWhile (!isPad ·)
  let values ← (symbols.zipIdx start).mapM fun (byte, offset) => symbolValue byte offset
  if group.any isPad ∧ (symbols.length < 2 ∨ !(group.drop symbols.length).all isPad) then
    .error (.invalidSymbol '='.toUInt8 (start + symbols.length))
  else .ok values

def lastBytes (start : Nat) (group : Bytes) : Except DecodeError Bytes := do
  let values ← lastSymbols start group
  let count := values.length
  if count < 2 then .error (.invalidLength (start + count))
  else if group.length ≠ 4 then .error .invalidPadding
  else
    let n := values.foldl (fun n v => n * 64 + v) 0
    let bits := count * 6 % 8
    if n % 2 ^ bits ≠ 0 then
      .error (.invalidLastSymbol (group.getD (count - 1) 0) (start + count - 1))
    else
      let kept := n / 2 ^ bits
      .ok (((List.range (count - 1)).map fun i => UInt8.ofNat (kept / 256 ^ i)).reverse)

-- All groups but the last are four symbols; `before` holds their bytes, last byte first.
def decodeOnto (before : Bytes) (offset : Nat) : Bytes → Except DecodeError Bytes
  | a :: b :: c :: d :: e :: rest => do
    let w ← symbolValue a offset
    let x ← symbolValue b (offset + 1)
    let y ← symbolValue c (offset + 2)
    let z ← symbolValue d (offset + 3)
    let n := ((w * 64 + x) * 64 + y) * 64 + z
    decodeOnto ([UInt8.ofNat n, UInt8.ofNat (n / 256), UInt8.ofNat (n / 256 ^ 2)] ++ before)
      (offset + 4) (e :: rest)
  | [] => .ok []
  | group => do
    let bytes ← lastBytes offset group
    .ok (before.reverse ++ bytes)

def decode (s : Bytes) : Except DecodeError Bytes :=
  match s.getLast? with
  | some last =>
    if s.length % 4 = 1 ∧ !isPad last ∧ value? last = none then
      .error (.invalidSymbol last (s.length - 1))
    else decodeOnto [] 0 s
  | none => .ok []

end PagePress.Base64
