import PagePress.Numeral.Binary64

namespace PagePress.Numeral

def digitsValue (cs : List Char) : Nat := cs.foldl (fun n c => 10 * n + (c.toNat - '0'.toNat)) 0

def splitSign : List Char → Bool × List Char
  | '-' :: r => (true, r)
  | '+' :: r => (false, r)
  | r => (false, r)

inductive Decimal64 where
  | finite (x : Binary64)
  | infinite (negative : Bool)
  | nan

def exponentPart? : List Char → Option Int
  | [] => some 0
  | e :: r =>
    let (negative, digits) := splitSign r
    if (e = 'e' ∨ e = 'E') ∧ digits ≠ [] ∧ digits.all Char.isDigit then
      some (if negative then -(digitsValue digits : Int) else digitsValue digits)
    else none

def decimal64? (s : String) : Option Decimal64 := do
  let (negative, body) := splitSign s.toList
  match String.ofList (body.map Char.toLower) with
  | "inf" | "infinity" => return .infinite negative
  | "nan" => return .nan
  | _ =>
    let whole := body.takeWhile Char.isDigit
    let rest := body.dropWhile Char.isDigit
    let (part, rest) := match rest with
      | '.' :: r => (r.takeWhile Char.isDigit, r.dropWhile Char.isDigit)
      | _ => ([], rest)
    if whole = [] ∧ part = [] then none
    else
      let e ← exponentPart? rest
      match Binary64.ofDecimal? negative (digitsValue (whole ++ part)) (e - part.length) with
      | some x => return .finite x
      | none => return .infinite negative

def digitOf? (base : Nat) (c : Char) : Option Nat :=
  let d :=
    if c.isDigit then c.toNat - '0'.toNat
    else if c.isUpper then c.toNat - 'A'.toNat + 10
    else if c.isLower then c.toNat - 'a'.toNat + 10
    else base
  if d < base then some d else none

def natural? (base : Nat) (cs : List Char) : Option Nat :=
  if cs = [] then none
  else cs.foldlM (fun n c => (digitOf? base c).map (base * n + ·)) 0

def int64? (base : Nat) (cs : List Char) : Option Int := do
  let (negative, digits) := splitSign cs
  let n ← natural? base digits
  let i : Int := if negative then -(n : Int) else n
  if -2 ^ 63 ≤ i ∧ i < 2 ^ 63 then some i else none

end PagePress.Numeral
