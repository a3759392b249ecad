import PagePress.Json.Value
import PagePress.Numeral.Read

namespace PagePress.Template.Literal
open Numeral

-- A sign belongs to a literal at its start and behind an exponent mark.
def belongs (previous : Option Char) (c : Char) : Bool :=
  c.isAlphanum || c == '.' || c == '_' ||
    ((c == '+' || c == '-') &&
      match previous with
      | none => true
      | some p => p == 'e' || p == 'E' || p == 'p' || p == 'P')

def withoutUnderscores (cs : List Char) : List Char := cs.filter (· ≠ '_')

-- Decimal, or with a base mark: 0x, 0o, 0b in either case. The sign is applied last.
def integer? (literal : String) : Option Int := do
  let (negative, body) := splitSign (withoutUnderscores literal.toList)
  let n ← match body with
    | '0' :: 'x' :: r | '0' :: 'X' :: r => int64? 16 r
    | '0' :: 'o' :: r | '0' :: 'O' :: r => int64? 8 r
    | '0' :: 'b' :: r | '0' :: 'B' :: r => int64? 2 r
    | r => int64? 10 r
  some (if negative then -n else n)

def isAccepted (literal : String) : Bool :=
  (decimal64? literal).isSome || (integer? literal).isSome

def value? (literal : String) : Option Number :=
  match integer? literal with
  | some n => Number.ofInt? n
  | none =>
    match decimal64? (String.ofList (withoutUnderscores literal.toList)) with
    | some (.finite x) => some (.float x)
    | _ => none

end PagePress.Template.Literal
