import PagePress.Numeral.Binary64

namespace PagePress.Numeral

structure Decimal where
  digits : Nat
  exponent : Int
  deriving DecidableEq, Repr

-- Without zeros at the end. The count bounds the steps.
def Decimal.trimmed : Nat → Decimal → Decimal
  | 0, d => d
  | n + 1, d =>
    if d.digits ≠ 0 ∧ d.digits % 10 = 0 then trimmed n ⟨d.digits / 10, d.exponent + 1⟩ else d

-- The greatest e with 10 ^ e ≤ num / den, for num above zero.
def leadingExponent (num den : Nat) : Int :=
  let guess := (((num.log2 : Int) - den.log2) * 30103).fdiv 100000
  let reaches (e : Int) : Bool := den * 10 ^ e.toNat ≤ num * 10 ^ (-e).toNat
  if reaches (guess + 1) then guess + 1
  else if reaches guess then guess
  else guess - 1

-- The reals that round to a number, in quarters of its unit. The ends belong to them iff the
-- mantissa is even.
structure Interval where
  low : Nat
  value : Nat
  high : Nat
  closed : Bool

def Interval.of (x : Binary64) : Interval where
  low := if x.mantissa = 2 ^ 52 ∧ x.exponent ≠ -1074 then 4 * x.mantissa - 1 else 4 * x.mantissa - 2
  value := 4 * x.mantissa
  high := 4 * x.mantissa + 2
  closed := x.mantissa % 2 == 0

-- Of the two neighbours of the value on the grid of 10 ^ e, the nearer one that reads back.
-- num / den is a quarter unit in grid steps.
def Interval.onGrid? (i : Interval) (tie : Tie) (num den : Nat) : Option Nat :=
  let d := i.value * num / den
  let inside (d : Nat) : Bool :=
    if i.closed then i.low * num ≤ d * den ∧ d * den ≤ i.high * num
    else i.low * num < d * den ∧ d * den < i.high * num
  match inside d, inside (d + 1) with
  | false, false => none
  | true, false => some d
  | false, true => some (d + 1)
  | true, true =>
    let doubled := 2 * (i.value * num)
    let middle := (2 * d + 1) * den
    if doubled < middle then some d
    else if middle < doubled then some (d + 1)
    else match tie with
      | .even => some (if d % 2 = 0 then d else d + 1)
      | .up => some (d + 1)

def shortest (tie : Tie) (x : Binary64) : Decimal :=
  let lead := leadingExponent x.numerator x.denominator
  let found := (List.range 17).findSome? fun (n : Nat) =>
    let e := lead - n
    let q := x.exponent - 2
    let num := 2 ^ q.toNat * 10 ^ (-e).toNat
    let den := 2 ^ (-q).toNat * 10 ^ e.toNat
    ((Interval.of x).onGrid? tie num den).map fun d => Decimal.mk d e
  (found.getD ⟨0, 0⟩).trimmed 17

def inSteps (x : Binary64) (e : Int) : Nat :=
  roundDiv .even (x.numerator * 10 ^ (-e).toNat) (x.denominator * 10 ^ e.toNat)

end PagePress.Numeral
