-- The library's own power comes before any other, so that a power reads the same in a module that
-- imports more algebra.
attribute [instance (20000)] instPowNat

attribute [default_instance 20000] instPowNat

namespace PagePress

-- A finite number has one form, so equality of forms tells a zero from the negative zero and all
-- else apart.
structure Binary64 where
  negative : Bool
  mantissa : Nat
  exponent : Int
  inRange : mantissa < 2 ^ 53 ∧ -1074 ≤ exponent ∧ exponent ≤ 971
  normal : 2 ^ 52 ≤ mantissa ∨ exponent = -1074
  deriving DecidableEq

namespace Binary64

def zero (negative : Bool) : Binary64 := ⟨negative, 0, -1074, by decide, by decide⟩

instance : Inhabited Binary64 := ⟨zero false⟩

def numerator (x : Binary64) : Nat := x.mantissa * 2 ^ x.exponent.toNat
def denominator (x : Binary64) : Nat := 2 ^ (-x.exponent).toNat

def isZero (x : Binary64) : Bool := x.mantissa == 0

end Binary64

namespace Numeral

inductive Tie where
  | even
  | up
  deriving DecidableEq, Repr

def roundDiv (tie : Tie) (num den : Nat) : Nat :=
  let q := num / den
  let r := num % den
  if 2 * r < den then q
  else if den < 2 * r then q + 1
  else match tie with
    | .even => if q % 2 = 0 then q else q + 1
    | .up => q + 1

def scaled (num den : Nat) (e : Int) : Nat × Nat :=
  (num * 2 ^ (-e).toNat, den * 2 ^ e.toNat)

def unitExponent (num den : Nat) : Int :=
  let e := max (-1074) ((num.log2 : Int) - den.log2 - 53)
  let (n, d) := scaled num den e
  if n / d < 2 ^ 53 then e else e + 1

end Numeral

namespace Binary64
open Numeral

-- The nearest number to num / den, ties to even; none where it is too large.
def nearest? (negative : Bool) (num den : Nat) : Option Binary64 :=
  let e := unitExponent num den
  let (n, d) := scaled num den e
  let m := roundDiv .even n d
  let (m, e) := if m = 2 ^ 53 then (2 ^ 52, e + 1) else (m, e)
  if h : (m < 2 ^ 53 ∧ -1074 ≤ e ∧ e ≤ 971) ∧ (2 ^ 52 ≤ m ∨ e = -1074) then
    some ⟨negative, m, e, h.1, h.2⟩
  else none

-- The nearest number to digits · 10 ^ e. Beyond the named powers the answer is known at once.
def ofDecimal? (negative : Bool) (digits : Nat) (e : Int) : Option Binary64 :=
  let width : Int := digits.log2 / 3 + 1
  if digits = 0 then some (zero negative)
  else if 400 < e then none
  else if e + width < -400 then some (zero negative)
  else nearest? negative (digits * 10 ^ e.toNat) (10 ^ (-e).toNat)

-- An integer of 64 bits is never too large.
def ofInt (n : Int) : Binary64 :=
  (nearest? (decide (n < 0)) n.natAbs 1).getD (zero false)

def withSign (x : Binary64) (negative : Bool) : Binary64 := { x with negative }

def times? (x y : Binary64) : Option Binary64 :=
  let negative := x.negative != y.negative
  if x.isZero || y.isZero then some (zero negative)
  else nearest? negative (x.numerator * y.numerator) (x.denominator * y.denominator)

-- The divisor is not zero.
def over? (x y : Binary64) : Option Binary64 :=
  let negative := x.negative != y.negative
  if x.isZero then some (zero negative)
  else nearest? negative (x.numerator * y.denominator) (x.denominator * y.numerator)

def compare (x y : Binary64) : Ordering :=
  let signed (z : Binary64) (n : Nat) : Int := if z.negative then -(n : Int) else n
  Ord.compare (signed x (x.numerator * y.denominator)) (signed y (y.numerator * x.denominator))

end Binary64
end PagePress
