import PagePress.Numeral.Shortest

namespace PagePress.Numeral

def decimalDigits (n : Nat) : List Char := Nat.toDigits 10 n

def intText (n : Int) : List Char :=
  if n < 0 then '-' :: decimalDigits n.natAbs else decimalDigits n.natAbs

def zeros (n : Nat) : List Char := List.replicate n '0'

def withPoint (digits : List Char) (places : Nat) : List Char :=
  if places = 0 then digits
  else
    let digits := zeros (places + 1 - digits.length) ++ digits
    let cut := digits.length - places
    digits.take cut ++ '.' :: digits.drop cut

def positional (d : Decimal) : List Char :=
  withPoint (decimalDigits d.digits ++ zeros d.exponent.toNat) (-d.exponent).toNat

def Decimal.scale (d : Decimal) : Int := d.exponent + (decimalDigits d.digits).length - 1

def withExponent (width : Nat) (digits : List Char) (scale : Int) : List Char :=
  let e := decimalDigits scale.natAbs
  withPoint digits (digits.length - 1) ++ 'e' :: (if scale < 0 then '-' else '+') ::
    zeros (width - e.length) ++ e

def signed (x : Binary64) (cs : List Char) : List Char := if x.negative then '-' :: cs else cs

def plain (x : Binary64) : List Char :=
  signed x (if x.isZero then ['0'] else positional (shortest .up x))

-- No finite number has more than 1074 places; what is asked for beyond them is zeros.
def fixed (x : Binary64) (places : Nat) : List Char :=
  let exact := min places 1074
  signed x (withPoint (decimalDigits (inSteps x (-exact)) ++ zeros (places - exact)) places)

def exponential (width : Nat) (x : Binary64) (places : Nat) : List Char :=
  let exact := min places 1074
  if x.isZero then signed x (withExponent width (zeros (places + 1)) 0)
  else
    let lead := leadingExponent x.numerator x.denominator
    let n := inSteps x (lead - exact)
    let (n, lead) := if n = 10 ^ (exact + 1) then (10 ^ exact, lead + 1) else (n, lead)
    signed x (withExponent width (decimalDigits n ++ zeros (places - exact)) lead)

-- JSON: positional while the scale is from -5 to 15, with a point in any case; else an exponent
-- without padding.
def jsonText (x : Binary64) : List Char :=
  signed x <|
    if x.isZero then "0.0".toList
    else
      let d := shortest .even x
      if -5 ≤ d.scale ∧ d.scale < 16 then
        let cs := positional d
        if d.exponent < 0 then cs else cs ++ ".0".toList
      else withExponent 1 (decimalDigits d.digits) d.scale

-- Printed values: positional while the scale is from -4 to 20, else an exponent of two digits.
def valueText (x : Binary64) : List Char :=
  if x.isZero then plain x
  else
    let d := shortest .up x
    if -4 ≤ d.scale ∧ d.scale < 21 then plain x
    else signed x (withExponent 2 (decimalDigits d.digits) d.scale)

end PagePress.Numeral
