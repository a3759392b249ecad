import PagePress.Numeral.Binary64

namespace PagePress

inductive Number where
  | int (value : Int) (fits : -2 ^ 63 ≤ value ∧ value < 2 ^ 64)
  | float (value : Binary64)
  deriving DecidableEq

namespace Number

def ofInt? (n : Int) : Option Number :=
  if h : -2 ^ 63 ≤ n ∧ n < 2 ^ 64 then some (.int n h) else none

-- The lowest 64 bits of a count are all of it in practice.
def ofNat (n : Nat) : Number :=
  .int (n % 2 ^ 64 : Nat) ⟨by omega, by omega⟩

def signed? : Number → Option Int
  | .int n _ => if n < 2 ^ 63 then some n else none
  | .float _ => none

def unsigned? : Number → Option Nat
  | .int n _ => if 0 ≤ n then some n.toNat else none
  | .float _ => none

def toBinary64 : Number → Binary64
  | .int n _ => Binary64.ofInt n
  | .float x => x

-- Equality of values of one kind: an integer never equals a float, the two zeros are equal.
def same : Number → Number → Bool
  | .int m _, .int n _ => m == n
  | .float x, .float y => x.compare y == .eq
  | _, _ => false

end Number

inductive Json where
  | null
  | bool (b : Bool)
  | num (n : Number)
  | str (s : String)
  | arr (items : List Json)
  | obj (fields : List (String × Json))

abbrev Fields := List (String × Json)

namespace Fields

def get? (fields : Fields) (key : String) : Option Json := (fields.find? (·.1 == key)).map (·.2)

def insert : Fields → String → Json → Fields
  | [], key, value => [(key, value)]
  | (k, v) :: rest, key, value =>
    if k = key then (k, value) :: rest else (k, v) :: insert rest key value

def keys (fields : Fields) : List String := fields.map (·.1)

end Fields

namespace Json

instance : Inhabited Json := ⟨null⟩

def ofNat (n : Nat) : Json := .num (.ofNat n)

def isNull : Json → Bool
  | .null => true
  | _ => false

def isNumber : Json → Bool
  | .num _ => true
  | _ => false

def isString : Json → Bool
  | .str _ => true
  | _ => false

def get? : Json → String → Option Json
  | .obj fields, key => Fields.get? fields key
  | _, _ => none

mutual
def same : Json → Json → Bool
  | .null, .null => true
  | .bool a, .bool b => a == b
  | .num a, .num b => a.same b
  | .str a, .str b => a == b
  | .arr a, .arr b => sameItems a b
  | .obj a, .obj b => a.length == b.length && sameFields a b
  | _, _ => false

def sameItems : List Json → List Json → Bool
  | [], [] => true
  | a :: as, b :: bs => same a b && sameItems as bs
  | _, _ => false

def sameFields : List (String × Json) → Fields → Bool
  | [], _ => true
  | (key, a) :: rest, others =>
    (match Fields.get? others key with
      | some b => same a b
      | none => false) && sameFields rest others
end

end Json
end PagePress
