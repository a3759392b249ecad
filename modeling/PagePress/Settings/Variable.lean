import PagePress.Numeral.Layout
import PagePress.Numeral.Read
import PagePress.Text.Split

namespace PagePress

inductive Setting where
  | bool (b : Bool)
  | int (n : Int)
  | float (x : Numeral.Decimal64)
  | text (s : String)
  | table (members : List (String × Setting))
  | list (items : List Setting)
  -- A place of a list that no variable fills.
  | nothing

inductive PathStep where
  | key (name : String)
  | index (n : Nat)
  deriving DecidableEq, Repr

namespace Setting

-- Letters of names; the Kelvin sign is the one other character whose small letter is one of them.
def lowerChar (c : Char) : Char := if c = '\u212A' then 'k' else c.toLower

def lower (s : String) : String := String.ofList (s.toList.map lowerChar)

-- A truth, else an integer of 64 bits, else a float, else the text.
def ofText (s : String) : Setting :=
  match lower s with
  | "true" => .bool true
  | "false" => .bool false
  | _ =>
    match Numeral.int64? 10 s.toList with
    | some n => .int n
    | none =>
      match Numeral.decimal64? s with
      | some x => .float x
      | none => .text s

def dotted : List Char → List Char
  | '_' :: '_' :: rest => '.' :: dotted rest
  | c :: rest => c :: dotted rest
  | [] => []

def isNameChar (c : Char) : Bool := c.isAlphanum || c == ' ' || c == '_' || c == '-'

def place? (cs : List Char) : Option Nat :=
  let written := Text.trim (fun c => c == ' ' || c == '\t') cs
  if written.head? = some '+' then none
  else
    match Numeral.int64? 10 written with
    | some (.ofNat n) => some n
    | _ => none

def steps? (cs : List Char) : Option (List PathStep) :=
  match cs with
  | [] => some []
  | '.' :: rest =>
    let name := rest.takeWhile isNameChar
    if name.isEmpty then none
    else (steps? (rest.drop name.length)).map (.key (String.ofList name) :: ·)
  | '[' :: rest =>
    let inside := rest.takeWhile (· ≠ ']')
    match place? inside with
    | some n =>
      if inside.length < rest.length then
        (steps? (rest.drop (inside.length + 1))).map (.index n :: ·)
      else none
    | none => none
  | _ => none
termination_by cs.length
decreasing_by all_goals simp only [List.length_drop, List.length_cons]; omega

def pathOf? (variableName : String) : Option (List PathStep) :=
  let mark := "app__".toList
  let name := (lower variableName).toList
  if mark.isPrefixOf name then steps? ('.' :: dotted (name.drop mark.length)) else none

def members : Setting → List (String × Setting)
  | .table members => members
  | _ => []

def member? (setting : Setting) (key : String) : Option Setting :=
  (setting.members.find? (·.1 == key)).map (·.2)

def insert : List (String × Setting) → String → Setting → List (String × Setting)
  | [], key, value => [(key, value)]
  | (k, v) :: rest, key, value =>
    if k = key then (k, value) :: rest else (k, v) :: insert rest key value

def items : Setting → List Setting
  | .list items => items
  | _ => []

def reaching (n : Nat) (items : List Setting) : List Setting :=
  items ++ List.replicate (n + 1 - items.length) .nothing

-- What stands in the way of a path is replaced by a table or a list.
def put (value : Setting) : List PathStep → Setting → Setting
  | [], _ => value
  | .key name :: path, setting =>
    let below := (setting.member? name).getD .nothing
    .table (insert setting.members name (put value path below))
  | .index n :: path, setting =>
    let items := reaching n setting.items
    .list (items.set n (put value path (items[n]?.getD .nothing)))

def ofEnvironment (environment : List (String × String)) : Setting :=
  environment.foldl
    (fun setting (name, value) =>
      match pathOf? name with
      | some path => put (ofText value) path setting
      | none => setting)
    (.table [])

end Setting
end PagePress
