import PagePress.Outcome.Code
import PagePress.Template.Escape
import PagePress.Template.Printf
import PagePress.Template.Tree

namespace PagePress.Template

inductive CallFault where
  | tooFew (builtin : Builtin) (least got : Nat)
  | wrongCount (builtin : Builtin) (want got : Nat)
  | formatNotString (type : String)
  | noLength (type : String)
  | noPosition (container : String) (index : Number)
  | outOfRange (index : Int)
  | indexOfNil
  | cannotIndex (container key : String)
  | notComparable
  | nonComparable (type : String)
  | incompatible

def CallFault.message : CallFault → String
  | .tooFew builtin least got =>
    "wrong number of args for " ++ builtin.name ++ ": want at least " ++ toString least ++
      " got " ++ toString got
  | .wrongCount builtin want got =>
    "wrong number of args for " ++ builtin.name ++ ": want " ++ toString want ++
      " got " ++ toString got
  | .formatNotString type => "wrong type for value; expected string; got " ++ type
  | .noLength type => "len of type " ++ type
  | .noPosition container index =>
    "cannot index " ++ container ++ " with " ++ String.ofList index.jsonText
  | .outOfRange index =>
    "error calling index: index out of range: " ++ String.ofList (Numeral.intText index)
  | .indexOfNil => "error calling index: index of untyped nil"
  | .cannotIndex container key =>
    "error calling index: cannot index " ++ container ++ " with " ++ key
  | .notComparable => "invalid type for comparison"
  | .nonComparable type => "non-comparable type " ++ type
  | .incompatible => "incompatible types for comparison"

def truth : Json → Bool
  | .null => false
  | .bool b => b
  | .num (.int n _) => n != 0
  | .num (.float x) => !x.isZero
  | .str s => !s.isEmpty
  | .arr items => !items.isEmpty
  | .obj fields => !fields.isEmpty

def length (value : Json) : Except CallFault Nat :=
  match value with
  | .str s => .ok s.utf8ByteSize
  | .arr items => .ok items.length
  | .obj fields => .ok fields.length
  | other => .error (.noLength (typeName other))

def position (container : String) (size : Nat) (n : Number) : Except CallFault Nat :=
  match n.signed? with
  | none => .error (.noPosition container n)
  | some i => if 0 ≤ i ∧ i < size then .ok i.toNat else .error (.outOfRange i)

def indexOnce (container key : Json) : Except CallFault Json :=
  match container, key with
  | .arr items, .num n => do
    let i ← position "slice" items.length n
    .ok (items.getD i .null)
  | .str s, .num n => do
    let bytes := Text.utf8 s
    let i ← position "string" bytes.length n
    .ok (.ofNat (bytes.getD i 0).toNat)
  | .obj fields, .str key => .ok ((Fields.get? fields key).getD .null)
  | .null, _ => .error .indexOfNil
  | container, key => .error (.cannotIndex (typeName container) (typeName key))

inductive Kind where
  | bool
  | number
  | string
  deriving DecidableEq

def kindOf (value : Json) : Except CallFault Kind :=
  match value with
  | .bool _ => .ok .bool
  | .num _ => .ok .number
  | .str _ => .ok .string
  | .null => .error .notComparable
  | other => .error (.nonComparable (typeName other))

def sameKind (a b : Json) : Except CallFault Unit := do
  let first ← kindOf a
  let second ← kindOf b
  if first = second then .ok () else .error .incompatible

-- Exact where both are integers of one sign or of 63 bits, else by their nearest floats.
def compareNumbers (a b : Number) : Ordering :=
  match a.signed?, b.signed? with
  | some x, some y => compare x y
  | _, _ =>
    match a.unsigned?, b.unsigned? with
    | some x, some y => compare x y
    | _, _ => a.toBinary64.compare b.toBinary64

def equal (a b : Json) : Except CallFault Bool := do
  sameKind a b
  match a, b with
  | .num x, .num y => .ok (compareNumbers x y == .eq)
  | .bool x, .bool y => .ok (x == y)
  | .str x, .str y => .ok (x == y)
  | _, _ => .ok false

def ordering (a b : Json) : Except CallFault Ordering := do
  sameKind a b
  match a, b with
  | .num x, .num y => .ok (compareNumbers x y)
  | .str x, .str y => .ok (compare x y)
  | _, _ => .error .notComparable

def equalsAny (a : Json) : List Json → Except CallFault Bool
  | [] => .ok false
  | b :: rest => do
    if ← equal a b then .ok true else equalsAny a rest

-- A space goes between two arguments that are no strings.
def printChars : List Json → List Char
  | [] => []
  | [a] => valueChars a
  | a :: b :: rest =>
    valueChars a ++ (if !a.isString ∧ !b.isString then [' '] else []) ++ printChars (b :: rest)

def ordered (builtin : Builtin) (accept : Ordering → Bool) (args : List Json) :
    Except CallFault Json :=
  match args with
  | [a, b] => do .ok (.bool (accept (← ordering a b)))
  | args => .error (.wrongCount builtin 2 args.length)

def ofChars (cs : List Char) : Json := .str (String.ofList cs)

namespace Builtin

def call (builtin : Builtin) (args : List Json) : Except (Halt CallFault) Json :=
  match builtin, args with
  | .and, first :: rest => .ok (((first :: rest).find? (!truth ·)).getD (rest.getLastD first))
  | .or, first :: rest => .ok (((first :: rest).find? truth).getD (rest.getLastD first))
  | .not, [a] => .ok (.bool !truth a)
  | .len, [a] => returned ((length a).map .ofNat)
  | .index, container :: keys => returned (keys.foldlM indexOnce container)
  | .print, args => .ok (ofChars (printChars args))
  | .println, args => .ok (ofChars (Json.joinWith [' '] (args.map valueChars) ++ ['\n']))
  | .printf, .str format :: args =>
    match sprintf format.toList args with
    | some text => .ok (ofChars text)
    | none => .error .panic
  | .printf, other :: _ => .error (.fault (.formatNotString (typeName other)))
  | .eq, a :: b :: rest => returned ((equalsAny a (b :: rest)).map .bool)
  | .ne, [a, b] => returned ((equal a b).map fun same => .bool !same)
  | .lt, args => returned (ordered builtin (· == .lt) args)
  | .le, args => returned (ordered builtin (· != .gt) args)
  | .gt, args => returned (ordered builtin (· == .gt) args)
  | .ge, args => returned (ordered builtin (· != .lt) args)
  | .html, args => .ok (ofChars (escapeHtml (printChars args)))
  | .js, args => .ok (ofChars (escapeJs (printChars args)))
  | .urlquery, args => .ok (ofChars (escapeQuery (printChars args)))
  | .not, args | .len, args => .error (.fault (.wrongCount builtin 1 args.length))
  | .ne, args => .error (.fault (.wrongCount builtin 2 args.length))
  | .eq, args => .error (.fault (.tooFew builtin 2 args.length))
  | .and, args | .or, args | .index, args | .printf, args =>
    .error (.fault (.tooFew builtin 1 args.length))

end Builtin
end PagePress.Template
