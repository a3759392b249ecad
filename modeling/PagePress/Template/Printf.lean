import PagePress.Template.Format
import PagePress.Text.Quoted

namespace PagePress.Template
open Numeral Text

def maxWidth : Nat := 1000000

-- More places than 16 bits can count are a panic where a float is written out.
def maxPlaces : Nat := 65535

structure Spec where
  minus : Bool := false
  plus : Bool := false
  zero : Bool := false
  width : Option Nat := none
  precision : Option Nat := none
  deriving DecidableEq, Repr

namespace Spec

def pad (spec : Spec) (numeric : Bool) (body : List Char) : List Char :=
  let fill := spec.width.getD 0 - body.length
  if spec.minus then body ++ List.replicate fill ' '
  else if spec.zero ∧ numeric then
    match body with
    | '-' :: digits => '-' :: (zeros fill ++ digits)
    | '+' :: digits => '+' :: (zeros fill ++ digits)
    | digits => zeros fill ++ digits
  else List.replicate fill ' ' ++ body

def sign (spec : Spec) (arg : Json) (body : List Char) : List Char :=
  match arg with
  | .num _ => if spec.plus ∧ body.head? ≠ some '-' then '+' :: body else body
  | _ => body

end Spec

structure Directive where
  spec : Spec
  complaints : List Char
  rest : List Char

def isFlag (c : Char) : Bool := c == '-' || c == '+' || c == '0' || c == ' ' || c == '#'

def readCount (cs : List Char) : Option Nat :=
  if cs.isEmpty then none
  else some (cs.foldl (fun n c => 10 * n + (c.toNat - '0'.toNat)) 0)

-- A number that is too great is complained about and left out.
def bounded (complaint : String) (n : Option Nat) : Option Nat × List Char :=
  match n with
  | some n => if maxWidth < n then (none, complaint.toList) else (some n, [])
  | none => (none, [])

def readPrecision : List Char → (Option Nat × List Char) × List Char
  | '.' :: r =>
    (bounded "%!(BADPREC)" (some ((readCount (r.takeWhile Char.isDigit)).getD 0)),
      r.dropWhile Char.isDigit)
  | cs => ((none, []), cs)

def readDirective (cs : List Char) : Directive :=
  let flags := cs.takeWhile isFlag
  let sized := cs.dropWhile isFlag
  let width := bounded "%!(BADWIDTH)" (readCount (sized.takeWhile Char.isDigit))
  let precision := readPrecision (sized.dropWhile Char.isDigit)
  ⟨⟨flags.contains '-', flags.contains '+', flags.contains '0', width.1, precision.1.1⟩,
    width.2 ++ precision.1.2, precision.2⟩

theorem dropWhile_le (p : Char → Bool) (cs : List Char) : (cs.dropWhile p).length ≤ cs.length :=
  (List.dropWhile_sublist p).length_le

theorem readPrecision_le (cs : List Char) : (readPrecision cs).2.length ≤ cs.length := by
  unfold readPrecision
  split
  · exact Nat.le_succ_of_le (dropWhile_le _ _)
  · exact Nat.le_refl _

theorem readDirective_le (cs : List Char) : (readDirective cs).rest.length ≤ cs.length :=
  Nat.le_trans (readPrecision_le _) (Nat.le_trans (dropWhile_le _ _) (dropWhile_le _ _))

def typedText (arg : Json) : List Char := (typeName arg).toList ++ '=' :: valueChars arg

def mismatch (verb : Char) (arg : Json) : List Char :=
  '%' :: '!' :: verb :: '(' :: typedText arg ++ [')']

def upperChars (cs : List Char) : List Char := cs.map Char.toUpper

def hexText (n : Int) : List Char :=
  if n < 0 then '-' :: Nat.toDigits 16 n.natAbs else Nat.toDigits 16 n.natAbs

def hexBytes (s : String) : List Char :=
  (utf8 s).flatMap fun b => [Nat.digitChar (b.toNat / 16), Nat.digitChar (b.toNat % 16)]

def floatText (verb : Char) (precision : Option Nat) (x : Binary64) : List Char :=
  let places := precision.getD 6
  match verb with
  | 'f' | 'F' => fixed x places
  | 'e' => exponential 2 x places
  | 'E' => upperChars (exponential 2 x places)
  | 'G' => upperChars (valueText x)
  | _ => valueText x

def argumentText (verb : Char) (spec : Spec) (arg : Json) : List Char :=
  match verb, arg with
  | 'v', .num n => spec.pad true (spec.sign arg (numberText n))
  | 'v', arg => spec.pad false (valueChars arg)
  | 's', arg =>
    let body := valueChars arg
    spec.pad false (match spec.precision with | some n => body.take n | none => body)
  | 'q', .str s => spec.pad false (quoteChars '"' s.toList)
  | 't', .bool b => spec.pad false (valueChars (.bool b))
  | 'd', .num n =>
    match n.signed? with
    | some i => spec.pad true (spec.sign arg (intText i))
    | none => mismatch verb arg
  | 'c', .num n =>
    -- Only the lowest 32 bits of the number are looked at.
    match n.unsigned?.map (· % 2 ^ 32) with
    | some u => if u.isValidChar then spec.pad false [Char.ofNat u] else mismatch verb arg
    | none => mismatch verb arg
  | 'x', .num n =>
    match n.signed? with
    | some i => spec.pad true (hexText i)
    | none => mismatch verb arg
  | 'X', .num n =>
    match n.signed? with
    | some i => spec.pad true (upperChars (hexText i))
    | none => mismatch verb arg
  | 'x', .str s => spec.pad true (hexBytes s)
  | 'X', .str s => spec.pad true (upperChars (hexBytes s))
  | verb, .num n =>
    if verb ∈ ['f', 'F', 'e', 'E', 'g', 'G'] then
      spec.pad true (spec.sign arg (floatText verb spec.precision n.toBinary64))
    else mismatch verb arg
  | verb, arg => mismatch verb arg

-- A number with more places than can be counted is a panic; g asks for no places.
def exceedsPlaces (verb : Char) (spec : Spec) (arg : Json) : Bool :=
  ['f', 'F', 'e', 'E'].contains verb && arg.isNumber && decide (maxPlaces < spec.precision.getD 6)

def formatVerb (verb : Char) (spec : Spec) (arg : Json) : Option (List Char) :=
  if exceedsPlaces verb spec arg then none else some (argumentText verb spec arg)

def extraText (args : List Json) : List Char :=
  if args.isEmpty then []
  else "%!(EXTRA ".toList ++ Json.joinWith [',', ' '] (args.map typedText) ++ [')']

def sprintf (format : List Char) (args : List Json) : Option (List Char) :=
  let text := format.takeWhile (· ≠ '%')
  match found : format.dropWhile (· ≠ '%') with
  | [] => some (text ++ extraText args)
  | _ :: behind =>
    let directive := readDirective behind
    let done := text ++ directive.complaints
    match left : (readDirective behind).rest with
    | [] => some (done ++ "%!(NOVERB)".toList ++ extraText args)
    | verb :: rest =>
      have shorter : rest.length < format.length := by
        have := readDirective_le behind
        have := dropWhile_le (· ≠ '%') format
        rw [found] at this
        simp_all only [List.length_cons]
        omega
      if verb = '%' then (sprintf rest args).map (done ++ '%' :: ·)
      else
        match args with
        | [] => (sprintf rest []).map (done ++ '%' :: '!' :: verb :: "(MISSING)".toList ++ ·)
        | arg :: args =>
          (formatVerb verb directive.spec arg).bind fun word =>
            (sprintf rest args).map (done ++ word ++ ·)
termination_by format.length

end PagePress.Template
