import PagePress.Numeral.Read
import PagePress.Text.Split
import PagePress.Text.Utf8

namespace PagePress

namespace Text

-- A percent sign without two hexadecimal digits behind it stands for itself.
def unescape : Bytes → Bytes
  | p :: a :: b :: rest =>
    match letter p == '%', Numeral.digitOf? 16 (letter a), Numeral.digitOf? 16 (letter b) with
    | true, some high, some low => UInt8.ofNat (16 * high + low) :: unescape rest
    | _, _, _ => p :: unescape (a :: b :: rest)
  | rest => rest

def unescaped? (written : String) : Option String := ofUtf8? (unescape (utf8 written))

end Text

open Text

structure Url where
  -- In small letters.
  scheme : String
  user : String
  -- None where nothing stands behind the colon.
  password : Option String
  -- Empty where none is named.
  host : String
  port : Option Nat
  path : List Char
  query : List Char
  deriving DecidableEq, Repr

namespace Url

def isSchemeChar (c : Char) : Bool := c.isAlphanum || c ∈ ['+', '-', '.']

def endsAuthority (c : Char) : Bool := c == '/' || c == '?' || c == '#'

def endsPath (c : Char) : Bool := c == '?' || c == '#'

-- Blanks and control characters at the ends do not count, nor the ends of lines anywhere.
def cleaned (written : String) : List Char :=
  (trim (·.toNat ≤ 0x20) written.toList).filter fun c => c ∉ ['\t', '\n', '\r']

def isGroup (cs : List Char) : Bool :=
  cs ≠ [] && cs.length ≤ 4 && cs.all fun c => (Numeral.digitOf? 16 c).isSome

def isOctet (cs : List Char) : Bool :=
  cs ≠ [] && cs.all Char.isDigit && (cs.length == 1 || cs.head? != some '0') &&
    cs.length ≤ 3 && Numeral.digitsValue cs ≤ 255

def isQuad (cs : List Char) : Bool :=
  let octets := pieces '.' cs
  octets.length == 4 && octets.all isOctet

-- How many groups stand between colons. Four octets at the end of an address make up two.
def groupCount? (atEnd : Bool) (cs : List Char) : Option Nat :=
  let groups := pieces ':' cs
  if cs = [] then some 0
  else if groups.all isGroup then some groups.length
  else if atEnd && groups.dropLast.all isGroup && groups.getLast?.any isQuad then
    some (groups.length + 1)
  else none

def splitGap? : List Char → Option (List Char × List Char)
  | ':' :: ':' :: rest => some ([], rest)
  | c :: rest => (splitGap? rest).map fun (before, behind) => (c :: before, behind)
  | [] => none

def isNumericHost (cs : List Char) : Bool :=
  match splitGap? cs with
  | none => groupCount? true cs == some 8
  | some (before, behind) =>
    match groupCount? false before, groupCount? true behind with
    | some m, some n => m + n ≤ 7
    | _, _ => false

def isForbiddenInHost (c : Char) : Bool :=
  c ∈ ['\x00', '\t', '\n', '\r', ' ', '#', '/', ':', '<', '>', '?', '@', '[', '\\', ']', '^', '|']

def isHost (cs : List Char) : Bool :=
  match cs with
  | '[' :: rest => rest.getLast? == some ']' && isNumericHost rest.dropLast
  | _ => !cs.any isForbiddenInHost

def splitHost (inside : Bool) : List Char → List Char × List Char
  | [] => ([], [])
  | c :: rest =>
    if c = ':' ∧ !inside then ([], c :: rest)
    else
      let (host, behind) := splitHost (c = '[' || (inside && c ≠ ']')) rest
      (c :: host, behind)

-- The port behind a colon and what follows it. A backslash ends it as a slash does.
def port? : List Char → Option (Option Nat × List Char)
  | ':' :: rest =>
    let digits := rest.takeWhile Char.isDigit
    let behind := rest.drop digits.length
    let n := Numeral.digitsValue digits
    if n < 2 ^ 16 ∧ (behind = [] ∨ behind.head? = some '\\') then
      some (if digits = [] then none else some n, behind)
    else none
  | rest => some (none, rest)

def splitUser (authority : List Char) : List Char × List Char :=
  match authority.reverse.dropWhile (· ≠ '@') with
  | [] => ([], authority)
  | _ :: before => (before.reverse, authority.drop (before.length + 1))

def plainDots : List Char → List Char
  | '%' :: '2' :: 'e' :: rest | '%' :: '2' :: 'E' :: rest => '.' :: plainDots rest
  | c :: rest => c :: plainDots rest
  | [] => []

-- The segments without steps in place and steps up, the ones before given in reverse.
def resolve (before : List (List Char)) : List (List Char) → List (List Char)
  | [] => before.reverse
  | segment :: rest =>
    let onTop (kept : List (List Char)) : List (List Char) :=
      if rest.isEmpty then [] :: kept else kept
    match plainDots segment with
    | ['.'] => resolve (onTop before) rest
    | ['.', '.'] => resolve (onTop before.tail) rest
    | _ => resolve (segment :: before) rest

def resolved (path : List Char) : List Char :=
  match path with
  | '/' :: rest => '/' :: ['/'].intercalate (resolve [] (pieces '/' rest))
  | _ => path

def queryOf (behind : List Char) : List Char :=
  match behind with
  | '?' :: query => query.takeWhile (· ≠ '#')
  | _ => []

def ofAuthority? (scheme : String) (cs : List Char) : Option Url := do
  let authority := cs.takeWhile (!endsAuthority ·)
  let behind := cs.drop authority.length
  let (info, place) := splitUser authority
  let user := info.takeWhile (· ≠ ':')
  let password := info.drop (user.length + 1)
  let (host, rest) := splitHost false place
  let (port, rest) ← port? rest
  let unnamed := place = [] ∧ user = [] ∧ password = [] ∧ (authority = ['@'] → behind = [])
  let tail := rest ++ behind
  let path := tail.takeWhile (!endsPath ·)
  if isHost host ∧ (host ≠ [] ∨ unnamed) then
    some {
      scheme, port
      user := String.ofList user
      password := if password = [] then none else some (String.ofList password)
      host := String.ofList host
      path := resolved (if path.head?.all (· = '/') then path else '/' :: path)
      query := queryOf (tail.drop path.length) }
  else none

def read? (written : String) : Option Url :=
  let cs := cleaned written
  let scheme := cs.takeWhile isSchemeChar
  let named := String.ofList (scheme.map Char.toLower)
  if scheme.head?.any Char.isAlpha then
    match cs.drop scheme.length with
    | ':' :: '/' :: '/' :: rest => ofAuthority? named rest
    | ':' :: rest =>
      let path := rest.takeWhile (!endsPath ·)
      some {
        scheme := named, user := "", password := none, host := "", port := none
        path := resolved path, query := queryOf (rest.drop path.length) }
    | _ => none
  else none

def fieldText (cs : List Char) : String :=
  readable (unescape (utf8Chars (cs.map fun c => if c = '+' then ' ' else c)))

def fields (url : Url) : List (String × String) :=
  ((pieces '&' url.query).filter (· ≠ [])).map fun pair =>
    let name := pair.takeWhile (· ≠ '=')
    (fieldText name, fieldText (pair.drop (name.length + 1)))

-- Of fields with one name the last counts.
def field? (url : Url) (name : String) : Option String :=
  (url.fields.reverse.find? (·.1 == name)).map (·.2)

end Url
end PagePress
