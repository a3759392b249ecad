namespace PagePress.Http

def isTokenChar (c : Char) : Bool :=
  c.isAlphanum ||
    c ∈ ['!', '#', '$', '%', '&', '\'', '*', '+', '-', '.', '^', '_', '\x60', '|', '~']

def lower (cs : List Char) : String := String.ofList (cs.map Char.toLower)

structure MediaType where
  kind : String
  subtype : String
  parameters : List (String × String)
  deriving DecidableEq, Repr

namespace MediaType

abbrev Value := List Char × List Char

def bareValue? (cs : List Char) : Option Value :=
  match cs.dropWhile isTokenChar with
  | [] => some (cs, [])
  | c :: rest =>
    let word := cs.takeWhile isTokenChar
    if c = ';' ∧ word ≠ [] then some (word, rest) else none

def isQuotable (c : Char) : Bool := 0x20 ≤ c.toNat && c.toNat < 0x7F

def afterQuotes? (cs : List Char) : Option (List Char) :=
  match cs.dropWhile (· = ' ') with
  | [] => some []
  | c :: rest => if c = ';' then some rest else none

-- At least one character stands between quotes, and the first one may be a quote.
def quotedValue? : List Char → Option Value
  | [] => none
  | first :: cs =>
    match cs.dropWhile (· ≠ '"') with
    | [] => none
    | _ :: rest =>
      let value := first :: cs.takeWhile (· ≠ '"')
      if value.all isQuotable then (afterQuotes? rest).map (value, ·) else none

def value? : List Char → Option Value
  | '"' :: quoted => quotedValue? quoted
  | bare => bareValue? bare

def parameter? (cs : List Char) : Option ((String × String) × List Char) :=
  match cs.dropWhile isTokenChar with
  | [] => none
  | c :: written =>
    let name := cs.takeWhile isTokenChar
    if c = '=' ∧ name ≠ [] then
      (value? written).map fun (value, rest) => ((lower name, String.ofList value), rest)
    else none

theorem rest_lt {p : Char → Bool} {cs rest : List Char} {c : Char}
    (dropped : cs.dropWhile p = c :: rest) : rest.length < cs.length := by
  have le := (List.dropWhile_suffix p (l := cs)).length_le
  rw [dropped, List.length_cons] at le
  omega

theorem bareValue?_length {cs value rest : List Char} (read : bareValue? cs = some (value, rest)) :
    rest.length ≤ cs.length := by
  unfold bareValue? at read
  split at read
  · cases read
    exact Nat.zero_le _
  · rename_i dropped
    dsimp only at read
    split at read <;> cases read
    exact Nat.le_of_lt (rest_lt dropped)

theorem afterQuotes?_length {cs rest : List Char} (read : afterQuotes? cs = some rest) :
    rest.length ≤ cs.length := by
  unfold afterQuotes? at read
  split at read
  · cases read
    exact Nat.zero_le _
  · rename_i dropped
    split at read <;> cases read
    exact Nat.le_of_lt (rest_lt dropped)

theorem quotedValue?_length {cs value rest : List Char}
    (read : quotedValue? cs = some (value, rest)) : rest.length ≤ cs.length := by
  unfold quotedValue? at read
  split at read
  · cases read
  · split at read
    · cases read
    · rename_i dropped
      dsimp only at read
      split at read
      · obtain ⟨_, behind, same⟩ := Option.map_eq_some_iff.mp read
        cases same
        have le := afterQuotes?_length behind
        have lt := rest_lt dropped
        simp only [List.length_cons]
        omega
      · cases read

theorem value?_length {cs value rest : List Char} (read : value? cs = some (value, rest)) :
    rest.length ≤ cs.length := by
  unfold value? at read
  split at read
  · exact Nat.le_succ_of_le (quotedValue?_length read)
  · exact bareValue?_length read

theorem parameter?_length {cs rest : List Char} {given : String × String}
    (read : parameter? cs = some (given, rest)) : rest.length < cs.length := by
  unfold parameter? at read
  split at read
  · cases read
  · rename_i dropped
    dsimp only at read
    split at read
    · obtain ⟨_, valued, same⟩ := Option.map_eq_some_iff.mp read
      cases same
      exact Nat.lt_of_le_of_lt (value?_length valued) (rest_lt dropped)
    · cases read

def parameters? (cs : List Char) : Option (List (String × String)) :=
  if cs.all (· = ' ') then some []
  else
    match _ : parameter? (cs.dropWhile (· = ' ')) with
    | none => none
    | some (given, rest) => (parameters? rest).map (given :: ·)
termination_by cs.length
decreasing_by
  have := parameter?_length ‹_›
  have := (List.dropWhile_suffix (fun c : Char => decide (c = ' ')) (l := cs)).length_le
  omega

-- The last plus sign and what stands behind it do not count, unless nothing stands before it.
def stem : List Char → List Char
  | [] => []
  | first :: cs =>
    match cs.reverse.dropWhile (· ≠ '+') with
    | [] => first :: cs
    | _ :: before => first :: before.reverse

def read? (text : String) : Option MediaType := do
  let cs := text.toList
  let kind := cs.takeWhile isTokenChar
  let '/' :: behind := cs.drop kind.length | none
  let subtype := behind.takeWhile isTokenChar
  let found (parameters : List (String × String)) : MediaType :=
    ⟨lower kind, lower (stem subtype), parameters⟩
  if kind = [] then none
  else match behind.drop subtype.length with
    | [] => some (found [])
    | c :: rest => if c = ';' ∧ subtype ≠ [] then (parameters? rest).map found else none

-- Of parameters with one name the first counts.
def parameter (media : MediaType) (name : String) : Option String :=
  (media.parameters.find? (·.1 == name)).map (·.2)

end MediaType
end PagePress.Http
