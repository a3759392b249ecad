import PagePress.Proofs.Numeral.Digits
import PagePress.Template.Builtin

namespace PagePress.Template

open Numeral

section Reading

theorem dropWhile_append_of_stops {p : Char → Bool} {cs : List Char} (stops : cs.dropWhile p ≠ [])
    (more : List Char) : (cs ++ more).dropWhile p = cs.dropWhile p ++ more := by
  rw [List.dropWhile_append, if_neg (by simpa using stops)]

theorem takeWhile_append_of_stops {p : Char → Bool} {cs : List Char} (stops : cs.dropWhile p ≠ [])
    (more : List Char) : (cs ++ more).takeWhile p = cs.takeWhile p := by
  rw [List.takeWhile_append, if_neg]
  intro whole
  have lengths := congrArg List.length (List.takeWhile_append_dropWhile (p := p) (l := cs))
  rw [List.length_append, whole] at lengths
  exact stops (List.eq_nil_of_length_eq_zero (by omega))

theorem readPrecision_append {cs : List Char} (stops : (readPrecision cs).2 ≠ [])
    (more : List Char) :
    readPrecision (cs ++ more) = ((readPrecision cs).1, (readPrecision cs).2 ++ more) := by
  rw [readPrecision.eq_def] at stops
  split at stops
  · rename_i r
    dsimp only at stops
    rw [List.cons_append, readPrecision, readPrecision, takeWhile_append_of_stops stops,
      dropWhile_append_of_stops stops]
  · rename_i other
    obtain ⟨c, r, rfl⟩ := List.exists_cons_of_ne_nil stops
    have point : c ≠ '.' := fun same => other r (by rw [same])
    have plain (r : List Char) : readPrecision (c :: r) = ((none, []), c :: r) := by
      rw [readPrecision.eq_def]
      split
      · rename_i same
        exact absurd (List.cons.inj same).1 point
      · rfl
    rw [List.cons_append, plain, plain]
    rfl

-- A directive is told by its own characters once its verb is there.
theorem readDirective_append {cs : List Char} (stops : (readDirective cs).rest ≠ [])
    (more : List Char) :
    readDirective (cs ++ more) =
      { readDirective cs with rest := (readDirective cs).rest ++ more } := by
  have third : (readPrecision ((cs.dropWhile isFlag).dropWhile Char.isDigit)).2 ≠ [] := stops
  have second : (cs.dropWhile isFlag).dropWhile Char.isDigit ≠ [] := by
    intro none
    rw [none] at third
    exact third rfl
  have first : cs.dropWhile isFlag ≠ [] := by
    intro none
    rw [none] at second
    exact second rfl
  rw [readDirective, readDirective]
  dsimp only
  rw [takeWhile_append_of_stops first, dropWhile_append_of_stops first,
    takeWhile_append_of_stops second, dropWhile_append_of_stops second,
    readPrecision_append third]

end Reading

section Formats

def verbText (verb : Char) (spec : Spec) : Option Json → List Char
  | none => '%' :: '!' :: verb :: "(MISSING)".toList
  | some arg => argumentText verb spec arg

def verbOn (directive : Directive) (args : List Json) : Option (List Char) :=
  match directive.rest with
  | [] => some ("%!(NOVERB)".toList ++ extraText args)
  | verb :: rest =>
    if verb = '%' then (sprintf rest args).map ('%' :: ·)
    else if args.head?.any (exceedsPlaces verb directive.spec) then none
    else (sprintf rest args.tail).map (verbText verb directive.spec args.head? ++ ·)

variable {cs behind rest : List Char} {verb : Char}

theorem verbOn_percent {directive : Directive} (left : directive.rest = '%' :: rest)
    (args : List Json) : verbOn directive args = (sprintf rest args).map ('%' :: ·) := by
  rw [verbOn, left]
  rfl

theorem verbOn_arg {directive : Directive} (left : directive.rest = verb :: rest)
    (other : verb ≠ '%') (arg : Json) (args : List Json) :
    verbOn directive (arg :: args) =
      if exceedsPlaces verb directive.spec arg then none
      else (sprintf rest args).map (argumentText verb directive.spec arg ++ ·) := by
  rw [verbOn, left]
  exact if_neg other

theorem ne_percent (plain : '%' ∉ cs) : ∀ c ∈ cs, decide (c ≠ '%') = true := by
  intro c member
  rw [decide_eq_true_eq]
  rintro rfl
  exact plain member

theorem sprintf_text (plain : '%' ∉ cs) (args : List Json) :
    sprintf cs args = some (cs ++ extraText args) := by
  have other := ne_percent plain
  rw [sprintf.eq_def]
  dsimp only
  split
  · rw [List.takeWhile_eq_self_iff.mpr other]
  · rename_i found
    cases (List.dropWhile_eq_nil_iff.mpr other).symm.trans found

theorem sprintf_directive (plain : '%' ∉ cs) (behind : List Char) (args : List Json) :
    sprintf (cs ++ '%' :: behind) args =
      (verbOn (readDirective behind) args).map fun later =>
        cs ++ ((readDirective behind).complaints ++ later) := by
  have other := ne_percent plain
  have text : (cs ++ '%' :: behind).takeWhile (· ≠ '%') = cs := by
    rw [List.takeWhile_append_of_pos other, List.takeWhile_cons_of_neg (by decide), List.append_nil]
  have directive : (cs ++ '%' :: behind).dropWhile (· ≠ '%') = '%' :: behind := by
    rw [List.dropWhile_append_of_pos other, List.dropWhile_cons_of_neg (by decide)]
  rw [sprintf.eq_def]
  dsimp only
  split
  · rename_i none
    cases directive.symm.trans none
  · rename_i found
    obtain ⟨-, rfl⟩ := List.cons.inj (directive.symm.trans found)
    rw [text, verbOn]
    split
    · rename_i left
      rw [left]
      simp
    · rename_i verb rest left
      rw [left]
      dsimp only
      split
      · rw [Option.map_map]
        congr 1
        funext later
        simp
      · cases args with
        | nil => simp [verbText, Function.comp_def]
        | cons arg args =>
          simp only [formatVerb, List.head?_cons, Option.any_some, List.tail_cons]
          by_cases panics : exceedsPlaces verb (readDirective behind).spec arg = true
          · simp [panics]
          · simp [panics, verbText, Function.comp_def]

theorem sprintf_text_append (plain : '%' ∉ cs) (after : List Char) (args : List Json) :
    sprintf (cs ++ after) args = (sprintf after args).map (cs ++ ·) := by
  by_cases marked : '%' ∈ after
  · obtain ⟨ds, behind, rfl, bare⟩ := List.eq_append_cons_of_mem marked
    have both : '%' ∉ cs ++ ds := by
      rw [List.mem_append]
      exact not_or.mpr ⟨plain, bare⟩
    rw [← List.append_assoc, sprintf_directive both, sprintf_directive bare, Option.map_map]
    simp [Function.comp_def]
  · have both : '%' ∉ cs ++ after := by
      rw [List.mem_append]
      exact not_or.mpr ⟨plain, marked⟩
    rw [sprintf_text both, sprintf_text marked, List.append_assoc, Option.map_some]

inductive Takes : List Char → Nat → Prop
  | text {cs : List Char} (plain : '%' ∉ cs) : Takes cs 0
  | percent {cs behind rest : List Char} {n : Nat} (plain : '%' ∉ cs)
      (left : (readDirective behind).rest = '%' :: rest) (later : Takes rest n) :
    Takes (cs ++ '%' :: behind) n
  | verb {cs behind rest : List Char} {verb : Char} {n : Nat} (plain : '%' ∉ cs)
      (left : (readDirective behind).rest = verb :: rest) (other : verb ≠ '%')
      (later : Takes rest n) :
    Takes (cs ++ '%' :: behind) (n + 1)

theorem sprintf_append {before : List Char} {n : Nat} (takes : Takes before n) (after : List Char)
    {taken : List Json} (enough : taken.length = n) (later : List Json) :
    sprintf (before ++ after) (taken ++ later) =
      (sprintf before taken).bind fun head => (sprintf after later).map (head ++ ·) := by
  induction takes generalizing taken with
  | text plain =>
    obtain rfl := List.eq_nil_of_length_eq_zero enough
    rw [List.nil_append, sprintf_text_append plain, sprintf_text plain, extraText,
      if_pos List.isEmpty_nil, List.append_nil, Option.bind_some]
  | @percent cs behind rest n plain left _ ih =>
    have more := readDirective_append (by rw [left]; exact List.cons_ne_nil _ _) after
    have goesOn : (readDirective (behind ++ after)).rest = '%' :: (rest ++ after) := by
      rw [more, left]
      rfl
    rw [List.append_assoc, List.cons_append, sprintf_directive plain, sprintf_directive plain,
      verbOn_percent left, verbOn_percent goesOn, ih enough, more]
    cases sprintf rest taken with
    | none => rfl
    | some head => simp [Function.comp_def]
  | @verb cs behind rest verb n plain left other _ ih =>
    obtain ⟨arg, taken, rfl⟩ := List.exists_cons_of_length_eq_add_one enough
    have more := readDirective_append (by rw [left]; exact List.cons_ne_nil _ _) after
    have goesOn : (readDirective (behind ++ after)).rest = verb :: (rest ++ after) := by
      rw [more, left]
      rfl
    rw [List.append_assoc, List.cons_append, sprintf_directive plain, sprintf_directive plain,
      List.cons_append, verbOn_arg left other, verbOn_arg goesOn other,
      ih (Nat.succ.inj enough), more]
    split
    · rfl
    · cases sprintf rest taken with
      | none => rfl
      | some head => simp [Function.comp_def]

end Formats

section Shapes

-- What may stand between a percent sign and its verb. A width that began with a zero would be a
-- flag and the rest of it.
@[ext]
structure Shape where
  flags : List Char
  width : Option Nat
  places : Option (List Char)
  flagged : ∀ c ∈ flags, isFlag c = true
  positive : ∀ w ∈ width, 0 < w
  digits : ∀ ds ∈ places, ∀ c ∈ ds, c.isDigit = true

namespace Shape

variable (shape : Shape)

def widthChars : List Char := shape.width.elim [] decimalDigits

def chars : List Char := shape.flags ++ (shape.widthChars ++ pointed shape.places)

def precision : Option Nat := shape.places.map digitsValue

def fits (n : Nat) : Bool := n ≤ maxWidth

def spec : Spec where
  minus := shape.flags.contains '-'
  plus := shape.flags.contains '+'
  zero := shape.flags.contains '0'
  width := shape.width.filter fits
  precision := shape.precision.filter fits

def complaints : List Char :=
  (if shape.width.all fits then [] else "%!(BADWIDTH)".toList) ++
    if shape.precision.all fits then [] else "%!(BADPREC)".toList

end Shape

theorem bounded_eq (complaint : String) (n : Option Nat) :
    bounded complaint n =
      (n.filter Shape.fits, if n.all Shape.fits then [] else complaint.toList) := by
  cases n with
  | none => rfl
  | some n =>
    by_cases great : maxWidth < n
    · simp [bounded, Shape.fits, great, Option.filter]
    · simp [bounded, Shape.fits, great, Option.filter, Nat.le_of_not_lt great]

theorem takeWhile_dropWhile_of_head {p : Char → Bool} {cs ds : List Char}
    (kind : ∀ c ∈ cs, p c = true) (other : ∀ c ∈ ds.head?, p c = false) :
    (cs ++ ds).takeWhile p = cs ∧ (cs ++ ds).dropWhile p = ds := by
  rw [List.takeWhile_append_of_pos kind, List.dropWhile_append_of_pos kind]
  cases ds with
  | nil => simp
  | cons d ds => simp [other d rfl]

def Shape.Ends (shape : Shape) (c : Char) : Prop :=
  c.isDigit = false ∧ (shape.places = none → c ≠ '.' ∧ (shape.width = none → isFlag c = false))

def IsVerb (c : Char) : Prop := isFlag c = false ∧ c.isDigit = false ∧ c ≠ '.'

instance (c : Char) : Decidable (IsVerb c) := inferInstanceAs (Decidable (_ ∧ _))

theorem IsVerb.ends {c : Char} (stops : IsVerb c) (shape : Shape) : shape.Ends c :=
  ⟨stops.2.1, fun _ => ⟨stops.2.2, fun _ => stops.1⟩⟩

variable {shape : Shape} {rest : List Char}

theorem head_pointed (ends : ∀ c ∈ rest.head?, shape.Ends c) :
    ∀ c ∈ (pointed shape.places ++ rest).head?,
      c.isDigit = false ∧ (shape.width = none → isFlag c = false) := by
  cases given : shape.places with
  | none =>
    intro c member
    have stops := ends c member
    exact ⟨stops.1, (stops.2 given).2⟩
  | some ds =>
    rintro _ ⟨⟩
    exact ⟨rfl, fun _ => rfl⟩

theorem readPrecision_pointed (ends : ∀ c ∈ rest.head?, shape.Ends c) :
    readPrecision (pointed shape.places ++ rest) =
      (bounded "%!(BADPREC)" shape.precision, rest) := by
  rw [Shape.precision]
  cases given : shape.places with
  | none =>
    unfold readPrecision
    split
    · rename_i r same
      have point : '.' ∈ rest.head? := by
        rw [pointed, List.nil_append] at same
        simp [same]
      exact absurd rfl ((ends '.' point).2 given).1
    · rfl
  | some ds =>
    have value : (readCount ds).getD 0 = digitsValue ds := by
      rw [readCount]
      split
      · rename_i none
        rw [List.isEmpty_iff.mp none]
        rfl
      · rfl
    obtain ⟨run, behind⟩ := takeWhile_dropWhile_of_head (shape.digits ds given)
      fun c member => (ends c member).1
    rw [pointed, List.cons_append, readPrecision, run, behind, value]
    rfl

theorem isFlag_of_isDigit {c : Char} (digit : c.isDigit = true) (other : c ≠ '0') :
    isFlag c = false := by
  have differs {d : Char} (noDigit : d.isDigit = false) : c ≠ d := by
    rintro rfl
    exact Bool.false_ne_true (noDigit.symm.trans digit)
  simp [isFlag, other, differs (d := '-') rfl, differs (d := '+') rfl, differs (d := ' ') rfl,
    differs (d := '#') rfl]

theorem shape_split (ends : ∀ c ∈ rest.head?, shape.Ends c) :
    let sized := shape.widthChars ++ (pointed shape.places ++ rest)
    (shape.chars ++ rest).takeWhile isFlag = shape.flags ∧
      (shape.chars ++ rest).dropWhile isFlag = sized ∧
      sized.takeWhile Char.isDigit = shape.widthChars ∧
      sized.dropWhile Char.isDigit = pointed shape.places ++ rest := by
  intro sized
  have behind := head_pointed ends
  have width : ∀ c ∈ shape.widthChars, c.isDigit = true := by
    intro c member
    rw [Shape.widthChars] at member
    cases given : shape.width with
    | none =>
      rw [given] at member
      cases member
    | some w =>
      rw [given] at member
      exact isDigit_decimalDigits member
  have first : ∀ c ∈ sized.head?, isFlag c = false := by
    change ∀ c ∈ (shape.widthChars ++ (pointed shape.places ++ rest)).head?, isFlag c = false
    rw [Shape.widthChars]
    cases given : shape.width with
    | none => exact fun c member => (behind c member).2 given
    | some w =>
      obtain ⟨d, ds, begins, other⟩ := head_decimalDigits (shape.positive w given)
      have digit : d.isDigit = true := isDigit_decimalDigits (begins ▸ List.mem_cons_self)
      rw [Option.elim_some, begins]
      rintro _ ⟨⟩
      exact isFlag_of_isDigit digit other
  obtain ⟨flags, left⟩ := takeWhile_dropWhile_of_head shape.flagged first
  obtain ⟨digits, point⟩ := takeWhile_dropWhile_of_head width fun c member => (behind c member).1
  rw [Shape.chars, List.append_assoc, List.append_assoc]
  exact ⟨flags, left, digits, point⟩

theorem readCount_widthChars (shape : Shape) : readCount shape.widthChars = shape.width := by
  rw [Shape.widthChars]
  cases shape.width with
  | none => rfl
  | some w =>
    have nonempty := List.ne_nil_of_length_pos (length_decimalDigits_pos w)
    rw [Option.elim_some, readCount, if_neg (by simpa using nonempty)]
    exact congrArg some (digitsValue_decimalDigits w)

theorem readDirective_shape (ends : ∀ c ∈ rest.head?, shape.Ends c) :
    readDirective (shape.chars ++ rest) = ⟨shape.spec, shape.complaints, rest⟩ := by
  obtain ⟨flags, sized, digits, point⟩ := shape_split ends
  rw [readDirective, flags, sized, digits, point, readPrecision_pointed ends, readCount_widthChars,
    bounded_eq, bounded_eq]
  rfl

variable {verb : Char}

theorem readDirective_chars (shape : Shape) (stops : IsVerb verb) (rest : List Char) :
    readDirective (shape.chars ++ verb :: rest) = ⟨shape.spec, shape.complaints, verb :: rest⟩ := by
  apply readDirective_shape
  rintro _ ⟨⟩
  exact stops.ends shape

-- A place for a directive in a format: what stands around it, with the arguments of that and what
-- it is printed as. Where that panics, the whole format does.
structure Slot where
  before : List Char
  taken : List Json
  shape : Shape
  after : List Char
  later : List Json
  takes : Takes before taken.length
  head : List Char
  tail : List Char
  head_printed : sprintf before taken = some head
  tail_printed : sprintf after later = some tail

namespace Slot

def call (slot : Slot) (verb : Char) (arg : Json) : Except (Halt CallFault) Json :=
  Builtin.printf.call
    (.str (String.ofList (slot.before ++ '%' :: (slot.shape.chars ++ verb :: slot.after))) ::
      (slot.taken ++ arg :: slot.later))

def showing (slot : Slot) (text : List Char) : Json :=
  ofChars (slot.head ++ (slot.shape.complaints ++ (text ++ slot.tail)))

theorem call_eq (slot : Slot) (stops : IsVerb verb) (other : verb ≠ '%') {arg : Json}
    (few : exceedsPlaces verb slot.shape.spec arg = false) :
    slot.call verb arg = .ok (slot.showing (argumentText verb slot.shape.spec arg)) := by
  have alone := sprintf_directive (List.not_mem_nil (a := '%'))
    (slot.shape.chars ++ verb :: slot.after) (arg :: slot.later)
  rw [List.nil_append, readDirective_chars slot.shape stops, verbOn_arg rfl other,
    if_neg (Bool.eq_false_iff.mp few), slot.tail_printed] at alone
  rw [call, Builtin.call, String.toList_ofList, sprintf_append slot.takes _ rfl,
    slot.head_printed, alone]
  rfl

theorem showing_inj {slot : Slot} {text text' : List Char} :
    slot.showing text = slot.showing text' ↔ text = text' := by
  simp [showing, ofChars, String.ofList_inj]

end Slot

end Shapes

end PagePress.Template
