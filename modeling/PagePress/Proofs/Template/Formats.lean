import PagePress.Proofs.Template.Directives

namespace PagePress.Template

open Numeral

section Reading

variable {cs : List Char}

theorem exists_run (p : Char → Bool) (cs : List Char) :
    ∃ run rest, cs = run ++ rest ∧ (∀ c ∈ run, p c = true) ∧ ∀ c ∈ rest.head?, p c = false := by
  refine ⟨cs.takeWhile p, cs.dropWhile p, List.takeWhile_append_dropWhile.symm,
    fun c member => List.mem_takeWhile_imp member, fun c member => ?_⟩
  have stops := List.head?_dropWhile_not p cs
  rw [Option.mem_def.mp member] at stops
  exact stops

theorem exists_width (begins : ∀ c ∈ cs.head?, isFlag c = false) :
    ∃ (width : Option Nat) (rest : List Char), cs = width.elim [] decimalDigits ++ rest ∧
      (∀ w ∈ width, 0 < w) ∧
      ∀ c ∈ rest.head?, c.isDigit = false ∧ (width = none → isFlag c = false) := by
  obtain ⟨run, rest, rfl, digits, stops⟩ := exists_run Char.isDigit cs
  by_cases empty : run = []
  · subst empty
    exact ⟨none, rest, rfl, by simp, fun c member => ⟨stops c member, fun _ => begins c member⟩⟩
  · have nonzero : run.head? ≠ some '0' := by
      intro zero
      have flag := begins '0' (by simp [List.head?_append, zero])
      exact absurd flag (by decide)
    have whole : Whole run := ⟨⟨digits, empty⟩, fun zero => absurd zero nonzero⟩
    have written : decimalDigits (digitsValue run) = run := whole.decimalDigits_digitsValue
    refine ⟨some (digitsValue run), rest, by simp [written], ?_,
      fun c member => ⟨stops c member, fun none => by cases none⟩⟩
    rintro _ ⟨⟩
    -- A zero alone would begin with a flag.
    refine Nat.pos_of_ne_zero fun zero => nonzero ?_
    rw [zero, decimalDigits_zero] at written
    rw [← written]
    rfl

theorem exists_places (begins : ∀ c ∈ cs.head?, c.isDigit = false) :
    ∃ (places : Option (List Char)) (rest : List Char), cs = pointed places ++ rest ∧
      (∀ ds ∈ places, ∀ c ∈ ds, c.isDigit = true) ∧
      ∀ c ∈ rest.head?, c.isDigit = false ∧ (places = none → c ∈ cs.head? ∧ c ≠ '.') := by
  by_cases point : cs.head? = some '.'
  · obtain ⟨behind, rfl⟩ := List.head?_eq_some_iff.mp point
    obtain ⟨run, rest, rfl, digits, stops⟩ := exists_run Char.isDigit behind
    refine ⟨some run, rest, rfl, ?_, fun c member => ⟨stops c member, fun none => by cases none⟩⟩
    rintro _ ⟨⟩
    exact digits
  · refine ⟨none, cs, rfl, by simp, fun c member => ⟨begins c member, fun _ => ⟨member, ?_⟩⟩⟩
    rintro rfl
    exact point member

theorem exists_shape (cs : List Char) :
    ∃ (shape : Shape) (rest : List Char), cs = shape.chars ++ rest ∧
      ∀ c ∈ rest.head?, shape.Ends c := by
  obtain ⟨flags, sized, rfl, flagged, begins⟩ := exists_run isFlag cs
  obtain ⟨width, behind, rfl, positive, after⟩ := exists_width begins
  obtain ⟨places, rest, rfl, digits, ends⟩ := exists_places fun c member => (after c member).1
  refine ⟨⟨flags, width, places, flagged, positive, digits⟩, rest, ?_, fun c member => ?_⟩
  · simp [Shape.chars, Shape.widthChars]
  · refine ⟨(ends c member).1, fun none => ?_⟩
    obtain ⟨first, point⟩ := (ends c member).2 none
    exact ⟨point, (after c first).2⟩

variable {shape other : Shape} {rest later : List Char}

theorem head_pointed_eq_point (ends : ∀ c ∈ rest.head?, shape.Ends c) :
    (pointed shape.places ++ rest).head? = some '.' ↔ shape.places.isSome := by
  cases given : shape.places with
  | none => simpa [pointed] using fun point => ((ends '.' point).2 given).1 rfl
  | some ds => simp [pointed]

theorem places_unique (ends : ∀ c ∈ rest.head?, shape.Ends c)
    (ends' : ∀ c ∈ later.head?, other.Ends c)
    (same : pointed shape.places ++ rest = pointed other.places ++ later) :
    shape.places = other.places ∧ rest = later := by
  have both : shape.places.isSome ↔ other.places.isSome := by
    rw [← head_pointed_eq_point ends, ← head_pointed_eq_point ends', same]
  cases given : shape.places with
  | none =>
    have given' : other.places = none := by simpa [given] using both
    rw [given, given'] at same
    exact ⟨given'.symm, same⟩
  | some ds =>
    obtain ⟨ds', given'⟩ := Option.isSome_iff_exists.mp (both.mp (by simp [given]))
    rw [given, given', pointed, pointed, List.cons_append, List.cons_append] at same
    obtain ⟨run, behind⟩ := takeWhile_dropWhile_of_head (shape.digits ds given)
      fun c member => (ends c member).1
    obtain ⟨run', behind'⟩ := takeWhile_dropWhile_of_head (other.digits ds' given')
      fun c member => (ends' c member).1
    rw [(List.cons.inj same).2] at run behind
    rw [given', ← run.symm.trans run']
    exact ⟨rfl, behind.symm.trans behind'⟩

theorem shape_unique (ends : ∀ c ∈ rest.head?, shape.Ends c)
    (ends' : ∀ c ∈ later.head?, other.Ends c)
    (same : shape.chars ++ rest = other.chars ++ later) : shape = other ∧ rest = later := by
  obtain ⟨flags, sized, digits, point⟩ := shape_split ends
  obtain ⟨flags', sized', digits', point'⟩ := shape_split ends'
  rw [same] at flags sized
  rw [sized.symm.trans sized'] at digits point
  have widths := congrArg readCount (digits.symm.trans digits')
  rw [readCount_widthChars, readCount_widthChars] at widths
  obtain ⟨places, left⟩ := places_unique ends ends' (point.symm.trans point')
  exact ⟨Shape.ext (flags.symm.trans flags') widths places, left⟩

end Reading

section Formats

@[ext]
structure Portion where
  text : List Char
  shape : Shape
  verb : Char
  plain : '%' ∉ text
  ends : shape.Ends verb

namespace Portion

variable (portion : Portion)

def chars : List Char := portion.text ++ '%' :: (portion.shape.chars ++ [portion.verb])

def takes : Nat := if portion.verb = '%' then 0 else 1

def printed (arg : Option Json) : List Char :=
  portion.text ++ (portion.shape.complaints ++
    if portion.verb = '%' then ['%'] else verbText portion.verb portion.shape.spec arg)

def panics (arg : Option Json) : Bool := arg.any (exceedsPlaces portion.verb portion.shape.spec)

theorem sprintf_chars_append (rest : List Char) (args : List Json) :
    sprintf (portion.chars ++ rest) args =
      if portion.panics args[0]? then none
      else (sprintf rest (args.drop portion.takes)).map (portion.printed args[0]? ++ ·) := by
  have spelled : portion.chars ++ rest =
      portion.text ++ '%' :: (portion.shape.chars ++ portion.verb :: rest) := by
    simp [chars]
  have read : readDirective (portion.shape.chars ++ portion.verb :: rest) =
      ⟨portion.shape.spec, portion.shape.complaints, portion.verb :: rest⟩ := by
    apply readDirective_shape
    rintro _ ⟨⟩
    exact portion.ends
  rw [spelled, sprintf_directive portion.plain, read]
  by_cases percent : portion.verb = '%'
  · have printable : portion.panics args[0]? = false := by
      cases args[0]? with
      | none => rfl
      | some arg => simp [panics, exceedsPlaces, percent]
    rw [verbOn_percent (congrArg (· :: rest) percent), printable]
    simp [printed, takes, percent, Function.comp_def]
  · cases args with
    | nil => simp [verbOn, panics, printed, takes, percent, Function.comp_def]
    | cons arg args =>
      rw [verbOn_arg rfl percent, panics, List.getElem?_cons_zero, Option.any_some]
      split
      · rfl
      · simp [printed, takes, percent, verbText, Function.comp_def]

end Portion

-- A format in its parts. One that ends inside a directive has a shape without a verb.
structure FormatParts where
  portions : List Portion
  text : List Char
  plain : '%' ∉ text
  unfinished : Option Shape

namespace FormatParts

variable (parts : FormatParts)

def endChars : List Char := parts.text ++ parts.unfinished.elim [] fun shape => '%' :: shape.chars

def chars : List Char := parts.portions.flatMap Portion.chars ++ parts.endChars

def taken (directives : Nat) : Nat := ((parts.portions.take directives).map Portion.takes).sum

def left (args : List Json) : List Json := args.drop (parts.taken parts.portions.length)

def endPrinted (args : List Json) : List Char :=
  parts.text ++
    (parts.unfinished.elim [] (fun shape => shape.complaints ++ "%!(NOVERB)".toList) ++
      if parts.left args = [] then []
      else
        "%!(EXTRA ".toList ++ Json.joinWith ", ".toList ((parts.left args).map typedText) ++ [')'])

def argument (args : List Json) (place : Nat) : Option Json := args[parts.taken place]?

def panics (args : List Json) : Bool :=
  (parts.portions.mapIdx fun place portion => portion.panics (parts.argument args place)).any id

def printed (args : List Json) : List Char :=
  (parts.portions.mapIdx fun place portion =>
    portion.printed (parts.argument args place)).flatten ++ parts.endPrinted args

def cons (portion : Portion) : FormatParts :=
  { parts with portions := portion :: parts.portions }

theorem chars_cons (portion : Portion) :
    (parts.cons portion).chars = portion.chars ++ parts.chars := by
  simp [chars, cons, endChars]

theorem taken_cons_succ (portion : Portion) (directives : Nat) :
    (parts.cons portion).taken (directives + 1) = portion.takes + parts.taken directives := by
  simp [taken, cons]

theorem argument_cons_succ (portion : Portion) (args : List Json) (place : Nat) :
    (parts.cons portion).argument args (place + 1) =
      parts.argument (args.drop portion.takes) place := by
  rw [argument, argument, taken_cons_succ, List.getElem?_drop]

theorem panics_cons (portion : Portion) (args : List Json) :
    (parts.cons portion).panics args =
      (portion.panics args[0]? || parts.panics (args.drop portion.takes)) := by
  have first : (parts.cons portion).argument args 0 = args[0]? := rfl
  rw [panics, panics]
  simp only [cons, List.mapIdx_cons, List.any_cons, id_eq]
  rw [← cons, first]
  simp only [argument_cons_succ]

theorem printed_cons (portion : Portion) (args : List Json) :
    (parts.cons portion).printed args =
      portion.printed args[0]? ++ parts.printed (args.drop portion.takes) := by
  have first : (parts.cons portion).argument args 0 = args[0]? := rfl
  have left : (parts.cons portion).left args = parts.left (args.drop portion.takes) := by
    rw [FormatParts.left, FormatParts.left, List.drop_drop, ← taken_cons_succ]
    rfl
  have tail : (parts.cons portion).endPrinted args =
      parts.endPrinted (args.drop portion.takes) := by
    rw [endPrinted, endPrinted, left]
    rfl
  rw [printed, printed, tail]
  simp only [cons, List.mapIdx_cons, List.flatten_cons, List.append_assoc]
  rw [← cons, first]
  simp only [argument_cons_succ]

theorem sprintf_endChars (args : List Json) (last : parts.portions = []) :
    sprintf parts.endChars args = some (parts.endPrinted args) := by
  have every : parts.left args = args := by
    rw [left, last]
    rfl
  have extra : extraText args = if args = [] then [] else
      "%!(EXTRA ".toList ++ Json.joinWith ", ".toList (args.map typedText) ++ [')'] := by
    cases args <;> rfl
  rw [endChars, endPrinted, every, ← extra]
  cases parts.unfinished with
  | none => simpa using sprintf_text parts.plain args
  | some shape =>
    have ended : ∀ c ∈ ([] : List Char).head?, shape.Ends c := nofun
    have read : readDirective shape.chars = ⟨shape.spec, shape.complaints, []⟩ := by
      simpa using readDirective_shape ended
    rw [Option.elim_some, Option.elim_some, sprintf_directive parts.plain, read]
    simp [verbOn]

theorem sprintf_chars (args : List Json) :
    sprintf parts.chars args =
      if parts.panics args then none else some (parts.printed args) := by
  obtain ⟨portions, text, plain, unfinished⟩ := parts
  induction portions generalizing args with
  | nil => exact sprintf_endChars _ args rfl
  | cons portion portions ih =>
    have apart := chars_cons ⟨portions, text, plain, unfinished⟩ portion
    have shown := printed_cons ⟨portions, text, plain, unfinished⟩ portion args
    have fails := panics_cons ⟨portions, text, plain, unfinished⟩ portion args
    rw [cons] at apart shown fails
    rw [apart, shown, fails, portion.sprintf_chars_append, ih]
    cases portion.panics args[0]? with
    | true => rfl
    | false =>
      rw [Bool.false_or, if_neg Bool.false_ne_true]
      split <;> rfl

theorem exists_chars_eq (format : List Char) : ∃ parts : FormatParts, parts.chars = format := by
  induction size : format.length using Nat.strong_induction_on generalizing format with
  | _ size ih =>
    by_cases marked : '%' ∈ format
    · obtain ⟨text, behind, rfl, plain⟩ := List.eq_append_cons_of_mem marked
      obtain ⟨shape, rest, rfl, ends⟩ := exists_shape behind
      cases rest with
      | nil => exact ⟨⟨[], text, plain, some shape⟩, by simp [chars, endChars]⟩
      | cons verb rest =>
        obtain ⟨parts, rfl⟩ := ih rest.length (by simp [← size]; omega) rest rfl
        refine ⟨parts.cons ⟨text, shape, verb, plain, ends verb rfl⟩, ?_⟩
        rw [chars_cons]
        simp [Portion.chars]
    · exact ⟨⟨[], format, marked, none⟩, by simp [chars, endChars]⟩

theorem head_percent (cs : List Char) : ∀ c ∈ ('%' :: cs).head?, decide (c ≠ '%') = false := by
  rintro _ ⟨⟩
  rfl

def opening : Option (List Char × Shape × List Char) :=
  match parts.portions with
  | portion :: portions =>
    some (portion.text, portion.shape, portion.verb :: { parts with portions }.chars)
  | [] => parts.unfinished.map fun shape => (parts.text, shape, [])

theorem opening_spec :
    (parts.opening = none ∧ '%' ∉ parts.chars) ∨
      ∃ text shape rest, parts.opening = some (text, shape, rest) ∧ '%' ∉ text ∧
        (∀ c ∈ rest.head?, shape.Ends c) ∧ parts.chars = text ++ '%' :: (shape.chars ++ rest) := by
  obtain ⟨portions, text, plain, unfinished⟩ := parts
  cases portions with
  | nil =>
    cases unfinished with
    | none => exact .inl ⟨rfl, by simpa [chars, endChars] using plain⟩
    | some shape => exact .inr ⟨text, shape, [], rfl, plain, by simp, by simp [chars, endChars]⟩
  | cons portion portions =>
    refine .inr ⟨portion.text, portion.shape, _, rfl, portion.plain, ?_, ?_⟩
    · rintro _ ⟨⟩
      exact portion.ends
    · simp [chars, endChars, Portion.chars]

theorem opening_unique {parts other : FormatParts} (same : parts.chars = other.chars) :
    parts.opening = other.opening := by
  rcases parts.opening_spec with ⟨none, bare⟩ | ⟨text, shape, rest, some, plain, ends, spelled⟩ <;>
    rcases other.opening_spec with
      ⟨none', bare'⟩ | ⟨text', shape', rest', some', plain', ends', spelled'⟩
  · rw [none, none']
  · rw [same, spelled'] at bare
    simp at bare
  · rw [← same, spelled] at bare'
    simp at bare'
  · have joined := spelled.symm.trans (same.trans spelled')
    obtain ⟨before, behind⟩ := takeWhile_dropWhile_of_head (ne_percent plain)
      (head_percent (shape.chars ++ rest))
    obtain ⟨before', behind'⟩ := takeWhile_dropWhile_of_head (ne_percent plain')
      (head_percent (shape'.chars ++ rest'))
    rw [joined] at before behind
    obtain ⟨shapes, left⟩ :=
      shape_unique ends ends' (List.cons.inj (behind.symm.trans behind')).2
    rw [some, some', ← before.symm.trans before', shapes, left]

theorem chars_inj {parts other : FormatParts} (same : parts.chars = other.chars) :
    parts = other := by
  obtain ⟨portions, text, plain, unfinished⟩ := parts
  obtain ⟨portions', text', plain', unfinished'⟩ := other
  have openings := opening_unique same
  induction portions generalizing portions' with
  | nil =>
    cases portions' with
    | nil =>
      have shapes : unfinished = unfinished' := by
        simpa [opening, Function.comp_def] using congrArg (Option.map (·.2.1)) openings
      subst shapes
      obtain rfl : text = text' := by simpa [chars, endChars] using same
      rfl
    | cons portion portions' => cases unfinished <;> simp [opening] at openings
  | cons portion portions ih =>
    cases portions' with
    | nil => cases unfinished' <;> simp [opening] at openings
    | cons portion' portions' =>
      simp only [opening, Option.some.injEq, Prod.mk.injEq, List.cons.injEq] at openings
      obtain ⟨texts, shapes, verbs, later⟩ := openings
      obtain rfl : portion = portion' := Portion.ext texts shapes verbs
      cases ih portions' later (opening_unique later)
      rfl

-- Every format is put together in one way, and each of its directives is printed with the argument
-- that is next by then, unless one of them panics.
theorem sprintf_by_parts (format : List Char) :
    ∃ parts : FormatParts, parts.chars = format ∧
      (∀ other : FormatParts, other.chars = format → other = parts) ∧
      ∀ args, sprintf format args =
        if parts.panics args then none else some (parts.printed args) := by
  obtain ⟨parts, rfl⟩ := exists_chars_eq format
  exact ⟨parts, rfl, fun other same => chars_inj same, parts.sprintf_chars⟩

theorem sprintf_places_panic :
    sprintf "%.65536f".toList [.num (.int 1 (by decide))] = none := by
  cbv

end FormatParts

end Formats
end PagePress.Template
