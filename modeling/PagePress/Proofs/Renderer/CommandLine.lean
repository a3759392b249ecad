import PagePress.Proofs.Document.Built
import PagePress.Proofs.Renderer.HandOver

namespace PagePress

open Chain

-- A value that an option may as well not have.
def Json.isIdle : Json → Bool
  | .null | .bool false | .arr _ | .obj _ => true
  | .str text => text.isEmpty
  | _ => false

theorem Json.isIdle_iff {value : Json} : value.isIdle = true ↔ value = .null ∨
    value = .bool false ∨ value = .str "" ∨ (∃ items, value = .arr items) ∨
      ∃ fields, value = .obj fields := by
  cases value with
  | bool b => cases b <;> simp [isIdle]
  | _ => simp [isIdle]

namespace Fields

def heeded (known : List String) (options : Fields) : Fields :=
  options.filter fun option => known.contains option.1 && !option.2.isIdle

def live? (options : Fields) (key : String) : Option Json :=
  (get? options key).filter (!·.isIdle)

theorem live?_eq_some {options : Fields} {key : String} {value : Json} :
    live? options key = some value ↔ get? options key = some value ∧ value.isIdle = false := by
  simp [live?, Option.filter_eq_some_iff]

variable {options others : Fields} {known : List String} {key : String}

theorem live?_iff_mem_heeded (distinct : (keys options).Nodup) (member : key ∈ known)
    {value : Json} : live? options key = some value ↔ (key, value) ∈ heeded known options := by
  rw [live?_eq_some, heeded, List.mem_filter]
  constructor
  · rintro ⟨found, live⟩
    exact ⟨mem_of_get? found, by simp [member, live]⟩
  · rintro ⟨inside, counts⟩
    exact ⟨get?_of_mem distinct inside, by simpa [member] using counts⟩

theorem live?_of_perm (distinct : (keys options).Nodup) (distinct' : (keys others).Nodup)
    (same : (heeded known options).Perm (heeded known others)) (member : key ∈ known) :
    live? options key = live? others key := by
  apply Option.ext
  intro value
  rw [live?_iff_mem_heeded distinct member, live?_iff_mem_heeded distinct' member, same.mem_iff]

-- What takes idle values for none sees the live ones only.
theorem eq_of_live {α : Type} {f : Option Json → α}
    (idle : ∀ value : Json, value.isIdle = true → f (some value) = f none)
    (same : live? options key = live? others key) :
    f (get? options key) = f (get? others key) := by
  have seen (options : Fields) : f (get? options key) = f (live? options key) := by
    rw [live?]
    cases get? options key with
    | none => rfl
    | some value =>
      by_cases counts : value.isIdle = true
      · simpa [Option.filter, counts] using idle value counts
      · simp [Option.filter, counts]
  rw [seen options, same, ← seen others]

end Fields

def optionsOf : Option Json → Fields
  | some (.obj options) => options
  | _ => []

theorem bind_get?_eq (part : Option Json) (key : String) :
    part.bind (·.get? key) = Fields.get? (optionsOf part) key := by
  cases part with
  | none => rfl
  | some value => cases value <;> rfl

theorem get?_optionsOf {part : Option Json} {key : String} {value : Json} :
    Fields.get? (optionsOf part) key = some value ↔
      ∃ options, part = some (.obj options) ∧ Fields.get? options key = some value := by
  cases part with
  | none => simp [optionsOf, Fields.get?]
  | some value => cases value <;> simp [optionsOf, Fields.get?]

theorem nodup_optionsOf {fields : Fields} (distinct : (Json.obj fields).Distinct) (key : String) :
    (Fields.keys (optionsOf (Fields.get? fields key))).Nodup := by
  rw [Json.Distinct, Json.distinctFields_forall] at distinct
  cases found : Fields.get? fields key with
  | none => exact .nil
  | some value =>
    have own := distinct.2 _ (Fields.mem_of_get? found)
    cases value with
    | obj options =>
      rw [Json.Distinct] at own
      exact own.1
    | _ => exact .nil

namespace Flag

inductive Shown : Json → Option String → Prop
  | alone : Shown (.bool true) none
  | text {value : String} (nonempty : value ≠ "") : Shown (.str value) (some value)
  | number (n : Number) : Shown (.num n) (some (String.ofList n.jsonText))

def shown : Json → Option (Option String)
  | .bool true => some none
  | .str value => if value.isEmpty then none else some (some value)
  | .num n => some (some (String.ofList n.jsonText))
  | _ => none

theorem shown_eq_some {value : Json} {behind : Option String} :
    shown value = some behind ↔ Shown value behind := by
  constructor
  · intro found
    unfold shown at found
    split at found
    · cases found
      exact .alone
    · split at found
      · cases found
      · rename_i nonempty
        cases found
        exact .text (by simpa using nonempty)
    · cases found
      exact .number _
    · cases found
  · rintro (_ | nonempty | _)
    · rfl
    · simpa [shown] using nonempty
    · rfl

theorem shown_of_idle {value : Json} (idle : value.isIdle = true) : shown value = none := by
  rcases Json.isIdle_iff.mp idle with rfl | rfl | rfl | ⟨items, rfl⟩ | ⟨fields, rfl⟩ <;> rfl

def items (table : List Flag) (options : Fields) : List (Flag × Option String) :=
  table.filterMap fun flag => ((Fields.get? options flag.key).bind shown).map (flag, ·)

def wordsOf (items : List (Flag × Option String)) : List String :=
  items.flatMap fun item => item.1.text :: item.2.toList

theorem words_eq (flag : Flag) (given : Option Json) :
    flag.words given = wordsOf ((given.bind shown).map (flag, ·)).toList := by
  cases given with
  | none => rfl
  | some value =>
    cases value with
    | bool b => cases b <;> rfl
    | str text => by_cases empty : text = "" <;> simp [words, shown, wordsOf, empty]
    | _ => rfl

theorem ofSection_eq (table : List Flag) (part : Option Json) :
    ofSection table part = wordsOf (items table (optionsOf part)) := by
  induction table with
  | nil => rfl
  | cons flag rest ih =>
    rw [ofSection, List.flatMap_cons, ← ofSection, ih, bind_get?_eq, words_eq, items, items,
      List.filterMap_cons]
    cases (Fields.get? (optionsOf part) flag.key).bind shown <;> simp [wordsOf]

structure Group (table : List Flag) (part : Option Json)
    (items : List (Flag × Option String)) : Prop where
  order : (items.map Prod.fst).Sublist table
  shows : ∀ flag behind, (flag, behind) ∈ items ↔ flag ∈ table ∧
    ∃ options value, part = some (.obj options) ∧ Fields.get? options flag.key = some value ∧
      Shown value behind

theorem group_items (table : List Flag) (part : Option Json) :
    Group table part (items table (optionsOf part)) := by
  refine ⟨?_, fun flag behind => ?_⟩
  · induction table with
    | nil => exact .slnil
    | cons flag rest ih =>
      rw [items, List.filterMap_cons]
      cases (Fields.get? (optionsOf part) flag.key).bind shown with
      | none => exact ih.cons flag
      | some behind => exact ih.cons_cons flag
  · simp only [items, List.mem_filterMap, Option.map_eq_some_iff, Prod.mk.injEq,
      Option.bind_eq_some_iff, get?_optionsOf, shown_eq_some]
    constructor
    · rintro ⟨_, member, _, ⟨value, ⟨options, same, found⟩, given⟩, rfl, rfl⟩
      exact ⟨member, options, value, same, found, given⟩
    · rintro ⟨member, options, value, same, found, given⟩
      exact ⟨flag, member, behind, ⟨value, ⟨options, same, found⟩, given⟩, rfl, rfl⟩

theorem items_eq_of_live {table : List Flag} {options others : Fields}
    (same : ∀ key ∈ table.map Flag.key, Fields.live? options key = Fields.live? others key) :
    items table options = items table others := by
  apply List.filterMap_congr
  intro flag member
  refine Fields.eq_of_live (f := fun given => (given.bind shown).map (flag, ·)) ?_
    (same flag.key (List.mem_map_of_mem member))
  intro value idle
  simp [shown_of_idle idle]

end Flag

namespace Page

inductive Gives (page : Page) : PageInput → Prop
  | written {source : String} {markup : Bytes} (held : page.source = some source)
      (decoded : Base64.decode (Text.utf8 source) = .ok markup) : Gives page (.written markup)
  | given {path : String} (untemplated : page.source = none)
      (named : page.field? "InputFile" = some (.str path)) (nonempty : path ≠ "") :
    Gives page (.given path)

inductive Refused (page : Page) : PageFault → Prop
  | garbled {source : String} {error : Base64.DecodeError} (held : page.source = some source)
      (undecoded : Base64.decode (Text.utf8 source) = .error error) :
    Refused page (.base64 error)
  | bare (untemplated : page.source = none)
      (unnamed : ∀ path, page.field? "InputFile" = some (.str path) → path = "") :
    Refused page .noContent

open Document

variable {page : Page}

theorem Gives.pageInput {input : PageInput} (gives : page.Gives input) (index : Nat) :
    pageInput index page = .ok input := by
  cases gives with
  | written held decoded => simp [Document.pageInput, held, decoded]
  | given untemplated named nonempty => simp [Document.pageInput, untemplated, named, nonempty]

theorem Refused.pageInput {fault : PageFault} (refused : page.Refused fault) (index : Nat) :
    pageInput index page = .error (.invalidPage index fault) := by
  cases refused with
  | garbled held undecoded => simp [Document.pageInput, held, undecoded]
  | bare untemplated unnamed =>
    unfold Document.pageInput
    rw [untemplated]
    dsimp only
    split
    · rename_i path named
      simp [unnamed path named]
    · rfl

theorem gives_or_refused (page : Page) :
    (∃ input, page.Gives input) ∨ ∃ fault, page.Refused fault := by
  cases held : page.source with
  | some source =>
    cases decoded : Base64.decode (Text.utf8 source) with
    | ok markup => exact .inl ⟨_, .written held decoded⟩
    | error e => exact .inr ⟨_, .garbled held decoded⟩
  | none =>
    by_cases named : ∃ path, page.field? "InputFile" = some (.str path) ∧ path ≠ ""
    · obtain ⟨path, named, nonempty⟩ := named
      exact .inl ⟨_, .given held named nonempty⟩
    · refine .inr ⟨_, .bare held fun path found => ?_⟩
      by_contra nonempty
      exact named ⟨path, found, nonempty⟩

theorem pageInput_eq_ok {index : Nat} {input : PageInput} :
    pageInput index page = .ok input ↔ page.Gives input := by
  constructor
  · intro read
    rcases page.gives_or_refused with ⟨other, gives⟩ | ⟨fault, refused⟩
    · cases (gives.pageInput index).symm.trans read
      exact gives
    · cases (refused.pageInput index).symm.trans read
  · exact fun gives => gives.pageInput index

theorem pageInput_eq_error {index : Nat} {e : RenderError} :
    pageInput index page = .error e ↔
      ∃ fault, page.Refused fault ∧ e = .invalidPage index fault := by
  constructor
  · intro failed
    rcases page.gives_or_refused with ⟨input, gives⟩ | ⟨fault, refused⟩
    · cases (gives.pageInput index).symm.trans failed
    · cases (refused.pageInput index).symm.trans failed
      exact ⟨fault, refused, rfl⟩
  · rintro ⟨fault, refused, rfl⟩
    exact refused.pageInput index

end Page

def PageInput.argument (index : Nat) : PageInput → Argument
  | .written _ => .pageFile index
  | .given path => .word path

structure CommandGroups where
  globals : List (Flag × Option String)
  outline : List (Flag × Option String)
  cover : Option String
  contents : Bool
  pages : List (Argument × List (Flag × Option String))

namespace CommandGroups

open PagePress.Flag

def pageLine (group : Argument × List (Flag × Option String)) : List Argument :=
  .word "page" :: group.1 :: (wordsOf group.2).map .word

def line (groups : CommandGroups) : List Argument :=
  (["--quiet"] ++ wordsOf groups.globals ++ wordsOf groups.outline ++
      groups.cover.elim [] (["cover", ·]) ++ if groups.contents then ["toc"] else []).map .word ++
    groups.pages.flatMap pageLine ++ [.word "-"]

structure Of (document : Document) (inputs : List PageInput) (groups : CommandGroups) : Prop where
  globals : Group forDocument (Fields.get? document.extra "GlobalOptions") groups.globals
  outline : Group forOutline (Fields.get? document.extra "Outline") groups.outline
  cover : ∀ path, groups.cover = some path ↔ path ≠ "" ∧ ∃ options,
    Fields.get? document.extra "Cover" = some (.obj options) ∧
      Fields.get? options "Input" = some (.str path)
  contents : groups.contents = true ↔ ∃ options,
    Fields.get? document.extra "TOC" = some (.obj options) ∧
      Fields.get? options "Include" = some (.bool true)
  count : groups.pages.length = document.pages.length
  pages : ∀ (i : Nat) (page : Page) (input : PageInput), document.pages[i]? = some page →
    inputs[i]? = some input → ∃ flags, groups.pages[i]? = some (input.argument i, flags) ∧
      Group forPage (page.field? "PageOptions") flags

end CommandGroups

namespace Document

open PagePress.Flag

theorem inputsFrom_eq_ok {index : Nat} {pages : List Page} {inputs : List PageInput} :
    inputsFrom index pages = .ok inputs ↔ List.Forall₂ Page.Gives pages inputs := by
  induction pages generalizing index inputs with
  | nil => simp [inputsFrom, eq_comm]
  | cons page rest ih =>
    simp only [inputsFrom, bind_eq_ok, Page.pageInput_eq_ok, ih, List.forall₂_cons_left_iff,
      Except.ok.injEq]
    constructor
    · rintro ⟨input, gives, later, others, same⟩
      exact ⟨input, later, gives, others, same.symm⟩
    · rintro ⟨input, later, gives, others, same⟩
      exact ⟨input, gives, later, others, same.symm⟩

theorem inputs_eq_error {document : Document} {e : RenderError} :
    document.inputs = .error e ↔ ∃ i page fault, document.pages[i]? = some page ∧
      page.Refused fault ∧ e = .invalidPage i fault ∧
      ∀ j < i, ∀ earlier, document.pages[j]? = some earlier → ∃ input, earlier.Gives input := by
  rw [inputs, Renderer.inputsFrom_eq, eachFrom_eq_error]
  simp only [Nat.zero_add, Page.pageInput_eq_error, Page.pageInput_eq_ok]
  constructor
  · rintro ⟨i, page, there, ⟨fault, refused, rfl⟩, before⟩
    exact ⟨i, page, fault, there, refused, rfl, before⟩
  · rintro ⟨i, page, fault, there, refused, rfl, before⟩
    exact ⟨i, page, there, ⟨fault, refused, rfl⟩, before⟩

def options (document : Document) (name : String) : Fields :=
  optionsOf (Fields.get? document.extra name)

def pageFlags (page : Page) : List (Flag × Option String) :=
  items forPage (optionsOf (page.field? "PageOptions"))

def coverOf : Option Json → Option String
  | some (.str path) => if path.isEmpty then none else some path
  | _ => none

def includes : Option Json → Bool
  | some (.bool true) => true
  | _ => false

theorem coverOf_eq_some {given : Option Json} {path : String} :
    coverOf given = some path ↔ path ≠ "" ∧ given = some (.str path) := by
  unfold coverOf
  constructor
  · intro found
    split at found
    · split at found
      · cases found
      · rename_i nonempty
        cases found
        exact ⟨by simpa using nonempty, rfl⟩
    · cases found
  · rintro ⟨nonempty, rfl⟩
    simp [nonempty]

theorem coverOf_of_idle (value : Json) (idle : value.isIdle = true) :
    coverOf (some value) = coverOf none := by
  rcases Json.isIdle_iff.mp idle with rfl | rfl | rfl | ⟨items, rfl⟩ | ⟨fields, rfl⟩ <;> rfl

theorem includes_of_idle (value : Json) (idle : value.isIdle = true) :
    includes (some value) = includes none := by
  rcases Json.isIdle_iff.mp idle with rfl | rfl | rfl | ⟨items, rfl⟩ | ⟨fields, rfl⟩ <;> rfl

theorem includes_iff {given : Option Json} : includes given = true ↔ given = some (.bool true) := by
  unfold includes
  split <;> simp_all

def groups (document : Document) (inputs : List PageInput) : CommandGroups where
  globals := items forDocument (document.options "GlobalOptions")
  outline := items forOutline (document.options "Outline")
  cover := coverOf (Fields.get? (document.options "Cover") "Input")
  contents := includes (Fields.get? (document.options "TOC") "Include")
  pages := ((document.pages.map pageFlags).zip inputs).mapIdx fun index group =>
    (group.2.argument index, group.1)

theorem coverWords_eq (document : Document) :
    document.coverWords =
      (coverOf (Fields.get? (document.options "Cover") "Input")).elim [] (["cover", ·]) := by
  rw [coverWords, bind_get?_eq, ← options]
  cases Fields.get? (document.options "Cover") "Input" with
  | none => rfl
  | some value =>
    cases value with
    | str path => by_cases empty : path = "" <;> simp [coverOf, empty]
    | _ => rfl

theorem contentsWords_eq (document : Document) :
    document.contentsWords =
      if includes (Fields.get? (document.options "TOC") "Include") then ["toc"] else [] := by
  rw [contentsWords, bind_get?_eq, ← options]
  cases Fields.get? (document.options "TOC") "Include" with
  | none => rfl
  | some value =>
    cases value with
    | bool b => cases b <;> rfl
    | _ => rfl

theorem pageArguments_eq (index : Nat) (page : Page) (input : PageInput) :
    pageArguments index page input =
      CommandGroups.pageLine (input.argument index, pageFlags page) := by
  unfold pageArguments
  rw [ofSection_eq]
  cases input <;> rfl

theorem pagesArguments_eq (index : Nat) (pages : List Page) (inputs : List PageInput) :
    pagesArguments index (pages.zip inputs) =
      (((pages.map pageFlags).zip inputs).mapIdx fun place group =>
        (group.2.argument (index + place), group.1)).flatMap CommandGroups.pageLine := by
  induction pages generalizing index inputs with
  | nil => rfl
  | cons page rest ih =>
    cases inputs with
    | nil => rfl
    | cons input later =>
      have shift (place : Nat) : index + 1 + place = index + (place + 1) := by omega
      simp only [List.zip_cons_cons, List.map_cons, pagesArguments, ih, pageArguments_eq, shift,
        List.mapIdx_cons, List.flatMap_cons, Nat.add_zero]

theorem commandLine_eq_line (document : Document) (inputs : List PageInput) :
    document.commandLine inputs = (document.groups inputs).line := by
  rw [commandLine, ofSection_eq, ofSection_eq, coverWords_eq, contentsWords_eq, pagesArguments_eq]
  simp only [Nat.zero_add]
  rfl

theorem groups_of {document : Document} {inputs : List PageInput}
    (one : inputs.length = document.pages.length) :
    (document.groups inputs).Of document inputs := by
  refine ⟨group_items _ _, group_items _ _, fun path => ?_, ?_, ?_, ?_⟩
  · rw [← get?_optionsOf]
    exact coverOf_eq_some
  · rw [← get?_optionsOf]
    exact includes_iff
  · simp [groups, one]
  · intro i page input there given
    refine ⟨pageFlags page, ?_, group_items _ _⟩
    simp [groups, List.getElem?_zip_eq_some, there, given]

def sectionKeys : List (String × List String) :=
  [("GlobalOptions", forDocument.map Flag.key), ("Outline", forOutline.map Flag.key),
    ("Cover", ["Input"]), ("TOC", ["Include"])]

-- But for the order of options, for unknown ones and for those that mean nothing, the options of
-- one page are those of the other.
def PagesAlike (page other : Page) : Prop :=
  ((optionsOf (page.field? "PageOptions")).heeded (forPage.map Flag.key)).Perm
    ((optionsOf (other.field? "PageOptions")).heeded (forPage.map Flag.key))

structure Alike (a b : Document) : Prop where
  sections : ∀ part ∈ sectionKeys,
    ((a.options part.1).heeded part.2).Perm ((b.options part.1).heeded part.2)
  pages : List.Forall₂ PagesAlike a.pages b.pages

theorem pageFlags_eq {page other : Page} (distinct : (Json.obj page.fields).Distinct)
    (distinct' : (Json.obj other.fields).Distinct) (alike : PagesAlike page other) :
    pageFlags page = pageFlags other :=
  items_eq_of_live fun _ member => Fields.live?_of_perm (nodup_optionsOf distinct _)
    (nodup_optionsOf distinct' _) alike member

theorem map_pageFlags_eq {pages others : List Page}
    (distinct : ∀ page ∈ pages, (Json.obj page.fields).Distinct)
    (distinct' : ∀ page ∈ others, (Json.obj page.fields).Distinct)
    (alike : List.Forall₂ PagesAlike pages others) :
    pages.map pageFlags = others.map pageFlags := by
  induction alike with
  | nil => rfl
  | cons first _ ih =>
    obtain ⟨own, rest⟩ := List.forall_mem_cons.mp distinct
    obtain ⟨own', rest'⟩ := List.forall_mem_cons.mp distinct'
    rw [List.map_cons, List.map_cons, pageFlags_eq own own' first, ih rest rest']

section Pairs

variable {a b : Document} (mapped : a.Mapped) (mapped' : b.Mapped) (alike : a.Alike b)
include mapped mapped' alike

theorem Alike.live {name : String} {known : List String} (part : (name, known) ∈ sectionKeys) :
    ∀ key ∈ known, Fields.live? (a.options name) key = Fields.live? (b.options name) key :=
  fun _ member => Fields.live?_of_perm (nodup_optionsOf mapped.extra name)
    (nodup_optionsOf mapped'.extra name) (alike.sections _ part) member

-- Nothing else of the documents is looked at.
theorem Alike.groups_eq (inputs : List PageInput) : a.groups inputs = b.groups inputs := by
  have globals := items_eq_of_live (alike.live mapped mapped'
    (show ("GlobalOptions", forDocument.map Flag.key) ∈ sectionKeys by simp [sectionKeys]))
  have outline := items_eq_of_live (alike.live mapped mapped'
    (show ("Outline", forOutline.map Flag.key) ∈ sectionKeys by simp [sectionKeys]))
  have input := Fields.eq_of_live (f := coverOf) coverOf_of_idle (alike.live mapped mapped'
    (show ("Cover", ["Input"]) ∈ sectionKeys by simp [sectionKeys]) "Input" List.mem_cons_self)
  have included := Fields.eq_of_live (f := includes) includes_of_idle (alike.live mapped mapped'
    (show ("TOC", ["Include"]) ∈ sectionKeys by simp [sectionKeys]) "Include" List.mem_cons_self)
  have pages := map_pageFlags_eq mapped.pages mapped'.pages alike.pages
  unfold groups
  rw [globals, outline, input, included, pages]

end Pairs

theorem command_line_by_groups (document : Document) :
    (∀ inputs, document.inputs = .ok inputs ↔ List.Forall₂ Page.Gives document.pages inputs) ∧
    (∀ e, document.inputs = .error e ↔ ∃ i page fault, document.pages[i]? = some page ∧
      page.Refused fault ∧ e = .invalidPage i fault ∧
      ∀ j < i, ∀ earlier, document.pages[j]? = some earlier → ∃ input, earlier.Gives input) ∧
    (∀ inputs, document.inputs = .ok inputs → ∃ groups : CommandGroups,
      groups.Of document inputs ∧ document.commandLine inputs = groups.line) ∧
    ∀ other : Document, document.Mapped → other.Mapped → document.Alike other →
      ∀ inputs, document.commandLine inputs = other.commandLine inputs := by
  refine ⟨fun inputs => inputsFrom_eq_ok, fun e => inputs_eq_error, fun inputs read => ?_,
    fun other mapped mapped' alike inputs => ?_⟩
  · have one : inputs.length = document.pages.length := (inputsFrom_eq_ok.mp read).length_eq.symm
    exact ⟨document.groups inputs, groups_of one, commandLine_eq_line document inputs⟩
  · rw [commandLine_eq_line, commandLine_eq_line, alike.groups_eq mapped mapped']

def cluttered : Document where
  pages := [.ofFields [("PageOptions", .obj [("Zoom", .arr [])]), ("InputFile", .str "p.html")]]
  extra := [("Cover", .null), ("GlobalOptions", .obj [("Title", .str ""), ("Dpi", .ofNat 300),
    ("k", .bool true), ("PageSize", .str "A4")])]

def tidied : Document where
  pages := [.ofFields [("InputFile", .str "p.html")]]
  extra := [("GlobalOptions", .obj [("PageSize", .str "A4"), ("Dpi", .ofNat 300)])]

theorem alike_cluttered : cluttered.Alike tidied := by
  refine ⟨?_, .cons (List.Perm.refl []) .nil⟩
  simp only [sectionKeys, List.forall_mem_cons, List.not_mem_nil, false_imp_iff, implies_true,
    and_true]
  exact ⟨.swap _ _ _, .refl [], .refl [], .refl []⟩

theorem command_line_of_tidied :
    cluttered.Mapped ∧ tidied.Mapped ∧ cluttered.Alike tidied ∧
      cluttered.inputs = .ok [.given "p.html"] ∧
      cluttered.commandLine [.given "p.html"] = tidied.commandLine [.given "p.html"] ∧
      tidied.commandLine [.given "p.html"] =
        ["--quiet", "--page-size", "A4", "--dpi", "300", "page", "p.html", "-"].map .word := by
  have mapped : cluttered.Mapped := ⟨by decide, by decide, by decide⟩
  have mapped' : tidied.Mapped := ⟨by decide, by decide, by decide⟩
  obtain ⟨-, -, -, same⟩ := command_line_by_groups cluttered
  exact ⟨mapped, mapped', alike_cluttered, rfl, same tidied mapped mapped' alike_cluttered _,
    by decide⟩

end Document
end PagePress
