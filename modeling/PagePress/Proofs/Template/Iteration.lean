import PagePress.Proofs.Template.Appended
import PagePress.Proofs.Template.Assignments

namespace PagePress.Template

variable {α β : Type}

namespace Vars

theorem assign_assign (vars : Vars) (name : String) (old value : Json) :
    (vars.assign name old).assign name value = vars.assign name value := by
  induction vars with
  | nil => rfl
  | cons entry rest ih =>
    rw [assign, assign]
    by_cases same : entry.1 = name
    · rw [if_pos same, if_pos same, assign, if_pos same]
    · rw [if_neg same, if_neg same, assign, if_neg same]
      exact congrArg (entry :: ·) ih

theorem assign_comm {first second : String} (differ : first ≠ second) (vars : Vars)
    (one two : Json) :
    (vars.assign first one).assign second two = (vars.assign second two).assign first one := by
  induction vars with
  | nil => rfl
  | cons entry rest ih =>
    obtain ⟨name, value⟩ := entry
    simp only [assign]
    by_cases isFirst : name = first
    · have other : name ≠ second := fun same => differ (isFirst.symm.trans same)
      simp only [if_pos isFirst, if_neg other, assign]
    · by_cases isSecond : name = second
      · simp only [if_neg isFirst, if_pos isSecond, assign]
      · simp only [if_neg isFirst, if_neg isSecond, assign]
        exact congrArg ((name, value) :: ·) ih

theorem drop_assign (vars : Vars) (name : String) (value : Json) (n : Nat) :
    (vars.assign name value).drop n = vars.drop n ∨
      (vars.assign name value).drop n = assign (vars.drop n) name value := by
  induction vars generalizing n with
  | nil => exact .inl rfl
  | cons entry rest ih =>
    cases n with
    | zero => exact .inr rfl
    | succ n =>
      rw [assign]
      split
      · exact .inl rfl
      · exact ih n

theorem leave_assign (vars : Vars) (name : String) (value : Json) (size : Nat) :
    (vars.assign name value).leave size = vars.leave size ∨
      (vars.assign name value).leave size = (vars.leave size).assign name value := by
  rw [leave, length_assign]
  exact drop_assign vars name value _

theorem leave_cons (entry : String × Json) (vars : Vars) {size : Nat} (le : size ≤ vars.length) :
    leave (entry :: vars) size = vars.leave size := by
  rw [leave, List.length_cons, Nat.succ_sub le, List.drop_succ_cons, leave]

theorem leave_self (vars : Vars) : vars.leave vars.length = vars := by
  rw [leave, Nat.sub_self, List.drop_zero]

end Vars

-- Binding the next element undoes what is left of the one before.
theorem bindItem_leave (names : List String) (assigns : Bool) (key element key' element' : Json)
    {vars : Vars} {size : Nat} (le : size ≤ vars.length) :
    bindItem names assigns key' element' ((bindItem names assigns key element vars).leave size) =
      bindItem names assigns key' element' (vars.leave size) := by
  cases assigns with
  | false =>
    rcases names with _ | ⟨first, _ | ⟨second, _ | ⟨third, rest⟩⟩⟩
    · rfl
    · exact congrArg _ (Vars.leave_cons (first, element) vars le)
    · have outer := Vars.leave_cons (second, element) ((first, key) :: vars) (Nat.le_succ_of_le le)
      exact congrArg _ (outer.trans (Vars.leave_cons (first, key) vars le))
    · rfl
  | true =>
    rcases names with _ | ⟨first, _ | ⟨second, _ | ⟨third, rest⟩⟩⟩
    · rfl
    · simp only [bindItem, Vars.bind, if_true]
      rcases Vars.leave_assign vars first element size with same | same
      · rw [same]
      · rw [same, Vars.assign_assign]
    · have overwrites : ∀ (vars : Vars) (value : Json),
          ((vars.assign second value).assign first key').assign second element' =
            (vars.assign first key').assign second element' := by
        intro vars value
        by_cases same : second = first
        · rw [same, Vars.assign_assign, Vars.assign_assign, Vars.assign_assign]
        · rw [Vars.assign_comm same, Vars.assign_assign]
      simp only [bindItem, Vars.bind, if_true]
      rcases Vars.leave_assign (vars.assign first key) second element size with same | same <;>
        rcases Vars.leave_assign vars first key size with again | again <;>
        simp only [same, again, overwrites, Vars.assign_assign]
    · rfl

theorem Vars.ext_slot {vars others : Vars}
    (same : ∀ height, vars.slot? height = others.slot? height) :
    vars = others := List.reverse_injective (List.ext_getElem? same)

theorem Settles.leave_eq {size : Nat} {vars left : Vars} (kept : Settles size [] vars left) :
    left.leave size = vars.leave size := by
  refine Vars.ext_slot fun height => ?_
  rcases Nat.lt_or_ge height size with below | above
  · rw [Vars.slot?_leave below, Vars.slot?_leave below, kept.entry height below]
    exact Option.map_id_apply
  · have short : ∀ vars : Vars, (vars.leave size).length ≤ height := fun vars => by
      rw [Vars.length_leave]
      exact (Nat.min_le_left _ _).trans above
    rw [Vars.slot?_none (short left), Vars.slot?_none (short vars)]

namespace Fills

variable {run : Run α} {vars middle left : Vars} {ps qs : List Piece} {a : α}

theorem pure (a : α) (vars : Vars) : Fills (Pure.pure a) vars [] (a, vars) := fun _ => rfl

theorem update (change : Vars → Vars) (vars : Vars) :
    Fills (modify change) vars [] ((), change vars) := fun _ => rfl

theorem evaluate {e : Eval α} (given : e vars = .ok (a, left)) :
    Fills (Template.evaluate e) vars [] (a, left) := by
  intro earlier
  rw [perform_evaluate, given]
  rfl

theorem bind {next : α → Run β} {result : β × Vars} (first : Fills run vars ps (a, middle))
    (second : Fills (next a) middle qs result) : Fills (run >>= next) vars (qs ++ ps) result := by
  intro earlier
  rw [perform_bind, first earlier]
  dsimp only
  rw [second, List.append_assoc]

theorem after_silent {next : α → Run β} {result : β × Vars} (first : Fills run vars [] (a, middle))
    (second : Fills (next a) middle qs result) : Fills (run >>= next) vars qs result := by
  have both := first.bind second
  rwa [List.append_nil] at both

theorem then_silent {next : α → Run β} {result : β × Vars} (first : Fills run vars ps (a, middle))
    (second : Fills (next a) middle [] result) : Fills (run >>= next) vars ps result :=
  first.bind second

theorem enclosed (inside : Fills run vars ps (a, left)) :
    Fills (Template.enclosed run) vars ps (a, left.leave vars.length) := by
  intro earlier
  rw [perform_enclosed, inside earlier]

end Fills

section Elements

-- The body, run once and on its own from variables and those that the range binds for an element:
-- it ends well, breaks nothing, assigns nothing, and writes the pieces.
def RunsAlone (options : Options) (pipe : Pipeline) (body : List Node) (start : Vars)
    (pair : Json × Json) (pieces : List Piece) : Prop :=
  let vars := bindItem pipe.names pipe.assigns pair.1 pair.2 start
  ∃ flow left, flow ≠ .broken ∧
    perform (runNodes options pair.2 body) vars (holding []) = (.ok (flow, left), holding pieces) ∧
    nodesAssignments options pair.2 body vars (holding []) = []

variable {options : Options} {pipe : Pipeline} {body : List Node} {size : Nat} {start vars : Vars}

theorem turn_fills {pair : Json × Json} {pieces : List Piece}
    (alone : RunsAlone options pipe body start pair pieces) (le : size ≤ start.length)
    (restarts : ∀ key element, bindItem pipe.names pipe.assigns key element vars =
      bindItem pipe.names pipe.assigns key element start) :
    ∃ flow, flow ≠ .broken ∧ Fills (turn options pipe body size pair.1 pair.2) vars pieces
      (flow, (bindItem pipe.names pipe.assigns pair.1 pair.2 start).leave size) := by
  obtain ⟨flow, left, goesOn, done, silent⟩ := alone
  obtain ⟨written, fills, same⟩ := fills_of_done done
  have pieces : pieces = written := by simpa [holding] using same
  subst pieces
  have bound := Settles.bindItem pipe.names pipe.assigns pair.1 pair.2 le
  have kept := runNodes_accounts options body pair.2 _ _ _ _ _ bound.size_le done
  rw [silent] at kept
  refine ⟨flow, goesOn, ?_⟩
  rw [← kept.leave_eq]
  refine .after_silent (.update _ vars) ?_
  rw [restarts]
  exact .then_silent fills (.after_silent (.update _ left) (.pure flow _))

theorem rows_fill {rest : List (Json × Json)} {pss : List (List Piece)}
    (each : List.Forall₂ (RunsAlone options pipe body start) rest pss) :
    ∀ {vars}, (∀ key element, bindItem pipe.names pipe.assigns key element vars =
      bindItem pipe.names pipe.assigns key element start) →
      ∃ left, Fills (overRows (turn options pipe body start.length) rest) vars pss.reverse.flatten
        ((), left) := by
  induction each with
  | nil => exact fun {vars} _ => ⟨vars, .pure () vars⟩
  | cons alone _ ih =>
    rename_i pair ps rest pss _
    intro vars restarts
    obtain ⟨flow, goesOn, fills⟩ := turn_fills alone (Nat.le_refl _) restarts
    have again := fun key element =>
      (bindItem_leave pipe.names pipe.assigns pair.1 pair.2 key element
        (Nat.le_refl start.length)).trans (by rw [Vars.leave_self])
    obtain ⟨left, later⟩ := ih again
    refine ⟨left, ?_⟩
    rw [List.reverse_cons, List.flatten_append, List.flatten_singleton]
    refine fills.bind ?_
    rw [if_neg goesOn]
    exact later

theorem elements_fill {first : Json × Json} {rest : List (Json × Json)} {ps : List Piece}
    {pss : List (List Piece)} {after : Vars} (le : size ≤ after.length)
    (one : RunsAlone options pipe body after first ps)
    (others : List.Forall₂ (RunsAlone options pipe body (after.leave size)) rest pss) :
    ∃ left, Fills (overRows (turn options pipe body size) (first :: rest)) after
      ((ps :: pss).reverse.flatten) ((), left) := by
  have length : (after.leave size).length = size := by
    rw [Vars.length_leave, Nat.min_eq_left le]
  obtain ⟨flow, goesOn, fills⟩ := turn_fills one le fun _ _ => rfl
  obtain ⟨left, later⟩ := rows_fill others fun key element =>
    bindItem_leave pipe.names pipe.assigns first.1 first.2 key element le
  rw [length] at later
  refine ⟨left, ?_⟩
  rw [List.reverse_cons, List.flatten_append, List.flatten_singleton]
  refine fills.bind ?_
  rw [if_neg goesOn]
  exact later

end Elements

section Range

theorem Items.isEmpty_eq (items : Items) : items.isEmpty = items.pairs.isEmpty := by
  cases items with
  | rows pairs => rfl
  | count n => cases n <;> rfl

variable {options : Options} {dot : Json} {pipe : Pipeline} {vars after : Vars} {value : Json}
  {items : Items} (header : evalCommands options.missingKey dot none pipe.commands vars =
    .ok (value, after)) (found : itemsOf value = .ok items)
include header found

theorem range_fills {first : Json × Json} {rest : List (Json × Json)} {ps : List Piece}
    {pss : List (List Piece)} {body : List Node} (line : Nat) (otherwise : Option (List Node))
    (some : items.pairs = first :: rest) (one : RunsAlone options pipe body after first ps)
    (others : List.Forall₂ (RunsAlone options pipe body (after.leave vars.length)) rest pss) :
    ∃ left, Fills (runNode options dot (.branch .rangeBranch line pipe body otherwise)) vars
      ((ps :: pss).reverse.flatten) (.normal, left) := by
  have kept := evalCommands_accounts options.missingKey dot none pipe.commands vars value after
    (Nat.le_refl _) header
  obtain ⟨left, loop⟩ := elements_fill kept.size_le one others
  refine ⟨left.leave vars.length, ?_⟩
  rw [runNode]
  refine .enclosed (.after_silent (fun _ => rfl) (.after_silent (.evaluate header) ?_))
  rw [found]
  dsimp only
  rw [Items.isEmpty_eq, some, if_neg (by exact Bool.false_ne_true), forEach_eq_overRows, some]
  exact .then_silent loop (.pure _ left)

end Range

-- What an element starts from is what the header leaves, for the first one in any case, and for all
-- where the header has declared nothing in parentheses.
theorem range_concatenates {options : Options} {dot : Json} {pipe : Pipeline} {vars after : Vars}
    {value : Json} {items : Items}
    (header : evalCommands options.missingKey dot none pipe.commands vars = .ok (value, after))
    (found : itemsOf value = .ok items) (line : Nat) (body : List Node)
    (otherwise : Option (List Node)) :
    (∀ first rest ps pss, items.pairs = first :: rest →
      RunsAlone options pipe body after first ps →
      List.Forall₂ (RunsAlone options pipe body (after.leave vars.length)) rest pss →
      ∃ left, Fills (runNode options dot (.branch .rangeBranch line pipe body otherwise)) vars
        ((ps :: pss).reverse.flatten) (.normal, left)) ∧
    (after.length = vars.length → items.pairs ≠ [] →
      ∀ pss, List.Forall₂ (RunsAlone options pipe body after) items.pairs pss →
      ∃ left, Fills (runNode options dot (.branch .rangeBranch line pipe body otherwise)) vars
        pss.reverse.flatten (.normal, left)) := by
  refine ⟨fun first rest ps pss some one others =>
    range_fills header found line otherwise some one others, fun same nonempty pss each => ?_⟩
  have start : after.leave vars.length = after := by rw [← same, Vars.leave_self]
  cases pairs : items.pairs with
  | nil => exact (nonempty pairs).elim
  | cons first rest =>
    rw [pairs] at each
    cases each with
    | cons one others =>
      rw [← start] at others
      exact range_fills header found line otherwise pairs one others

def keepingHeader (names : List String) : Pipeline :=
  .mk 1 names false [.mk 1 [.group (.mk 1 ["$x"] false [.mk 1 [.dot]])]]

def printing (name : String) : Node := .action (.mk 1 [] false [.mk 1 [.var name []]])

theorem range_concatenates_keeping :
    let dot : Json := .arr [.str "a", .str "b"]
    let after : Vars := [("$x", dot), ("$", dot)]
    let pipe := keepingHeader ["$i", "$e"]
    let body := [printing "$e",
      .branch .ifBranch 1 (.mk 1 [] false [.mk 1 [.var "$i" []]]) [.continueRange] none,
      printing "$x"]
    evalCommands .empty dot none pipe.commands [("$", dot)] = .ok (dot, after) ∧
      itemsOf dot = .ok (.rows (indexed [.str "a", .str "b"])) ∧
      ∃ left, Fills (runNode {} dot (.branch .rangeBranch 1 pipe body none)) [("$", dot)]
        [.printed (Text.utf8 "b"), .printed (Text.utf8 "[a b]"), .printed (Text.utf8 "a")]
        (.normal, left) := by
  intro dot after pipe body
  have header : evalCommands ({} : Options).missingKey dot none pipe.commands [("$", dot)] =
      .ok (dot, after) := rfl
  have found : itemsOf dot = .ok (.rows (indexed [.str "a", .str "b"])) := rfl
  have one : RunsAlone {} pipe body after (.ofNat 0, .str "a")
      [.printed (Text.utf8 "[a b]"), .printed (Text.utf8 "a")] :=
    ⟨.normal, _, by rintro ⟨⟩, rfl, rfl⟩
  have two : RunsAlone {} pipe body [("$", dot)] (.ofNat 1, .str "b") [.printed (Text.utf8 "b")] :=
    ⟨.continued, _, by rintro ⟨⟩, rfl, rfl⟩
  have others : List.Forall₂ (RunsAlone {} pipe body [("$", dot)]) [(.ofNat 1, .str "b")]
      [[.printed (Text.utf8 "b")]] := .cons two .nil
  have elements : (Items.rows (indexed [.str "a", .str "b"])).pairs =
      (.ofNat 0, .str "a") :: [(.ofNat 1, .str "b")] := rfl
  obtain ⟨left, filled⟩ := (range_concatenates header found 1 body none).1 (.ofNat 0, .str "a")
    [(.ofNat 1, .str "b")] [.printed (Text.utf8 "[a b]"), .printed (Text.utf8 "a")]
    [[.printed (Text.utf8 "b")]] elements one others
  exact ⟨header, found, left, filled⟩

-- Each element ends well from what the header leaves, and yet the range fails.
theorem scope_lost_behind_first :
    let dot : Json := .arr [.ofNat 1, .ofNat 2]
    let after : Vars := [("$x", dot), ("$", dot)]
    let node := Node.branch .rangeBranch 1 (keepingHeader []) [printing "$x"] none
    compile (Text.utf8 "{{range ($x := .)}}{{$x}}{{end}}") "t" = .ok ⟨"t", [node]⟩ ∧
      evalCommands .empty dot none (keepingHeader []).commands [("$", dot)] = .ok (dot, after) ∧
      (∀ pair ∈ indexed [.ofNat 1, .ofNat 2], RunsAlone {} (keepingHeader []) [printing "$x"] after
        pair [.printed (Text.utf8 "[1 2]")]) ∧
      (perform (runNode {} dot node) [("$", dot)] (holding [])).1 =
        .error (.exec (.fault ⟨1, .undefinedVariable "$x"⟩)) := by
  intro dot after node
  have alone : ∀ key element, RunsAlone {} (keepingHeader []) [printing "$x"] after (key, element)
      [.printed (Text.utf8 "[1 2]")] := fun key element =>
    ⟨.normal, after, by rintro ⟨⟩, rfl, rfl⟩
  exact ⟨by cbv, rfl, fun pair _ => alone pair.1 pair.2, rfl⟩

end PagePress.Template
