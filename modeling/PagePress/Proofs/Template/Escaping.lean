import PagePress.Proofs.Template.Output
import PagePress.Proofs.Template.Simulation
import PagePress.Template.Compiled

namespace PagePress.Template

def entities : List (List Char) :=
  ["&amp;".toList, "&lt;".toList, "&gt;".toList, "&#34;".toList, "&#39;".toList, "&#43;".toList]

def forbidden : List Char := ['<', '>', '"', '\'', '+', '\x00']

structure Escaped (cs : List Char) : Prop where
  allowed : ∀ c ∈ cs, c ∉ forbidden
  entity : ∀ after, '&' :: after <:+ cs → ∃ e ∈ entities, e <+: '&' :: after

theorem Escaped.nil : Escaped [] := by
  refine ⟨nofun, fun after behind => ?_⟩
  cases List.suffix_nil.mp behind

theorem Escaped.plain {c : Char} {cs : List Char} (escaped : Escaped cs) (ampersand : c ≠ '&')
    (allowed : c ∉ forbidden) : Escaped (c :: cs) := by
  refine ⟨List.forall_mem_cons.mpr ⟨allowed, escaped.allowed⟩, fun after behind => ?_⟩
  rcases List.suffix_cons_iff.mp behind with same | inside
  · cases same
    exact (ampersand rfl).elim
  · exact escaped.entity after inside

theorem Escaped.entity_append {name cs : List Char} (escaped : Escaped (name ++ cs))
    (known : '&' :: name ∈ entities) : Escaped ('&' :: name ++ cs) := by
  refine ⟨List.forall_mem_cons.mpr ⟨by decide, escaped.allowed⟩, fun after behind => ?_⟩
  rcases List.suffix_cons_iff.mp behind with same | inside
  · cases same
    exact ⟨'&' :: name, known, List.prefix_append _ _⟩
  · exact escaped.entity after inside

theorem Escaped.plain_append {word cs : List Char} (escaped : Escaped cs)
    (plain : ∀ c ∈ word, c ≠ '&' ∧ c ∉ forbidden) : Escaped (word ++ cs) := by
  induction word with
  | nil => exact escaped
  | cons c rest ih =>
    obtain ⟨first, later⟩ := List.forall_mem_cons.mp plain
    exact (ih later).plain first.1 first.2

theorem escaped_htmlEscape {cs : List Char} (escaped : Escaped cs) (c : Char) :
    Escaped (htmlEscape c ++ cs) := by
  have entity : ∀ name : List Char, '&' :: name ∈ entities →
      (∀ c ∈ name, c ≠ '&' ∧ c ∉ forbidden) → Escaped ('&' :: name ++ cs) :=
    fun name known plain => (escaped.plain_append plain).entity_append known
  rw [htmlEscape.eq_def]
  split
  · exact entity ['a', 'm', 'p', ';'] (by decide) (by simp [forbidden])
  · exact entity ['l', 't', ';'] (by decide) (by simp [forbidden])
  · exact entity ['g', 't', ';'] (by decide) (by simp [forbidden])
  · exact entity ['#', '3', '4', ';'] (by decide) (by simp [forbidden])
  · exact entity ['#', '3', '9', ';'] (by decide) (by simp [forbidden])
  · exact entity ['#', '4', '3', ';'] (by decide) (by simp [forbidden])
  · exact escaped.plain (by decide) (by decide)
  · rename_i amp lt gt quote apostrophe plus nul
    refine escaped.plain (fun same => amp same) ?_
    simp only [forbidden, List.mem_cons, List.not_mem_nil, or_false]
    rintro (same | same | same | same | same | same)
    · exact lt same
    · exact gt same
    · exact quote same
    · exact apostrophe same
    · exact plus same
    · exact nul same

theorem escaped_escapeHtml (cs : List Char) : Escaped (escapeHtml cs) := by
  induction cs with
  | nil => exact .nil
  | cons c rest ih =>
    rw [escapeHtml, List.flatMap_cons]
    exact escaped_htmlEscape ih c

def FromHtml (value : Json) : Prop := ∃ cs, value = .str (String.ofList (escapeHtml cs))

def Always {α : Type} (e : Eval α) (after : α → Prop) : Prop :=
  Evaluates (fun _ => True) e (fun a _ => after a) (fun _ => True)

theorem always_trivial {α : Type} (e : Eval α) : Always e fun _ => True := by
  intro vars start
  split <;> trivial

section Evaluation

variable (policy : MissingKey) (dot : Json)

theorem evalCommand_html {command : Command} (calls : command.builtin? = some .html)
    (piped : Option Json) : Always (evalCommand policy dot piped command) FromHtml := by
  obtain ⟨line, operands⟩ := command
  cases operands with
  | nil => cases calls
  | cons operand rest =>
    cases operand with
    | function builtin =>
      cases Option.some.inj calls
      rw [evalCommand]
      refine .bind (always_trivial (evalOperands policy dot line rest)) fun values => ?_
      exact .pure fun _ _ => ⟨_, rfl⟩
    | _ => cases calls

theorem evalCommands_html {commands : List Command}
    (calls : commands.getLast?.bind Command.builtin? = some .html) (piped : Option Json) :
    Always (evalCommands policy dot piped commands) FromHtml := by
  induction commands generalizing piped with
  | nil => cases calls
  | cons command rest ih =>
    rw [evalCommands]
    cases rest with
    | nil =>
      refine .bind (evalCommand_html policy dot calls piped) fun value => ?_
      rw [evalCommands]
      exact .pure fun _ html => html
    | cons next later =>
      have last : (next :: later).getLast?.bind Command.builtin? = some .html := by
        rwa [List.getLast?_cons_cons] at calls
      exact .bind (always_trivial (evalCommand policy dot piped command)) fun value =>
        ih last (some value)

theorem evalPipeline_html {pipe : Pipeline} (calls : pipe.lastBuiltin? = some .html) :
    Always (evalPipeline policy dot pipe) FromHtml := by
  obtain ⟨line, names, assigns, commands⟩ := pipe
  rw [evalPipeline]
  refine .bind (evalCommands_html policy dot calls none) fun value => ?_
  have bound : Evaluates (fun _ => FromHtml value)
      (modify fun vars => names.foldl (·.bind assigns · value) vars) (fun _ _ => FromHtml value)
      (fun _ => True) := .update fun _ html => html
  exact .bind bound fun done => .pure fun _ html => html

end Evaluation

inductive Harmless (options : Options) (nodes : List Node) : Piece → Prop where
  | text {bytes : Bytes} : Within (.text bytes) nodes → Harmless options nodes (.text bytes)
  | missing {pipe : Pipeline} {dot : Json} {vars left : Vars} : Within (.action pipe) nodes →
      evalPipeline options.missingKey dot pipe vars = .ok (.null, left) →
      Harmless options nodes (.printed (Text.utf8Chars options.missingKey.placeholder.toList))
  | escaped {pipe : Pipeline} {dot value : Json} {vars left : Vars} : Within (.action pipe) nodes →
      evalPipeline options.missingKey dot pipe vars = .ok (value, left) → value ≠ .null →
      Escaped (printedText options pipe value) →
      Harmless options nodes (.printed (Text.utf8Chars (printedText options pipe value)))

theorem escaped_printedText {options : Options} (escapes : options.escapeHtml = true)
    {pipe : Pipeline} {dot value : Json} {vars left : Vars}
    (result : evalPipeline options.missingKey dot pipe vars = .ok (value, left))
    (given : value.isNull = false) : Escaped (printedText options pipe value) := by
  rw [printedText, given, if_neg Bool.false_ne_true]
  split
  · exact escaped_escapeHtml _
  · rename_i skipped
    have calls : pipe.lastBuiltin? = some .html :=
      Decidable.byContradiction fun other => skipped ⟨escapes, other⟩
    have html := evalPipeline_html options.missingKey dot calls vars trivial
    rw [result] at html
    obtain ⟨cs, rfl⟩ := html
    rw [valueChars, String.toList_ofList]
    exact escaped_escapeHtml cs

theorem Writes.harmless {options : Options} (escapes : options.escapeHtml = true)
    {nodes : List Node} {piece : Piece} (writes : Writes options nodes piece) :
    Harmless options nodes piece := by
  cases writes with
  | text inside => exact .text inside
  | @printed pipe dot value vars left inside result =>
    cases given : value.isNull with
    | true =>
      have null : value = .null := by
        cases value with
        | null => rfl
        | _ => cases given
      subst null
      exact .missing inside result
    | false =>
      refine .escaped inside result ?_ (escaped_printedText escapes result given)
      rintro rfl
      cases given

theorem runTree_sink (template : Template) (options : Options) (values : Json) (sink : Sink) :
    (template.execute options values sink).2 = (runTree options values template.nodes sink).2 := by
  rw [execute]
  split <;> rename_i ended <;> rw [ended]

section Explicit

def shownVar (line : Nat) (name : String) : Node :=
  .action (.mk line [] false [.mk line [.var name []]])

def escapedVar (line : Nat) (name : String) : Node :=
  .action (.mk line [] false [.mk line [.var name []], .mk line [.function .html]])

def writesOnly (cs : List Char) : Run Flow := do
  emit (.printed (Text.utf8Chars cs))
  pure .normal

variable {options : Options} {dot value : Json} {line : Nat} {name : String} {vars : Vars}

theorem evalVar_found (policy : MissingKey) (bound : vars.get? name = some value) :
    evalOperand policy dot line (.var name []) vars = .ok (value, vars) := by
  rw [evalVar_eq policy dot bound line []]
  rfl

theorem perform_shownVar (bound : vars.get? name = some value) (sink : Sink) :
    perform (runNode options dot (shownVar line name)) vars sink =
      perform (writesOnly (if value.isNull then options.missingKey.placeholder.toList
        else if options.escapeHtml then escapeHtml (valueChars value) else valueChars value))
        vars sink := by
  have found : evalPipeline options.missingKey dot
      (.mk line [] false [.mk line [.var name []]]) vars = .ok (value, vars) := by
    simp only [evalPipeline, evalCommands, evalCommand, Option.isSome_none, Bool.false_eq_true,
      if_false]
    simp [bind, StateT.bind, Except.bind, evalVar_found _ bound, pure, StateT.pure, Except.pure,
      modify, modifyGet, MonadStateOf.modifyGet, StateT.modifyGet]
  have plain : printedText options (.mk line [] false [.mk line [.var name []]]) value =
      if value.isNull then options.missingKey.placeholder.toList
      else if options.escapeHtml then escapeHtml (valueChars value) else valueChars value := by
    simp [printedText, Pipeline.lastBuiltin?, Pipeline.commands, Command.builtin?, Command.operands]
  rw [shownVar, runNode, perform_bind, perform_evaluate, found]
  dsimp only
  rw [plain]
  rfl

theorem perform_escapedVar (bound : vars.get? name = some value) (sink : Sink) :
    perform (runNode options dot (escapedVar line name)) vars sink =
      perform (writesOnly (escapeHtml (valueChars value))) vars sink := by
  have found : evalPipeline options.missingKey dot
      (.mk line [] false [.mk line [.var name []], .mk line [.function .html]]) vars =
        .ok (ofChars (escapeHtml (valueChars value)), vars) := by
    simp only [evalPipeline, evalCommands, evalCommand, Option.isSome_none, Bool.false_eq_true,
      if_false, deciding?, evalOperands]
    simp [bind, StateT.bind, Except.bind, evalVar_found _ bound, pure, StateT.pure, Except.pure,
      modify, modifyGet, MonadStateOf.modifyGet, StateT.modifyGet, callBuiltin, Builtin.call,
      printChars]
  have kept : printedText options
      (.mk line [] false [.mk line [.var name []], .mk line [.function .html]])
      (ofChars (escapeHtml (valueChars value))) = escapeHtml (valueChars value) := by
    simp [printedText, ofChars, Json.isNull, Pipeline.lastBuiltin?, Pipeline.commands,
      Command.builtin?, Command.operands, valueChars]
  rw [escapedVar, runNode, perform_bind, perform_evaluate, found]
  dsimp only
  rw [kept]
  rfl

def shownSource : Bytes := Text.utf8 "{{$v := .}}{{ $v }}"

def escapedSource : Bytes := Text.utf8 "{{$v := .}}{{ $v | html }}"

def declaresDot (name : String) : Node := .action (.mk 1 [name] false [.mk 1 [.dot]])

-- Null alone is told apart: the function is handed it like any argument, the action that prints it
-- writes a placeholder.
theorem explicit_html_as_automatic :
    compile shownSource "t" = .ok ⟨"t", [declaresDot "$v", shownVar 1 "$v"]⟩ ∧
    compile escapedSource "t" = .ok ⟨"t", [declaresDot "$v", escapedVar 1 "$v"]⟩ ∧
    ∀ (options : Options) (dot value : Json) (line : Nat) (name : String) (vars : Vars)
      (sink : Sink), options.escapeHtml = true → vars.get? name = some value →
      (value ≠ .null →
        perform (runNode options dot (escapedVar line name)) vars sink =
          perform (runNode options dot (shownVar line name)) vars sink) ∧
      (value = .null →
        perform (runNode options dot (shownVar line name)) vars sink =
          perform (writesOnly options.missingKey.placeholder.toList) vars sink ∧
        perform (runNode options dot (escapedVar line name)) vars sink =
          perform (writesOnly "&lt;nil&gt;".toList) vars sink) := by
  refine ⟨by cbv, by cbv, ?_⟩
  intro options dot value line name vars sink escapes bound
  rw [perform_shownVar bound, perform_escapedVar bound]
  constructor
  · intro notNull
    have given : value.isNull = false := by
      cases value with
      | null => exact (notNull rfl).elim
      | _ => rfl
    rw [given, if_neg Bool.false_ne_true, if_pos escapes]
  · intro null
    subst null
    exact ⟨rfl, rfl⟩

theorem explicit_html_nested_null :
    let nested : Json := .arr [.null, .str "<&>"]
    perform (runNode {} .null (escapedVar 1 "$v")) [("$v", nested)] {} =
      perform (runNode {} .null (shownVar 1 "$v")) [("$v", nested)] {} ∧
    (perform (runNode {} .null (shownVar 1 "$v")) [("$v", nested)] {}).2.written =
      Text.utf8 "[&lt;nil&gt; &lt;&amp;&gt;]" := by
  intro nested
  have both := explicit_html_as_automatic.2.2 {} .null nested 1 "$v" [("$v", nested)] {} rfl rfl
  exact ⟨both.1 nofun, by decide⟩

theorem null_not_as_automatic :
    ∃ shown escaped, compile shownSource "t" = .ok shown ∧ compile escapedSource "t" = .ok escaped ∧
      shown.render ⟨.empty, true⟩ .null = .ok [] ∧
      shown.render ⟨.noValue, true⟩ .null = .ok (Text.utf8 "<no value>") ∧
      escaped.render ⟨.empty, true⟩ .null = .ok (Text.utf8 "&lt;nil&gt;") ∧
      escaped.render ⟨.noValue, true⟩ .null = .ok (Text.utf8 "&lt;nil&gt;") := by
  refine ⟨⟨"t", [declaresDot "$v", shownVar 1 "$v"]⟩, ⟨"t", [declaresDot "$v", escapedVar 1 "$v"]⟩,
    by cbv, by cbv, ?_⟩
  exact ⟨rfl, rfl, rfl, rfl⟩

end Explicit

end PagePress.Template
