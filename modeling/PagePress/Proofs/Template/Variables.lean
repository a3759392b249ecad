import PagePress.Proofs.Template.Binding
import PagePress.Proofs.Template.Scoping
import PagePress.Template.Compiled

namespace PagePress.Template

open Chain

theorem compile_inScope {source : Bytes} {name : String} {template : Template}
    (compiled : compile source name = .ok template) :
    ∀ use ∈ nodesUses (.sure ["$"]) template.nodes, use.InScope := by
  rw [compile] at compiled
  obtain ⟨tokens, -, compiled⟩ := bind_eq_ok.mp compiled
  obtain ⟨nodes, parsed, compiled⟩ := bind_eq_ok.mp compiled
  cases compiled
  exact parse_inScope (mapError_eq_ok.mp parsed)

theorem execute_blames {template : Template} {options : Options} {values : Json} {sink : Sink}
    {error : Error} (failed : (template.execute options values sink).1 = .error (.fault error))
    {cause : ExecError} (found : error.cause = .exec cause) :
    Blames (nodesUses (.sure ["$"]) template.nodes) (.fault cause) := by
  rw [execute] at failed
  split at failed
  · cases failed
  · rename_i stop left ended
    have blamed := runTree_blames options (congrArg Prod.fst ended)
    cases stop with
    | panic => cases failed
    | fault inner =>
      cases failed
      cases found
      exact blamed
  · cases Except.error.inj failed
    cases found

theorem undefined_only_where_loose {source : Bytes} {name : String} {template : Template}
    (compiled : compile source name = .ok template)
    {options : Options} {values : Json} {sink : Sink}
    {error : Error} (failed : (template.execute options values sink).1 = .error (.fault error))
    {line : Nat} {missing : String}
    (undefined : error.cause = .exec ⟨line, .undefinedVariable missing⟩) :
    ∃ use ∈ nodesUses (.sure ["$"]) template.nodes,
      use.name = missing ∧ use.line = line ∧ use.InScope ∧ ¬use.Bound := by
  obtain ⟨use, member, same, there, unbound⟩ := execute_blames failed undefined line missing rfl
  exact ⟨use, member, same, there, compile_inScope compiled use member, unbound⟩

def undefinedIn? (source : String) (values : Json) : Option (Nat × String) :=
  match compile (Text.utf8 source) "t" with
  | .error _ => none
  | .ok template =>
    match (template.execute {} values {}).1 with
    | .error (.fault ⟨_, .exec ⟨line, .undefinedVariable missing⟩⟩) => some (line, missing)
    | _ => none

theorem undefinedIn_eq_some {source : String} {values : Json} {line : Nat} {missing : String}
    (found : undefinedIn? source values = some (line, missing)) :
    ∃ template error, compile (Text.utf8 source) "t" = .ok template ∧
      (template.execute {} values {}).1 = .error (.fault error) ∧
      error.cause = .exec ⟨line, .undefinedVariable missing⟩ := by
  rw [undefinedIn?] at found
  split at found
  · cases found
  · rename_i template compiled
    split at found
    · rename_i name line inner failed
      cases found
      exact ⟨template, _, compiled, failed, rfl⟩
    · cases found

theorem undefined_in_own_pipeline : undefinedIn? "{{$x := $x}}" .null = some (1, "$x") := by cbv

theorem loose_in_own_pipeline : ∃ template, compile (Text.utf8 "{{$x := $x}}") "t" = .ok template ∧
    ∃ use ∈ nodesUses (.sure ["$"]) template.nodes,
      use.name = "$x" ∧ use.line = 1 ∧ use.InScope ∧ ¬use.Bound := by
  obtain ⟨template, error, compiled, failed, undefined⟩ :=
    undefinedIn_eq_some undefined_in_own_pipeline
  exact ⟨template, compiled, undefined_only_where_loose compiled failed undefined⟩

set_option maxRecDepth 100000 in
-- One source for each place: the pipeline that declares, an argument that is left out, the else
-- lists of a body and of a range, and the second element of a range.
theorem undefined_in_each_place :
    undefinedIn? "{{$x := $x}}" .null = some (1, "$x") ∧
    undefinedIn? "{{and false ($x := .)}}{{$x}}" .null = some (1, "$x") ∧
    undefinedIn? "{{if false}}{{$x := .}}{{else}}{{$x}}{{end}}" .null = some (1, "$x") ∧
    undefinedIn? "{{range $x := .}}{{else}}{{$x}}{{end}}" .null = some (1, "$x") ∧
    undefinedIn? "{{range ($x := .)}}{{$x}}{{end}}" (.arr [.null, .null]) = some (1, "$x") := by
  refine ⟨undefined_in_own_pipeline, ?_, ?_, ?_, ?_⟩
  · cbv
  · cbv
  · cbv
  · cbv

end PagePress.Template
