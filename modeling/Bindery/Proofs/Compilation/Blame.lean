import Bindery.Proofs.Compilation
import Bindery.Proofs.Source.Blame

set_option autoImplicit false

/-! What is reported about a source. Each of its errors points at the text that it is about, and the
report marks the same places in the file of the unit. -/

namespace Bindery

open Source

/-- The errors of a source are those of reading it, or else the first of registering it. -/
theorem errorsOf_at {environment : Environment} {decls : List Decl} {error : SemanticError}
    (member : error ∈ Table.errorsOf environment (tree decls)) :
    error.PointsAt (tree decls).text decls := by
  unfold Table.errorsOf Table.ofTree at member
  rw [ofTree_tree] at member
  by_cases fine : (faults decls true "").isEmpty = true
  · rw [if_pos fine] at member
    dsimp only at member
    rw [Program.ofProgram_eq_unlessFaulty] at member
    cases faulty : (entries decls true "").faults environment with
    | nil =>
        rw [faulty] at member
        cases member
    | cons first rest =>
        rw [faulty] at member
        apply programFaults_at
        rw [faulty, List.mem_singleton.mp member]
        exact List.mem_cons_self
  · rw [if_neg fine] at member
    exact faults_at member

/-- The places that a report marks in a file, each with the style of its label: first what is wrong,
then the definition it collides with. -/
def SemanticError.marks (file : Nat) : SemanticError → List (LabelStyle × Nat × Span)
  | .bindingExists _ span first | .typeExists _ span (some first) =>
      [(.primary, file, span), (.secondary, file, first)]
  | .typeExists _ span none | .noSuchBinding _ (some span) | .unknownType _ span
  | .bindingWithoutName span | .bindingWithoutBody _ span | .functionField _ span
  | .invalidLiteral _ _ span => [(.primary, file, span)]
  | .noSuchBinding _ none | .notExported _ | .noSuchType _ => []

theorem SemanticError.labels_diagnostic (file : Nat) (error : SemanticError) :
    ((error.diagnostic file).labels.map fun label => (label.style, label.file, label.span)) =
      error.marks file := by
  cases error with
  | typeExists name span first => cases first <;> rfl
  | noSuchBinding name span => cases span <;> rfl
  | bindingExists | notExported | noSuchType | unknownType | bindingWithoutName
  | bindingWithoutBody | functionField | invalidLiteral => rfl

namespace Compilation

theorem file_among (configuration : Configuration) (before : List SourceUnit) (unit : SourceUnit)
    (after : List SourceUnit) :
    ∃ compiled earlier later,
      (build configuration (before ++ unit :: after)).units[before.length]? = some compiled ∧
        compiled.source = unit ∧
        (build configuration (before ++ unit :: after)).log.entries =
          earlier ++ unit.entries configuration.environment compiled.file ++ later := by
  let names := (before ++ unit :: after).map SourceUnit.name
  have found : (build configuration (before ++ unit :: after)).units[before.length]? =
      some (unit.compiled configuration.environment names) := by
    rw [units_build, List.getElem?_map, List.getElem?_append_right (Nat.le_refl _), Nat.sub_self]
    rfl
  have logged := entries_build configuration (before ++ unit :: after)
  rw [List.flatMap_append, List.flatMap_cons, ← List.append_assoc] at logged
  exact ⟨_, _, _, found, rfl, logged⟩

/-- However a source is compiled, whatever its declarations are and among whatever units, each of
its errors points at the text that it is about, and is reported with labels at those places in the
file of the unit. -/
theorem errors_point_at_text (configuration : Configuration) (before after : List SourceUnit)
    (name : String) (decls : List Decl) :
    ∃ text tree, render decls = .ok (text, tree) ∧
      let unit : SourceUnit := ⟨name, text, tree⟩
      let compilation := build configuration (before ++ unit :: after)
      let errors := Table.errorsOf configuration.environment tree
      ∃ compiled earlier later,
        compilation.units[before.length]? = some compiled ∧ compiled.source = unit ∧
          compilation.log.entries =
            earlier ++ errors.map (fun error => ⟨compiled.file, error.diagnostic compiled.file⟩) ++
              later ∧
          ∀ error ∈ errors, error.PointsAt text decls ∧
            ((error.diagnostic compiled.file).labels.map fun label =>
              (label.style, label.file, label.span)) = error.marks compiled.file := by
  refine ⟨(tree decls).text, tree decls, render_eq decls, ?_⟩
  obtain ⟨compiled, earlier, later, found, source, logged⟩ :=
    file_among configuration before ⟨name, (tree decls).text, tree decls⟩ after
  refine ⟨compiled, earlier, later, found, source, logged, ?_⟩
  intro error member
  exact ⟨errorsOf_at member, error.labels_diagnostic compiled.file⟩

/-- Two bindings of one name, of which the only letter has two bytes. -/
def sampleRedefined : List Decl :=
  [.binding false ["é"] (some (.integer "1")), .binding true ["é"] (some (.integer "2"))]

example : Table.errorsOf .prelude (tree sampleRedefined) =
    [.bindingExists "é" ⟨11, 13⟩ ⟨0, 2⟩] := by decide +kernel

end Compilation

end Bindery
