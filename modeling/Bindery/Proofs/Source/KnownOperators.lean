import Bindery.Proofs.Source.Collected
import Mathlib.Data.List.Basic

set_option autoImplicit false

/-! Sources whose operators are all known. Such a source has a tree, and reading that tree gives
the program that the declarations stand for, each kind in source order, or all that is wrong with
them in source order. -/

namespace Bindery.Source

theorem Decl.binding?_of_known (decl : Decl) (known : decl.operatorsKnown = true) :
    decl.binding? Term.lastOperand? = decl.binding? Term.meaning? := by
  cases decl with
  | bringIn path => rfl
  | binding exported identifiers body =>
      cases body with
      | none => cases identifiers <;> rfl
      | some term =>
          cases identifiers with
          | nil => rfl
          | cons name parameters =>
              rw [Decl.binding?, Decl.binding?, term.lastOperand?_of_known known]
  | signature name type => rfl
  | typeDefinition exported name fields => rfl

theorem Decl.problems_of_known (decl : Decl) (known : decl.operatorsKnown = true) :
    decl.problems Term.lastOperand? = decl.problems Term.meaning? := by
  cases decl with
  | bringIn path => rfl
  | binding exported identifiers body =>
      cases body with
      | none => rfl
      | some term =>
          rw [Decl.problems, Decl.problems, Option.bind_some, Option.bind_some,
            term.lastOperand?_of_known known]
  | signature name type => rfl
  | typeDefinition exported name fields => rfl

/-- With known operators, what a source means can be read off its structure. -/
theorem meaning_of_known (decls : List Decl)
    (known : ∀ decl ∈ decls, decl.operatorsKnown = true) :
    meaning Term.lastOperand? decls = meaning Term.meaning? decls := by
  have bindings : decls.filterMap (Decl.binding? Term.lastOperand?) =
      decls.filterMap (Decl.binding? Term.meaning?) := by
    apply List.filterMap_congr
    intro decl member
    exact decl.binding?_of_known (known decl member)
  have problems : decls.flatMap (Decl.problems Term.lastOperand?) =
      decls.flatMap (Decl.problems Term.meaning?) := by
    apply List.flatMap_congr
    intro decl member
    exact decl.problems_of_known (known decl member)
  rw [meaning, meaning, problems, declared, declared, bindings]

/-- A source with known operators has a tree. Reading it and leaving out the places gives what the
source means: the program of its declarations, or every error in them, in source order. -/
theorem collected_eq_meaning (decls : List Decl)
    (known : ∀ decl ∈ decls, decl.operatorsKnown = true) :
    ∃ text tree, render decls = .ok (text, tree) ∧
      Program.unplacedResult (Program.ofTree tree) = meaning Term.meaning? decls := by
  refine ⟨(tree decls).text, tree decls, render_eq decls, ?_⟩
  rw [ofTree_tree_unplaced, meaning_of_known decls known]

/-- A source with a declaration of every kind, a call in a call and brackets. -/
def sampleSource : List Decl := [
  .bringIn "std::io",
  .signature "f" (.arrow [.named "int", .arrow [.variable "a", .void], .named "Point"]),
  .typeDefinition true "Point" [("x", .named "int"), ("empty", .arrow [])],
  .binding true ["f", "x"]
    (some (.call (.call (.identifier "g") [])
      [(some "left", .binary (.paren (.identifier "x")) '*' (.string "a\"b")),
        (none, .integer "-7")]))]

theorem collected_sampleSource :
    (∀ decl ∈ sampleSource, decl.operatorsKnown = true) ∧
      ∃ text tree, render sampleSource = .ok (text, tree) ∧
        Program.unplacedResult (Program.ofTree tree) = meaning Term.meaning? sampleSource :=
  ⟨by decide, collected_eq_meaning sampleSource (by decide)⟩

end Bindery.Source
