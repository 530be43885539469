import Bindery.Ty
import Mathlib.Data.List.Basic

set_option autoImplicit false

/-! What the text of a signature tells. Blanks stand on the two sides of an arrow and nowhere else,
so the text falls into words of which every other one is a type, whatever the names are; an arrow
in the place of a type is a name. A type is found again from its word, if no name could be taken
for another kind of type. -/

namespace Bindery.Ty

/-- No name stands for a type that has a form of its own. -/
def Normal : Ty → Prop
  | .named name => name ∉ ["int", "f64", "void"]
  | .void | .variable _ | .int | .float => True

/-- The names in a type hold no blank, and one that refers to a type is neither empty nor looks like
a variable. -/
def Legible : Ty → Prop
  | .named name => name ≠ "" ∧ ' ' ∉ name.toList ∧ name.toList.head? ≠ some '\''
  | .variable name => ' ' ∉ name.toList
  | .void | .int | .float => True

instance : DecidablePred Normal
  | .named name => inferInstanceAs (Decidable (name ∉ ["int", "f64", "void"]))
  | .void | .variable _ | .int | .float => isTrue trivial

instance : DecidablePred Legible
  | .named _ => inferInstanceAs (Decidable (_ ∧ _ ∧ _))
  | .variable name => inferInstanceAs (Decidable (' ' ∉ name.toList))
  | .void | .int | .float => isTrue trivial

theorem normal_ofName (name : String) : (ofName name).Normal := by
  rcases ofName_cases name with ⟨-, stands⟩ | ⟨-, stands⟩ | ⟨-, stands⟩ | ⟨free, stands⟩
  · rw [stands]
    trivial
  · rw [stands]
    trivial
  · rw [stands]
    trivial
  · rw [stands]
    exact free

theorem ofName_of_normal {name : String} (normal : (Ty.named name).Normal) :
    ofName name = .named name := by
  rcases ofName_cases name with ⟨rfl, -⟩ | ⟨rfl, -⟩ | ⟨rfl, -⟩ | ⟨-, stands⟩
  · exact absurd normal (by decide)
  · exact absurd normal (by decide)
  · exact absurd normal (by decide)
  · exact stands

/-! ### Words -/

def word (type : Ty) : List Char := type.render.toList

/-- The type that is written as a word. -/
def ofWord : List Char → Ty
  | '\'' :: name => .variable (String.ofList name)
  | name => .ofName (String.ofList name)

theorem ofWord_of_plain {name : List Char} (plain : name.head? ≠ some '\'') :
    ofWord name = .ofName (String.ofList name) := by
  unfold ofWord
  split
  · exact absurd rfl plain
  · rfl

theorem word_variable (name : String) : word (.variable name) = '\'' :: name.toList := by
  rw [word, render, String.toList_append]
  rfl

theorem ofWord_word {type : Ty} (normal : type.Normal) (legible : type.Legible) :
    ofWord type.word = type := by
  cases type with
  | named name =>
      rw [word, render, ofWord_of_plain legible.2.2, String.ofList_toList,
        ofName_of_normal normal]
  | «variable» name =>
      rw [word_variable]
      exact congrArg Ty.variable String.ofList_toList
  | void | int | float => rfl

theorem blank_notMem_word {type : Ty} (legible : type.Legible) : ' ' ∉ type.word := by
  cases type with
  | named name => exact legible.2.1
  | «variable» name =>
      rw [word_variable, List.mem_cons, not_or]
      exact ⟨by decide, legible⟩
  | void | int | float => decide

theorem word_ne_nil {type : Ty} (legible : type.Legible) : type.word ≠ [] := by
  cases type with
  | named name => exact fun empty => legible.1 (String.toList_eq_nil_iff.mp empty)
  | «variable» name =>
      rw [word_variable]
      exact List.cons_ne_nil _ _
  | void | int | float => decide

/-! ### Signatures -/

def arrow : List Char := ['-', '>']

/-- The words of a signature: its types with an arrow between any two of them. -/
def words (types : List Ty) : List (List Char) := (types.map word).intersperse arrow

theorem words_singleton (type : Ty) : words [type] = [type.word] := rfl

theorem words_cons_cons (first second : Ty) (rest : List Ty) :
    words (first :: second :: rest) = first.word :: arrow :: words (second :: rest) := rfl

/-- Every other one of some words, from the first on. -/
def everyOther : List (List Char) → List (List Char)
  | word :: _between :: rest => word :: everyOther rest
  | rest => rest

theorem everyOther_words (types : List Ty) : everyOther (words types) = types.map word := by
  induction types with
  | nil => rfl
  | cons type rest ih =>
      cases rest with
      | nil => rfl
      | cons second others =>
          rw [words_cons_cons, everyOther, ih]
          rfl

theorem words_ne_nil (type : Ty) (rest : List Ty) : words (type :: rest) ≠ [] := by
  intro empty
  have types := everyOther_words (type :: rest)
  rw [empty] at types
  cases types

theorem toList_renderSignature (types : List Ty) :
    (renderSignature types).toList = [' '].intercalate (words types) := by
  induction types with
  | nil => rfl
  | cons type rest ih =>
      cases rest with
      | nil =>
          rw [words_singleton, List.intercalate_singleton, renderSignature, List.map_cons,
            List.map_nil, String.intercalate_singleton, word]
      | cons second others =>
          rw [words_cons_cons, List.intercalate_cons_of_ne_nil (List.cons_ne_nil _ _),
            List.intercalate_cons_of_ne_nil (words_ne_nil second others), ← ih, renderSignature,
            renderSignature, List.map_cons, List.map_cons, String.intercalate_cons_cons,
            String.toList_append, String.toList_append, List.append_assoc, List.append_assoc]
          rfl

theorem blank_notMem_words {types : List Ty} (legible : ∀ type ∈ types, type.Legible) :
    ∀ word ∈ words types, ' ' ∉ word := by
  intro word member
  obtain ⟨place, found⟩ := List.mem_iff_getElem?.mp member
  rw [words, List.getElem?_intersperse] at found
  split at found
  · obtain ⟨type, isType, rfl⟩ := List.mem_map.mp (List.mem_of_getElem? found)
    exact blank_notMem_word (legible type isType)
  · split at found
    · rw [← Option.some.inj found]
      decide
    · cases found

/-- The types of a signature, read from its text. -/
def readSignature (text : String) : List Ty :=
  if text.toList.isEmpty then [] else (everyOther (text.toList.splitOn ' ')).map ofWord

theorem renderSignature_ne_nil {type : Ty} (legible : type.Legible) (rest : List Ty) :
    (renderSignature (type :: rest)).toList ≠ [] := by
  have written := word_ne_nil legible
  rw [toList_renderSignature]
  cases rest with
  | nil =>
      rw [words_singleton, List.intercalate_singleton]
      exact written
  | cons second others =>
      rw [words_cons_cons, List.intercalate_cons_of_ne_nil (List.cons_ne_nil _ _),
        List.append_assoc]
      exact List.append_ne_nil_of_left_ne_nil written _

/-- Reading gives back the types that were written. -/
theorem readSignature_renderSignature {types : List Ty}
    (fine : ∀ type ∈ types, type.Normal ∧ type.Legible) :
    readSignature (renderSignature types) = types := by
  have legible : ∀ type ∈ types, type.Legible := fun type member => (fine type member).2
  cases types with
  | nil => rfl
  | cons type rest =>
      have written := renderSignature_ne_nil (legible type List.mem_cons_self) rest
      have split := List.splitOn_intercalate ' ' (blank_notMem_words legible)
        (words_ne_nil type rest)
      have own : ∀ member ∈ type :: rest, (ofWord ∘ word) member = id member :=
        fun member inside => ofWord_word (fine member inside).1 (fine member inside).2
      rw [readSignature, List.isEmpty_eq_false_iff.mpr written, if_neg Bool.false_ne_true,
        toList_renderSignature, split, everyOther_words, List.map_map, List.map_congr_left own,
        List.map_id]

theorem eq_of_renderSignature_eq {first second : List Ty}
    (firstFine : ∀ type ∈ first, type.Normal ∧ type.Legible)
    (secondFine : ∀ type ∈ second, type.Normal ∧ type.Legible)
    (same : renderSignature first = renderSignature second) : first = second := by
  rw [← readSignature_renderSignature firstFine, same, readSignature_renderSignature secondFine]

end Bindery.Ty
