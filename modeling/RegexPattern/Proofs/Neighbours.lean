import Mathlib.Data.List.Forall2
import RegexPattern.Proofs.Grammar

/-!
What can stand behind a literal. A run takes every unit that no quantifier follows, so that another
literal or a charset behind it has to look like a unit with a quantifier.
-/

namespace RegexPattern

def Element.first : Element → Char
  | char c => c
  | range r => r.first

namespace Grammar

theorem runOf_units {run rest : Text} {units : List Text} (spelled : List.Forall₂ UnitOf run units)
    (unquantified : ¬ startsQuantifier rest) (ends : RunEnds rest) : RunOf run units.flatten rest := by
  induction spelled with
  | nil => exact .nil ends
  | @cons c unit run units derives spelled ih =>
    refine .cons derives ?_ ih
    cases spelled with
    | nil => exact unquantified
    | cons next =>
      rw [List.flatten_cons, List.append_assoc]
      exact next.unquantified _

theorem RunOf.runEnds {run source rest : Text} (derives : RunOf run source rest) : RunEnds rest := by
  induction derives with
  | nil ends => exact ends
  | cons _ _ _ ih => exact ih

theorem RunOf.unquantified {run source rest : Text} (derives : RunOf run source rest) (filled : run ≠ []) :
    ¬ startsQuantifier rest := by
  induction derives with
  | nil => exact absurd rfl filled
  | @cons c unit run source rest _ unquantified derives ih =>
    by_cases last : run = []
    · subst last
      cases derives
      exact unquantified
    · exact ih last

theorem LiteralOf.runEnds {run source rest : Text} (derives : LiteralOf run source rest)
    (unquantified : ¬ startsQuantifier rest) : RunEnds rest := by
  cases derives with
  | single _ _ quantified => exact absurd quantified unquantified
  | run derives => exact derives.runEnds

theorem LiteralOf.unquantified {run source rest : Text} (derives : LiteralOf run source rest)
    (long : 2 ≤ run.length) : ¬ startsQuantifier rest := by
  cases derives with
  | single => simp at long
  | run derives filled => exact derives.unquantified filled

/-- A literal that no quantifier follows would have been taken by the run in front of it. -/
theorem LiteralOf.not_runEnds {run source rest : Text} (derives : LiteralOf run source rest)
    (unquantified : ¬ startsQuantifier rest) : ¬ RunEnds (source ++ rest) := by
  intro ends
  cases derives with
  | single _ _ quantified => exact unquantified quantified
  | run derives filled =>
    cases derives with
    | nil => exact filled rfl
    | cons unit apart =>
      rw [List.append_assoc] at ends
      exact apart (ends _ _ _ unit rfl)

theorem ElementOf.first_of_raw {element : Element} {source rest : Text} {c : Char} {more : Text}
    (derives : ElementOf element source rest) (starts : source = c :: more) (noSlash : c ≠ '\\') :
    element.first = c := by
  cases derives with
  | char member =>
    cases member with
    | escaped => exact absurd (List.cons.inj starts).1.symm noSlash
    | raw => exact (List.cons.inj starts).1
  | range member =>
    cases member with
    | escaped => exact absurd (List.cons.inj starts).1.symm noSlash
    | raw => exact (List.cons.inj starts).1

theorem CharsetOf.opener_of_runEnds {set : Charset} {source rest : Text} (derives : CharsetOf set source)
    (ends : RunEnds (source ++ rest)) : set.negated = false ∧
      ∃ element ∈ set.elements.toList, isOpener element.first ∧
        ∃ more, source = '[' :: element.first :: more := by
  have bracket : UnitOf '[' ['['] := .plain (by decide)
  cases derives with
  | negated =>
    have quantified := ends _ _ _ bracket rfl
    simp [startsQuantifier, isOpener] at quantified
  | plain derives =>
    have quantified := ends _ _ _ bracket rfl
    cases derives with
    | nil => simp [startsQuantifier, isOpener] at quantified
    | @cons element set source more _ derives =>
      obtain ⟨c, tail, rfl⟩ := List.exists_cons_of_ne_nil derives.ne_nil
      have opener : isOpener c := quantified
      have first := derives.first_of_raw rfl (by intro slash; subst slash; exact absurd opener (by decide))
      exact ⟨rfl, element, by simp, first ▸ opener, by simp [first]⟩

end Grammar

end RegexPattern
