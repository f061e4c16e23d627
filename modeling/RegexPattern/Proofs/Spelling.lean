import RegexPattern.Proofs.Neighbours
import RegexPattern.Proofs.Reader.Quantifier

/-!
Texts in which nothing is abbreviated: both bounds stand in a quantifier, and characters are escaped
unless a raw one is asked for. Each is read as what it spells, in any order of the elements.
-/

namespace RegexPattern

open Text Grammar

namespace Multiplicity

def spelled (mult : Multiplicity) : Text :=
  ['{'] ++ decimal mult.min.toNat ++ [','] ++ mult.max.elim [] (decimal ·.toNat) ++ ['}'] ++
    if mult.greedy then [] else ['?']

theorem quantifierOf_spelled (mult : Multiplicity) {after : Text} (unquantified : ¬ startsQuantifier after) :
    QuantifierOf mult mult.spelled after := by
  have bounds : BoundsOf mult.min mult.max
      (['{'] ++ decimal mult.min.toNat ++ [','] ++ mult.max.elim [] (decimal ·.toNat) ++ ['}']) := by
    obtain ⟨min, max, greedy, ordered⟩ := mult
    cases max with
    | none => simpa using BoundsOf.atLeast (numberOf_decimal min)
    | some max => exact .between (numberOf_decimal min) (numberOf_decimal max) (ordered max rfl)
  exact bounds.quantifierOf unquantified

theorem startsQuantifier_spelled (mult : Multiplicity) (more : Text) :
    startsQuantifier (mult.spelled ++ more) := rfl

end Multiplicity

def escapeAll (run : Text) : Text := run.flatMap fun c => ['\\', c]

namespace Grammar

theorem runOf_escapeAll (run : Text) {after : Text} (unquantified : ¬ startsQuantifier after)
    (ends : RunEnds after) : RunOf run (escapeAll run) after := by
  rw [escapeAll, List.flatMap_def]
  refine runOf_units (List.forall₂_map_right_iff.mpr (List.forall₂_same.mpr ?_)) unquantified ends
  exact fun c _ => .escaped c

theorem head?_escapeAll_ne (run : Text) : (escapeAll run).head? ≠ some '[' := by
  cases run <;> simp [escapeAll]

end Grammar

/-- A way to write the characters of a charset that is not taken for anything else in it. -/
structure Spelling (write : Char → Text) : Prop where
  memberOf : ∀ c, MemberOf c (write c)
  head : ∀ c, ∀ first ∈ (write c).head?, first ≠ ']' ∧ first ≠ '-' ∧ first ≠ '^'

def Element.spelled (write : Char → Text) : Element → Text
  | char c => write c
  | range r => write r.first ++ ['-'] ++ write r.last

namespace Spelling

variable {write : Char → Text} (spelling : Spelling write)
include spelling

theorem head_spelled (element : Element) (more : Text) :
    ∀ first ∈ (element.spelled write ++ more).head?, first ≠ ']' ∧ first ≠ '-' ∧ first ≠ '^' := by
  have start (c : Char) (more : Text) : (write c ++ more).head? = (write c).head? := by
    obtain ⟨first, rest, same, -⟩ := (spelling.memberOf c).head
    rw [same]
    rfl
  cases element with
  | char c =>
    rw [Element.spelled, start]
    exact spelling.head c
  | range r =>
    rw [Element.spelled, List.append_assoc, List.append_assoc, start]
    exact spelling.head r.first

theorem elementsOf (elements : List Element) :
    ElementsOf (.ofList elements) (elements.flatMap (Element.spelled write)) := by
  induction elements with
  | nil => exact .nil
  | cons element elements ih =>
    refine .cons ?_ ?_ ih
    · intro closing
      have starts := spelling.head_spelled element [] ']' (by simpa using closing)
      exact starts.1 rfl
    · cases element with
      | char c =>
        apply ElementOf.char (spelling.memberOf c)
        intro next more same
        cases elements with
        | nil => simp at same
        | cons element elements =>
          have same : element.spelled write ++ (elements.flatMap (Element.spelled write) ++ [']']) =
              '-' :: next :: more := by simpa [List.flatMap] using same
          exact absurd rfl (spelling.head_spelled element _ '-' (by rw [same]; rfl)).2.1
      | range r =>
        apply ElementOf.range (spelling.memberOf r.first) (spelling.memberOf r.last)
        intro closing
        exact (spelling.head r.last ']' (by rw [closing]; rfl)).1 rfl

theorem charsetOf (negated : Bool) (elements : List Element) :
    CharsetOf ⟨negated, .ofList elements⟩
      (['['] ++ (if negated then ['^'] else []) ++ elements.flatMap (Element.spelled write) ++ [']']) := by
  have derives := spelling.elementsOf elements
  cases negated with
  | true => exact .negated derives
  | false =>
    apply CharsetOf.plain derives
    intro caret
    cases elements with
    | nil => simp at caret
    | cons element elements =>
      exact absurd rfl (spelling.head_spelled element _ '^' caret).2.2

end Spelling

end RegexPattern
