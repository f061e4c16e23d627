import RegexPattern.Proofs.Charset.Legible
import RegexPattern.Proofs.Spelling

/-!
Charsets as sets. Behind a backslash every character is one of the charset, so that any list of elements can be
written in any order and with repetitions. What is read is the set of these elements, in one order.
-/

namespace RegexPattern

open Grammar

theorem ElementSet.ofList_eq_ofList_iff {elements others : List Element} :
    ofList elements = ofList others ↔ ∀ element, element ∈ elements ↔ element ∈ others := by
  constructor
  · intro same element
    rw [← mem_toList_ofList, same, mem_toList_ofList]
  · intro same
    exact ext_mem fun element => by rw [mem_toList_ofList, mem_toList_ofList, same]

theorem spelling_escaped : Spelling fun c => ['\\', c] where
  memberOf c := .escaped c
  head c := by simp

def escapedCharset (negated : Bool) (elements : List Element) : Text :=
  ['['] ++ (if negated then ['^'] else []) ++ elements.flatMap (Element.spelled fun c => ['\\', c]) ++ [']']

theorem parse_escaped (negated : Bool) (elements : List Element) (limit : Nat) :
    parse limit (escapedCharset negated elements) =
      .ok [[.leaf (.charset ⟨negated, .ofList elements⟩) .once]] := by
  have derives : CharsetOf ⟨negated, .ofList elements⟩ (escapedCharset negated elements) :=
    spelling_escaped.charsetOf negated elements
  have leaf : LeafOf (.charset ⟨negated, .ofList elements⟩) (escapedCharset negated elements) [] :=
    .charset derives
  have atom := leaf.atomOf (by simp [startsQuantifier])
  exact atom.branchOf.parse_eq (by simp [Branch.nesting, Atom.nesting])

/-- A charset is read as the set of the elements that are written, which has the single characters in the order
of their code points and then the ranges in the order of their ends, each once. The lists of the same elements,
and no others, are read as the same tree. -/
theorem parse_escapedCharset (negated : Bool) (elements : List Element) (limit : Nat) :
    ∃ set : ElementSet,
      parse limit (escapedCharset negated elements) = .ok [[.leaf (.charset ⟨negated, set⟩) .once]] ∧
      (∀ element, element ∈ set.toList ↔ element ∈ elements) ∧
      set.toList = set.singles.map .char ++ set.ranges.map .range ∧
      set.singles.Pairwise (· < ·) ∧
      set.ranges.Pairwise (fun r s => r.first < s.first ∨ r.first = s.first ∧ r.last < s.last) ∧
      ∀ others,
        parse limit (escapedCharset negated others) = .ok [[.leaf (.charset ⟨negated, set⟩) .once]] ↔
          ∀ element, element ∈ others ↔ element ∈ elements := by
  refine ⟨.ofList elements, parse_escaped negated elements limit, fun _ => ElementSet.mem_toList_ofList,
    ElementSet.toList_eq _, ElementSet.sorted_singles _, ElementSet.sorted_ranges _, ?_⟩
  intro others
  rw [parse_escaped, ← ElementSet.ofList_eq_ofList_iff]
  simp

end RegexPattern
