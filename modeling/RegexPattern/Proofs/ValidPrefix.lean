import RegexPattern.Proofs.Exchange
import RegexPattern.Proofs.FaultPlace

/-!
The text that a reader takes. Where reading a tree stops, only the first character of what is left is looked
at, so that the same tree is read when the text ends there or goes on in another way from the same character.
-/

namespace RegexPattern

open Grammar Reader

namespace Grammar

variable {rest rest' : Text}

theorem TreeStops.boundary (stops : TreeStops rest) (unquantified : ¬ startsQuantifier rest) : Boundary rest := by
  cases rest with
  | nil => simp [Boundary]
  | cons c more =>
    have closes : c = ')' := (stops c rfl).resolve_right unquantified
    simp [Boundary, closes]

/-- An atom in front of an opener ends with a quantifier, and thus not where a unit does. -/
theorem AtomOf.not_unitOf {atom : Atom} {source : Text} (derives : AtomOf atom source rest)
    (quantified : startsQuantifier rest) (c : Char) : ¬ UnitOf c source := by
  intro unit
  have bare {quantifier front : Text} {mult : Multiplicity} (derives : QuantifierOf mult quantifier rest)
      (unit : UnitOf c (front ++ quantifier)) : front = [] ∨ front = ['\\'] := by
    apply unit.front_cases.resolve_left
    rintro rfl
    exact derives.unquantified quantified
  cases derives with
  | leaf leaf quantifier =>
    obtain ⟨first, more, rfl, -, -, escape⟩ := leaf.head
    rcases bare quantifier unit with nothing | slash
    · cases nothing
    · obtain ⟨rfl, rfl⟩ := List.cons.inj slash
      exact escape rfl rfl
  | group _ quantifier => rcases bare quantifier unit with nothing | slash <;> simp_all

theorem BranchOf.not_unitOf {branch : Branch} {source : Text} (derives : BranchOf branch source rest)
    (quantified : startsQuantifier rest) (c : Char) : ¬ UnitOf c source := by
  intro unit
  cases derives with
  | nil => cases unit
  | @cons _ _ source more _ atom derives =>
    obtain ⟨first, tail, rfl, -, escape⟩ := atom.head
    rcases unit.front_cases with rfl | nothing | slash
    · rw [List.append_nil] at unit
      exact atom.not_unitOf quantified c unit
    · cases nothing
    · obtain ⟨rfl, rfl⟩ := List.cons.inj slash
      exact escape rfl rfl

theorem AtomOf.of_quantified {atom : Atom} {source : Text} (derives : AtomOf atom source rest)
    (quantified : startsQuantifier rest) (marked : rest'.head? = some '?' → rest.head? = some '?') :
    AtomOf atom source rest' := by
  cases derives with
  | @leaf _ _ _ quantifier _ leaf quantifierDerives =>
    have filled : quantifier ≠ [] := by
      rintro rfl
      exact quantifierDerives.unquantified quantified
    have alike : LooksLike (quantifier ++ rest) (quantifier ++ rest') := by
      refine .of_exact filled quantifierDerives.ne fun c unit _ => ?_
      obtain ⟨nothing, -⟩ | ⟨first, more, rfl, opener⟩ := quantifierDerives.head
      · exact absurd nothing filled
      · exact absurd opener (by simpa [startsQuantifier] using unit.unquantified [])
    exact .leaf (leaf.congr alike) (quantifierDerives.exchange (fun _ => quantified) marked)
  | group content quantifierDerives =>
    refine .group (content.congr ?_) (quantifierDerives.exchange (fun _ => quantified) marked)
    exact .of_delimiter (by simp) _ _

theorem BranchOf.of_quantified {branch : Branch} {source : Text} (derives : BranchOf branch source rest)
    (quantified : startsQuantifier rest) (marked : rest'.head? = some '?' → rest.head? = some '?') :
    BranchOf branch source rest' := by
  induction branch generalizing source with
  | nil =>
    cases derives
    exact .nil
  | cons atom branch ih =>
    cases derives with
    | @cons _ _ _ more _ first derives =>
      refine .cons ?_ (ih derives)
      by_cases last : more = []
      · subst last
        exact first.of_quantified quantified marked
      · exact first.congr (.of_exact last derives.ne fun c unit _ => absurd unit (derives.not_unitOf quantified c))

theorem TreeOf.of_quantified {tree : Tree} {source : Text} (derives : TreeOf tree source rest)
    (quantified : startsQuantifier rest) (marked : rest'.head? = some '?' → rest.head? = some '?') :
    TreeOf tree source rest' := by
  induction tree generalizing source with
  | nil => cases derives
  | cons branch tree ih =>
    cases derives with
    | last derives => exact .last (derives.of_quantified quantified marked)
    | cons first derives =>
      refine .cons (first.congr ?_) (ih derives)
      exact .of_delimiter (by simp) _ _

/-- Where a tree stops, the text may as well end or go on in another way from the same character. -/
theorem TreeOf.of_stops {tree : Tree} {source : Text} (derives : TreeOf tree source rest) (stops : TreeStops rest)
    (same : rest' = [] ∨ rest'.head? = rest.head?) : TreeOf tree source rest' := by
  by_cases quantified : startsQuantifier rest
  · apply derives.of_quantified quantified
    intro marked
    rcases same with rfl | same
    · cases marked
    · rw [← same, marked]
  · have boundary := stops.boundary quantified
    refine derives.congr (boundary.looksLike ?_)
    rcases same with rfl | same
    · simp [Boundary]
    · rwa [Boundary, same]

end Grammar

section

variable {limit allowance : Nat} {tree : Tree} {source text rest : Text}

theorem readTree_of_stops {rest' : Text} (read : readTree limit allowance (source ++ rest) = .ok (tree, rest))
    (same : rest' = [] ∨ rest'.head? = rest.head?) :
    readTree limit allowance (source ++ rest') = .ok (tree, rest') := by
  have stops := treeStops_of_readTree read
  obtain ⟨source', split, derives, shallow⟩ := treeOf_of_readTree read
  cases List.append_cancel_right split
  refine readsDerived tree allowance source rest' (derives.of_stops stops same) shallow ?_
  rcases same with rfl | same
  · simp [TreeStops]
  · rwa [TreeStops, same]

theorem readTree_append (read : readTree limit allowance text = .ok (tree, rest)) (filled : rest ≠ []) (more : Text) :
    readTree limit allowance (text ++ more) = .ok (tree, rest ++ more) := by
  obtain ⟨source, rfl, -⟩ := treeOf_of_readTree read
  obtain ⟨c, tail, rfl⟩ := List.exists_cons_of_ne_nil filled
  rw [List.append_assoc]
  exact readTree_of_stops read (.inr rfl)

end

end RegexPattern
