import RegexPattern.Proofs.Exchange
import RegexPattern.Proofs.Reader.Tree

/-!
How the reader of trees fails. It stops with the first fault that it meets, in front of which everything
was read: bars, parentheses of groups that are still open, and atoms. An atom that is read before the end
of the text is read in the same way when the text goes on.
-/

namespace RegexPattern.Grammar
open Reader

variable {limit allowance : Nat} {text rest : Text} {fault : Fault}

theorem ne_of_readRun {run : Text} (read : readRun text = .ok (run, rest)) : rest ≠ ['\\'] := by
  fun_induction readRun text generalizing run with
  | case1 => cases read
  | case2 text noUnit =>
    cases read
    rintro rfl
    cases noUnit
  | case3 text c after unitRead =>
    cases read
    rintro rfl
    cases unitRead
  | case4 text c after unitRead _ ih =>
    obtain ⟨_, read', same⟩ := map_eq_ok.mp read
    cases same
    exact ih read'

theorem ne_of_readLiteral {run : Text} (read : readLiteral text = .ok (run, rest)) : rest ≠ ['\\'] := by
  unfold readLiteral at read
  split at read
  · cases read
  · next noUnit =>
    cases read
    rintro rfl
    cases noUnit
  · split at read
    · next quantified =>
      cases read
      rintro rfl
      exact absurd quantified (by decide)
    · obtain ⟨_, read', same⟩ := map_eq_ok.mp read
      cases same
      exact ne_of_readRun read'

theorem readLiteral_of_readLeaf {run : Text} (read : readLeaf text = .ok (some (.literal run, rest))) :
    readLiteral text = .ok (run, rest) := by
  unfold readLeaf at read
  split at read
  · obtain ⟨_, -, same⟩ := map_eq_ok.mp read
    cases same
  · cases read
  · cases read
  · cases read
  · obtain ⟨⟨run', after⟩, read', same⟩ := map_eq_ok.mp read
    simp only [Option.ite_none_left_eq_some, Option.some.injEq, Prod.mk.injEq, Leaf.literal.injEq] at same
    rw [read', same.2.1, same.2.2]

theorem leafOf_append_of_readLeaf {leaf : Leaf} (read : readLeaf text = .ok (some (leaf, rest)))
    (filled : rest ≠ []) : ∃ source, text = source ++ rest ∧ ∀ more, LeafOf leaf source (rest ++ more) := by
  obtain ⟨source, rfl, derives⟩ := leafOf_of_readLeaf read
  refine ⟨source, rfl, fun more => ?_⟩
  cases derives with
  | anyChar => exact .anyChar
  | matchStart => exact .matchStart
  | matchEnd => exact .matchEnd
  | charset derives => exact .charset derives
  | literal derives =>
    have closed : rest ≠ ['\\'] := ne_of_readLiteral (readLiteral_of_readLeaf read)
    exact .literal (derives.congr (.extend filled closed more))

theorem QuantifierOf.append {mult : Multiplicity} {source : Text} (derives : QuantifierOf mult source rest)
    (filled : rest ≠ []) (more : Text) : QuantifierOf mult source (rest ++ more) := by
  obtain ⟨c, rest, rfl⟩ := List.exists_cons_of_ne_nil filled
  exact derives.exchange id id

theorem atomOf_append_of_readLeaf {leaf : Leaf} {mult : Multiplicity} {after : Text}
    (read : readLeaf text = .ok (some (leaf, after))) (quantified : readMultiplicity after = .ok (mult, rest))
    (filled : rest ≠ []) :
    ∃ source, text = source ++ rest ∧ ∀ more, AtomOf (.leaf leaf mult) source (rest ++ more) := by
  obtain ⟨quantifier, rfl, quantifierDerives⟩ := quantifierOf_of_readMultiplicity quantified
  obtain ⟨source, rfl, derives⟩ := leafOf_append_of_readLeaf read (by simp [filled])
  refine ⟨source ++ quantifier, by simp, fun more => .leaf ?_ (quantifierDerives.append filled more)⟩
  simpa using derives more

theorem atomOf_append_of_readTree {content : Tree} {mult : Multiplicity} {after : Text}
    (read : readTree limit allowance text = .ok (content, ')' :: after))
    (quantified : readMultiplicity after = .ok (mult, rest)) (filled : rest ≠ []) :
    ∃ source, '(' :: text = source ++ rest ∧ (Atom.group content mult).nesting ≤ allowance + 1 ∧
      ∀ more, AtomOf (.group content mult) source (rest ++ more) := by
  obtain ⟨quantifier, rfl, quantifierDerives⟩ := quantifierOf_of_readMultiplicity quantified
  obtain ⟨inner, rfl, derives, shallow⟩ := treeOf_of_readTree read
  refine ⟨['('] ++ inner ++ [')'] ++ quantifier, by simp, by simpa [Atom.nesting] using shallow, fun more => ?_⟩
  refine .group (derives.congr ?_) (quantifierDerives.append filled more)
  exact .of_delimiter (by simp) _ _

/-- The reader of trees stops with the fault, behind what it has read of the text. An atom in front of the
fault is read in the same way when the text goes on. -/
inductive FailsWith (limit : Nat) : Nat → Text → Fault → Prop where
  | bar {allowance : Nat} {text : Text} {fault : Fault} : FailsWith limit allowance text fault →
      FailsWith limit allowance ('|' :: text) fault
  | refused {text : Text} : FailsWith limit 0 ('(' :: text) ⟨.nestingTooDeep limit, '(' :: text⟩
  | inside {allowance : Nat} {text : Text} {fault : Fault} : FailsWith limit allowance text fault →
      FailsWith limit (allowance + 1) ('(' :: text) fault
  | unclosed {allowance : Nat} {text after : Text} {content : Tree} {fault : Fault} :
      readTree limit allowance text = .ok (content, after) → closeGroup after = .error fault →
      FailsWith limit (allowance + 1) ('(' :: text) fault
  | groupQuantifier {allowance : Nat} {text after : Text} {content : Tree} {fault : Fault} :
      readTree limit allowance text = .ok (content, ')' :: after) → readMultiplicity after = .error fault →
      FailsWith limit (allowance + 1) ('(' :: text) fault
  | leaf {allowance : Nat} {text : Text} {fault : Fault} : (∀ more, text ≠ '|' :: more) →
      (∀ more, text ≠ '(' :: more) → readLeaf text = .error fault → FailsWith limit allowance text fault
  | leafQuantifier {allowance : Nat} {text after : Text} {leaf : Leaf} {fault : Fault} :
      (∀ more, text ≠ '|' :: more) → (∀ more, text ≠ '(' :: more) →
      readLeaf text = .ok (some (leaf, after)) → readMultiplicity after = .error fault →
      FailsWith limit allowance text fault
  | behind {allowance : Nat} {source rest : Text} {atom : Atom} {fault : Fault} : atom.nesting ≤ allowance →
      (∀ more, AtomOf atom source (rest ++ more)) → FailsWith limit allowance rest fault →
      FailsWith limit allowance (source ++ rest) fault

theorem FailsWith.ne_nil (fails : FailsWith limit allowance text fault) : text ≠ [] := by
  cases fails with
  | leaf _ _ read =>
    rintro rfl
    cases read
  | leafQuantifier _ _ read =>
    rintro rfl
    cases read
  | behind _ derives =>
    obtain ⟨first, more, rfl, -⟩ := (derives []).head
    simp
  | _ => simp

theorem failsWith_of_readTree (read : readTree limit allowance text = .error fault) :
    FailsWith limit allowance text fault := by
  induction size : text.length using Nat.strongRecOn generalizing text allowance with
  | ind bound ih =>
    subst size
    by_cases bar : ∃ more, text = '|' :: more
    · obtain ⟨more, rfl⟩ := bar
      rw [readTree_bar, map_eq_error] at read
      exact .bar (ih _ (by simp) read rfl)
    by_cases group : ∃ more, text = '(' :: more
    · obtain ⟨more, rfl⟩ := group
      obtain _ | inner := allowance
      · rw [readTree_group_zero] at read
        cases read
        exact .refused
      rcases readTree_group_eq_error read with
        stopped | ⟨content, _, inside, stopped | ⟨after, rfl, stopped | ⟨mult, rest, quantified, stopped⟩⟩⟩
      · exact .inside (ih _ (by simp) stopped rfl)
      · exact .unclosed inside stopped
      · exact .groupQuantifier inside stopped
      · have shorter := length_readTree inside
        have shorter' := length_readMultiplicity quantified
        rw [List.length_cons] at shorter
        have fails := ih rest.length (by rw [List.length_cons]; omega) stopped rfl
        obtain ⟨source, split, shallow, derives⟩ := atomOf_append_of_readTree inside quantified fails.ne_nil
        rw [split]
        exact .behind shallow derives fails
    · have noBar (more : Text) : text ≠ '|' :: more := fun same => bar ⟨more, same⟩
      have noGroup (more : Text) : text ≠ '(' :: more := fun same => group ⟨more, same⟩
      rcases readTree_leaf_eq_error noBar noGroup read with
        stopped | ⟨leaf, after, leafRead, stopped | ⟨mult, rest, quantified, stopped⟩⟩
      · exact .leaf noBar noGroup stopped
      · exact .leafQuantifier noBar noGroup leafRead stopped
      · have shorter := length_readLeaf leafRead
        have shorter' := length_readMultiplicity quantified
        have fails := ih rest.length (by omega) stopped rfl
        obtain ⟨source, rfl, derives⟩ := atomOf_append_of_readLeaf leafRead quantified fails.ne_nil
        exact .behind (Nat.zero_le _) derives fails

end RegexPattern.Grammar

namespace RegexPattern
open Reader

variable {limit : Nat} {pattern : Text}

/-- A pattern is rejected at a fault of the reader of trees, or at what the reader leaves of it. -/
theorem parse_eq_error {rejection : Rejection} (read : parse limit pattern = .error rejection) :
    (∃ fault, readTree limit limit pattern = .error fault ∧ rejection = fault.within pattern) ∨
      ∃ tree rest, rest ≠ [] ∧ readTree limit limit pattern = .ok (tree, rest) ∧
        rejection = (Fault.mk .trailingInput rest).within pattern := by
  unfold parse at read
  split at read
  · next fault stopped =>
    cases read
    exact .inl ⟨fault, stopped, rfl⟩
  · cases read
  · next tree rest filled stopped =>
    cases read
    exact .inr ⟨tree, rest, filled, stopped, rfl⟩

theorem parse_eq_error_of_readTree {tree : Tree} {rest : Text} (read : readTree limit limit pattern = .ok (tree, rest))
    (filled : rest ≠ []) : parse limit pattern = .error ((Fault.mk .trailingInput rest).within pattern) := by
  obtain ⟨c, tail, rfl⟩ := List.exists_cons_of_ne_nil filled
  simp [parse, read]

end RegexPattern
