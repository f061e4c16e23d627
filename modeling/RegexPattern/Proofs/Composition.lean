import RegexPattern.Proofs.Exchange
import RegexPattern.Proofs.FaultPlace
import RegexPattern.Proofs.ReadBack

/-!
Patterns put together from patterns. The end of a pattern, a bar and a closing parenthesis end a tree
alike, so that a pattern that is read keeps its tree in front of a bar and inside of a group, and the
pattern behind the bar is read, or rejected, as it is alone.
-/

namespace RegexPattern

open Text Grammar Reader

theorem Fault.within_append (fault : Fault) {text : Text} (isSuffix : fault.fragment <:+ text) (front : Text) :
    fault.within (front ++ text) =
      { fault.within text with offset := (fault.within text).offset + byteLength front } := by
  obtain ⟨back, rfl⟩ := isSuffix
  simp only [within, byteLength_append, Rejection.mk.injEq, true_and]
  omega

namespace Grammar

variable {tree : Tree} {source rest : Text} {limit allowance : Nat}

theorem TreeOf.readTree_append_bar (derives : TreeOf tree source ('|' :: rest))
    (shallow : Tree.nesting tree ≤ allowance) :
    readTree limit allowance (source ++ '|' :: rest) =
      (readTree limit allowance rest).map fun (later, after) => (tree ++ later, after) := by
  rw [Tree.nesting_le_iff] at shallow
  induction tree generalizing source with
  | nil => cases derives
  | cons branch tree ih =>
    have fits := shallow branch List.mem_cons_self
    cases derives with
    | last derives =>
      rw [derives.readTree_append fits (by simp), readTree_bar]
      cases readTree limit allowance rest <;> simp
    | @cons _ _ source more _ first derives =>
      have later := ih derives fun branch member => shallow branch (List.mem_cons_of_mem _ member)
      have split : source ++ ['|'] ++ more ++ '|' :: rest = source ++ '|' :: (more ++ '|' :: rest) := by simp
      rw [split, first.readTree_append fits (by simp), readTree_bar, later]
      cases readTree limit allowance rest <;> simp

end Grammar

variable {limit : Nat} {pattern : Text} {tree : Tree}

theorem parse_append_bar (read : parse limit pattern = .ok tree) (other : Text) :
    parse limit (pattern ++ '|' :: other) =
      match parse limit other with
      | .ok later => .ok (tree ++ later)
      | .error rejection => .error { rejection with offset := rejection.offset + byteLength pattern + 1 } := by
  obtain ⟨derives, shallow⟩ := treeOf_of_parse read
  have bar : TreeOf tree pattern ('|' :: other) :=
    derives.congr (Boundary.looksLike (by simp [Boundary]) (by simp [Boundary]))
  have place (fault : Fault) (isSuffix : fault.fragment <:+ other) :
      fault.within (pattern ++ '|' :: other) =
        { fault.within other with offset := (fault.within other).offset + byteLength pattern + 1 } := by
    have split : pattern ++ '|' :: other = (pattern ++ ['|']) ++ other := by simp
    have size : '|'.utf8Size = 1 := rfl
    rw [split, fault.within_append isSuffix]
    simp [size, Nat.add_assoc]
  unfold parse
  rw [bar.readTree_append_bar shallow]
  cases onwards : readTree limit limit other with
  | error fault =>
    have points : fault.PointsInto limit other := pointsInto_of_readTree onwards
    simp [place fault points.isSuffix]
  | ok answer =>
    obtain ⟨later, rest⟩ := answer
    cases rest with
    | nil => simp
    | cons c more =>
      obtain ⟨source, split, -⟩ := treeOf_of_readTree onwards
      simp [place ⟨.trailingInput, c :: more⟩ ⟨source, split.symm⟩]

theorem parse_group (read : parse limit pattern = .ok tree) {mult : Multiplicity} (faithful : mult.Faithful) :
    parse (limit + 1) (['('] ++ pattern ++ [')'] ++ mult.text) = .ok [[.group tree mult]] := by
  obtain ⟨derives, shallow⟩ := treeOf_of_parse read
  have content : TreeOf tree pattern (')' :: (mult.text ++ [])) :=
    derives.congr (Boundary.looksLike (by simp [Boundary]) (by simp [Boundary]))
  have atom : AtomOf (.group tree mult) (['('] ++ pattern ++ [')'] ++ mult.text) [] :=
    .group content (faithful.quantifierOf (by simp [startsQuantifier]))
  exact atom.branchOf.parse_eq (by simpa [Branch.nesting, Atom.nesting] using shallow)

/-- A pattern that is read goes on to be read as the same branches in front of a bar, whatever stands
behind the bar, and as the same tree in a group with any quantifier. -/
theorem parse_composed (read : parse limit pattern = .ok tree) :
    (∀ other later, parse limit other = .ok later →
      parse limit (pattern ++ '|' :: other) = .ok (tree ++ later)) ∧
    (∀ other rejection, parse limit other = .error rejection →
      parse limit (pattern ++ '|' :: other) =
        .error { rejection with offset := rejection.offset + byteLength pattern + 1 }) ∧
    ∀ mult : Multiplicity, mult.Faithful →
      parse (limit + 1) (['('] ++ pattern ++ [')'] ++ mult.text) = .ok [[.group tree mult]] := by
  refine ⟨?_, ?_, fun mult faithful => parse_group read faithful⟩
  · intro other later onwards
    rw [parse_append_bar read, onwards]
  · intro other rejection onwards
    rw [parse_append_bar read, onwards]

theorem parse_composed_branches :
    let pattern : Text := ['é', '+']
    let tree : Tree := [[.leaf (.literal ['é']) (.atLeast 1)]]
    let rejection : Rejection := ⟨⟨.unclosedGroup, ['*']⟩, 2⟩
    let lazy : Multiplicity := ⟨2, some 3, false, by simp⟩
    parse 1 pattern = .ok tree ∧
      (parse 1 ['b'] = .ok [[.text ['b']]] ∧
        parse 1 (pattern ++ '|' :: ['b']) = .ok (tree ++ [[.text ['b']]])) ∧
      (parse 1 ['b', '(', '*'] = .error rejection ∧
        parse 1 (pattern ++ '|' :: ['b', '(', '*']) = .error { rejection with offset := 2 + 3 + 1 }) ∧
      (lazy.Faithful ∧ parse 2 (['('] ++ pattern ++ [')'] ++ lazy.text) = .ok [[.group tree lazy]]) := by
  intro pattern tree rejection lazy
  have read : parse 1 pattern = .ok tree := by decide +kernel
  have later : parse 1 ['b'] = .ok [[.text ['b']]] := by decide +kernel
  have failed : parse 1 ['b', '(', '*'] = .error rejection := by decide +kernel
  have faithful : lazy.Faithful := by decide
  have composed := parse_composed read
  exact ⟨read, ⟨later, composed.1 _ _ later⟩, ⟨failed, composed.2.1 _ _ failed⟩,
    faithful, composed.2.2 lazy faithful⟩

end RegexPattern
