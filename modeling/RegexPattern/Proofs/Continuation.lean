import RegexPattern.Proofs.LeafFault
import RegexPattern.Proofs.ValidPrefix

/-!
What becomes of a rejection when the pattern goes on. Some faults are final: the reader has seen all that it
needs, and meets the same fault in front of any text. The others are met at the end of the pattern only, and
some text behind it makes it one that is read. Bounds that are not well formed may be either.
-/

namespace RegexPattern

open Text Grammar Reader

namespace Fault

/-- Nothing behind the pattern makes up for the fault. -/
def Final (fault : Fault) : Prop :=
  match fault.cause with
  | .trailingInput | .nestingTooDeep _ | .disorder _ => True
  | .unclosedGroup => fault.fragment ≠ []
  | .unterminatedCharset | .danglingEscape | .malformedQuantifier => False

/-- The pattern ends before something that it has started. -/
def Incomplete (fault : Fault) : Prop :=
  match fault.cause with
  | .unterminatedCharset | .danglingEscape => True
  | .unclosedGroup => fault.fragment = []
  | .trailingInput | .nestingTooDeep _ | .disorder _ | .malformedQuantifier => False

variable {fault : Fault}

theorem EndsEarly.not_final (early : fault.EndsEarly) : ¬ fault.Final := by
  rcases early with cause | cause <;> simp [Final, cause]

theorem IsDisorder.not_incomplete (disorder : fault.IsDisorder) : ¬ fault.Incomplete := by
  obtain ⟨_, cause⟩ := disorder
  simp [Incomplete, cause]

theorem within_extend (fault : Fault) {text : Text} (isSuffix : fault.fragment <:+ text) (more : Text) :
    (fault.extend more).within (text ++ more) =
      { fault.within text with fragment := fault.fragment ++ more } := by
  obtain ⟨front, rfl⟩ := isSuffix
  simp [within, extend]

end Fault

namespace Grammar

variable {limit allowance : Nat} {text rest more : Text} {fault : Fault}

theorem AtomOf.readTree_append {atom : Atom} {source : Text} (derives : AtomOf atom source rest)
    (shallow : atom.nesting ≤ allowance) (closed : rest ≠ ['\\']) :
    readTree limit allowance (source ++ rest) =
      (readTree limit allowance rest).map fun (tree, after) => (tree.consAtom atom, after) :=
  derives.branchOf.readTree_append (by simpa using shallow) closed

theorem append_ne_cons {c : Char} (filled : text ≠ []) (apart : ∀ after, text ≠ c :: after) (more after : Text) :
    text ++ more ≠ c :: after := by
  obtain ⟨d, tail, rfl⟩ := List.exists_cons_of_ne_nil filled
  intro same
  obtain ⟨rfl, -⟩ := List.cons.inj same
  exact apart tail rfl

theorem closeGroup_append_eq_error (failed : closeGroup text = .error fault) (final : fault.Final) (more : Text) :
    closeGroup (text ++ more) = .error (fault.extend more) := by
  obtain ⟨open_, rfl⟩ := closeGroup_eq_error_iff.mp failed
  obtain ⟨c, tail, rfl⟩ := List.exists_cons_of_ne_nil (final : text ≠ [])
  exact closeGroup_eq_error_iff.mpr ⟨open_, rfl⟩

theorem readLeaf_append_eq_error (failed : readLeaf text = .error fault) (final : fault.Final) (more : Text) :
    readLeaf (text ++ more) = .error (fault.extend more) := by
  rcases readLeaf_eq_error failed with ⟨early, -⟩ | ⟨-, later⟩
  · exact absurd final early.not_final
  · exact later more

theorem readMultiplicity_append_eq_error (failed : readMultiplicity text = .error fault) (final : fault.Final)
    (more : Text) : readMultiplicity (text ++ more) = .error (fault.extend more) := by
  rcases readMultiplicity_eq_error failed with cause | ⟨-, later⟩
  · simp [Fault.Final, cause] at final
  · exact later more

/-- A final fault is met again, in the same place, whatever text follows. -/
theorem FailsWith.readTree_append (fails : FailsWith limit allowance text fault) (final : fault.Final)
    (filled : more ≠ []) : readTree limit allowance (text ++ more) = .error (fault.extend more) := by
  have started := fails.ne_nil
  induction fails with
  | bar fails ih =>
    rw [List.cons_append, readTree_bar, ih final fails.ne_nil]
    rfl
  | refused =>
    rw [List.cons_append, readTree_group_zero]
    rfl
  | inside fails ih =>
    rw [List.cons_append, readTree_group_succ, ih final fails.ne_nil]
    rfl
  | @unclosed _ _ after _ fault inside stopped =>
    have left : after ≠ [] := by
      obtain ⟨-, rfl⟩ := closeGroup_eq_error_iff.mp stopped
      exact final
    rw [List.cons_append, readTree_group_succ, RegexPattern.readTree_append inside left]
    simp only [bind, Except.bind, closeGroup_append_eq_error stopped final]
  | groupQuantifier inside stopped =>
    rw [List.cons_append, readTree_group_succ, RegexPattern.readTree_append inside (by simp)]
    simp only [bind, Except.bind, List.cons_append, closeGroup, readMultiplicity_append_eq_error stopped final]
  | leaf noBar noGroup stopped =>
    rw [readTree_leaf _ _ _ (append_ne_cons started noBar more) (append_ne_cons started noGroup more),
      readLeaf_append_eq_error stopped final]
    rfl
  | @leafQuantifier _ _ after _ _ noBar noGroup leafRead stopped =>
    have left : after ≠ [] := by
      rintro rfl
      cases stopped
    obtain ⟨source, split, derives⟩ := leafOf_append_of_readLeaf leafRead left
    have read := (derives more).readLeaf_append (by simp [List.append_eq_singleton_iff, left, filled])
    rw [readTree_leaf _ _ _ (append_ne_cons started noBar more) (append_ne_cons started noGroup more), split,
      List.append_assoc, read]
    simp only [bind, Except.bind, readMultiplicity_append_eq_error stopped final]
  | @behind _ _ rest _ _ shallow derives fails ih =>
    have closed : rest ++ more ≠ ['\\'] := by simp [List.append_eq_singleton_iff, fails.ne_nil, filled]
    rw [List.append_assoc, (derives more).readTree_append shallow closed, ih final fails.ne_nil]
    rfl

/-- Nothing is left over inside the reader of trees: what it cannot read is where the tree ends. -/
theorem FailsWith.ne_trailingInput (fails : FailsWith limit allowance text fault) :
    fault.cause ≠ .trailingInput := by
  have bounds {text : Text} {fault : Fault} (stopped : readMultiplicity text = .error fault) :
      fault.cause ≠ .trailingInput := by
    rcases readMultiplicity_eq_error stopped with cause | ⟨⟨_, cause⟩, -⟩ <;> simp [cause]
  induction fails with
  | bar _ ih => exact ih
  | refused => nofun
  | inside _ ih => exact ih
  | unclosed _ stopped =>
    obtain ⟨-, rfl⟩ := closeGroup_eq_error_iff.mp stopped
    nofun
  | groupQuantifier _ stopped => exact bounds stopped
  | leaf _ _ stopped =>
    rcases readLeaf_eq_error stopped with ⟨cause | cause, -⟩ | ⟨⟨_, cause⟩, -⟩ <;> simp [cause]
  | leafQuantifier _ _ _ stopped => exact bounds stopped
  | behind _ _ _ ih => exact ih

/-- Some text completes this one to a tree that can end there, with no more groups than allowed. -/
def Completable (allowance : Nat) (text : Text) : Prop :=
  ∃ (more : Text) (tree : Tree), Tree.nesting tree ≤ allowance ∧
    ∀ after, TreeEnds after → TreeOf tree (text ++ more) after

theorem Completable.bar (completable : Completable allowance text) : Completable allowance ('|' :: text) := by
  obtain ⟨more, tree, shallow, derives⟩ := completable
  refine ⟨more, [] :: tree, by simpa [Tree.nesting, Branch.nesting] using shallow, fun after ends => ?_⟩
  exact .cons .nil (derives after ends)

theorem Completable.group (completable : Completable allowance text) :
    Completable (allowance + 1) ('(' :: text) := by
  obtain ⟨more, content, shallow, derives⟩ := completable
  refine ⟨more ++ [')'], [[.group content .once]], ?_, fun after ends => ?_⟩
  · simpa [Tree.nesting, Branch.nesting, Atom.nesting] using shallow
  · have unquantified : ¬ startsQuantifier after := by simp [ends.boundary.unquantified]
    have group := (derives (')' :: after) (.inr ⟨after, rfl⟩)).atomOf unquantified
    simpa using TreeOf.last group.branchOf

theorem Completable.behind {atom : Atom} {source : Text} (derives : ∀ more, AtomOf atom source (text ++ more))
    (fits : atom.nesting ≤ allowance) (completable : Completable allowance text) :
    Completable allowance (source ++ text) := by
  obtain ⟨more, tree, shallow, completed⟩ := completable
  refine ⟨more, tree.consAtom atom, ?_, fun after ends => ?_⟩
  · rw [Tree.nesting_consAtom]
    exact Nat.max_le.mpr ⟨fits, shallow⟩
  · have first := derives (more ++ after)
    rw [← List.append_assoc] at first
    rw [List.append_assoc]
    exact .consAtom first (completed after ends)

/-- What the end of the text interrupts can be completed, from the inside out. -/
theorem FailsWith.completable (fails : FailsWith limit allowance text fault) (incomplete : fault.Incomplete) :
    Completable allowance text := by
  have bounds {text : Text} {fault : Fault} (stopped : readMultiplicity text = .error fault) :
      ¬ fault.Incomplete := by
    rcases readMultiplicity_eq_error stopped with cause | ⟨disorder, -⟩
    · simp [Fault.Incomplete, cause]
    · exact disorder.not_incomplete
  induction fails with
  | bar _ ih => exact (ih incomplete).bar
  | refused => cases incomplete
  | inside _ ih => exact (ih incomplete).group
  | unclosed inside stopped =>
    obtain ⟨-, rfl⟩ := closeGroup_eq_error_iff.mp stopped
    obtain rfl : _ = [] := incomplete
    obtain ⟨source, rfl, derives, shallow⟩ := treeOf_of_readTree inside
    refine Completable.group ⟨[], _, shallow, fun after ends => ?_⟩
    simpa using derives.congr (Boundary.looksLike (by simp [Boundary]) ends.boundary)
  | groupQuantifier _ stopped => exact absurd incomplete (bounds stopped)
  | leaf _ _ stopped =>
    rcases readLeaf_eq_error stopped with ⟨-, more, leaf, derives⟩ | ⟨disorder, -⟩
    · have shallow : Tree.nesting [[.leaf leaf .once]] ≤ 0 := by simp [Tree.nesting, Branch.nesting, Atom.nesting]
      refine ⟨more, _, Nat.le_trans shallow (Nat.zero_le _), fun after ends => ?_⟩
      have unquantified : ¬ startsQuantifier after := by simp [ends.boundary.unquantified]
      exact .last ((derives after ends.boundary).atomOf unquantified).branchOf
    · exact absurd incomplete disorder.not_incomplete
  | leafQuantifier _ _ _ stopped => exact absurd incomplete (bounds stopped)
  | behind shallow derives _ ih => exact (ih incomplete).behind derives shallow

end Grammar

variable {limit : Nat} {pattern : Text} {rejection : Rejection}

theorem parse_append_of_final (read : parse limit pattern = .error rejection) (final : rejection.Final)
    (more : Text) :
    parse limit (pattern ++ more) = .error { rejection with fragment := rejection.fragment ++ more } := by
  by_cases filled : more = []
  · subst filled
    simpa using read
  rcases parse_eq_error read with ⟨fault, stopped, rfl⟩ | ⟨tree, rest, left, stopped, rfl⟩
  · have points : fault.PointsInto limit pattern := pointsInto_of_readTree stopped
    have later := (failsWith_of_readTree stopped).readTree_append final filled
    have place := fault.within_extend points.isSuffix more
    simp only [parse, later, place]
    rfl
  · obtain ⟨front, rfl, -⟩ := treeOf_of_readTree stopped
    have later := readTree_append stopped left more
    have place := Fault.within_extend ⟨.trailingInput, rest⟩ (List.suffix_append front rest) more
    exact (parse_eq_error_of_readTree later (by simp [left])).trans (congrArg Except.error place)

theorem exists_parse_append (read : parse limit pattern = .error rejection) (incomplete : rejection.Incomplete) :
    ∃ more tree, parse limit (pattern ++ more) = .ok tree := by
  rcases parse_eq_error read with ⟨fault, stopped, rfl⟩ | ⟨tree, rest, left, stopped, rfl⟩
  · obtain ⟨more, tree, shallow, derives⟩ := (failsWith_of_readTree stopped).completable incomplete
    exact ⟨more, tree, (derives [] (.inl rfl)).parse_eq shallow⟩
  · cases incomplete

/-- Up to the place where input is left over, the text is a pattern, and no longer prefix is one. -/
theorem parse_prefix_of_trailingInput (read : parse limit pattern = .error rejection)
    (trailing : rejection.cause = .trailingInput) :
    ∃ front, pattern = front ++ rejection.fragment ∧ rejection.offset = byteLength front ∧
      (∃ tree, parse limit front = .ok tree) ∧
      ∀ longer, longer <+: pattern → front.length < longer.length →
        ∃ later, parse limit longer = .error later := by
  rcases parse_eq_error read with ⟨fault, stopped, rfl⟩ | ⟨tree, rest, left, stopped, rfl⟩
  · exact absurd trailing (failsWith_of_readTree stopped).ne_trailingInput
  · obtain ⟨front, rfl, -⟩ := treeOf_of_readTree stopped
    refine ⟨front, rfl, Fault.offset_within _ front, ⟨tree, ?_⟩, fun longer isPrefix further => ?_⟩
    · have whole : readTree limit limit (front ++ []) = .ok (tree, []) :=
        readTree_of_stops stopped (.inl rfl)
      rw [List.append_nil] at whole
      simp [parse, whole]
    · have shorter : front <+: front ++ rest := List.prefix_append front rest
      obtain ⟨rest', rfl⟩ := List.prefix_of_prefix_length_le shorter isPrefix (Nat.le_of_lt further)
      rw [List.prefix_append_right_inj] at isPrefix
      have filled : rest' ≠ [] := by
        rintro rfl
        simp at further
      have same : rest'.head? = rest.head? := by
        obtain ⟨c, tail, rfl⟩ := List.exists_cons_of_ne_nil filled
        obtain ⟨back, rfl⟩ := isPrefix
        rfl
      exact ⟨_, parse_eq_error_of_readTree (readTree_of_stops stopped (.inr same)) filled⟩

/-- A final fault stays the reason and keeps its place whatever text follows the pattern; a pattern that
ends too early can be completed; and where input is left over, the text up to there is the longest prefix
that is a pattern. -/
theorem parse_continued (read : parse limit pattern = .error rejection) :
    (rejection.Final → ∀ more, parse limit (pattern ++ more) =
      .error { rejection with fragment := rejection.fragment ++ more }) ∧
    (rejection.Incomplete → ∃ more tree, parse limit (pattern ++ more) = .ok tree) ∧
    (rejection.cause = .trailingInput →
      ∃ front, pattern = front ++ rejection.fragment ∧ rejection.offset = byteLength front ∧
        (∃ tree, parse limit front = .ok tree) ∧
        ∀ longer, longer <+: pattern → front.length < longer.length →
          ∃ later, parse limit longer = .error later) :=
  ⟨parse_append_of_final read, exists_parse_append read, parse_prefix_of_trailingInput read⟩

theorem parse_continued_interrupted :
    let pattern : Text := ['é', ')', 'b']
    let trailing : Rejection := ⟨⟨.trailingInput, [')', 'b']⟩, 2⟩
    let dangling : Rejection := ⟨⟨.danglingEscape, ['\\']⟩, 4⟩
    (parse 1 pattern = .error trailing ∧ trailing.Final ∧
      (∀ more, parse 1 (pattern ++ more) = .error { trailing with fragment := trailing.fragment ++ more }) ∧
      ∃ front, pattern = front ++ trailing.fragment ∧ trailing.offset = byteLength front ∧
        (∃ tree, parse 1 front = .ok tree) ∧
        ∀ longer, longer <+: pattern → front.length < longer.length →
          ∃ later, parse 1 longer = .error later) ∧
    (parse 1 ['(', '[', 'a', '-', '\\'] = .error dangling ∧ dangling.Incomplete ∧
      ∃ more tree, parse 1 (['(', '[', 'a', '-', '\\'] ++ more) = .ok tree) := by
  intro pattern trailing dangling
  have stopped : parse 1 pattern = .error trailing := by decide +kernel
  have interrupted : parse 1 ['(', '[', 'a', '-', '\\'] = .error dangling := by decide +kernel
  have continued := parse_continued stopped
  exact ⟨⟨stopped, trivial, continued.1 trivial, continued.2.2 rfl⟩,
    interrupted, trivial, (parse_continued interrupted).2.1 trivial⟩

end RegexPattern
