import RegexPattern.Pattern
import RegexPattern.Proofs.TreeParts
import RegexPattern.Proofs.Reader.Literal
import RegexPattern.Proofs.Reader.Quantifier
import RegexPattern.Proofs.Reader.Charset

/-!
The reader of trees against the grammar: a tree is read exactly when the text derives it and no more
groups than allowed stand inside one another.
-/

namespace RegexPattern

theorem Tree.nesting_consAtom (atom : Atom) (tree : Tree) :
    nesting (tree.consAtom atom) = max atom.nesting (nesting tree) := by
  cases tree with
  | nil => simp [consAtom, nesting, Branch.nesting]
  | cons branch rest => simp [consAtom, nesting, Branch.nesting, Nat.max_assoc]

@[simp] theorem Tree.foldr_consAtom (branch first : Branch) (others : Tree) :
    branch.foldr consAtom (first :: others) = (branch ++ first) :: others := by
  induction branch with
  | nil => rfl
  | cons atom branch ih => rw [List.foldr_cons, ih, consAtom, List.cons_append]

namespace Grammar
open Reader

theorem LeafOf.readLeaf_append {leaf : Leaf} {source rest : Text} (derives : LeafOf leaf source rest)
    (closed : rest ≠ ['\\']) : readLeaf (source ++ rest) = .ok (some (leaf, rest)) := by
  cases derives with
  | anyChar => rfl
  | matchStart => rfl
  | matchEnd => rfl
  | charset derives =>
    obtain ⟨inner, split, read⟩ := derives.readCharset_append rest
    simp [split, readLeaf, read]
  | @literal run source _ derives =>
    have read := derives.readLiteral_append closed
    obtain ⟨first, more, rfl, noCharset, kind⟩ := derives.head
    have filled := derives.ne_nil
    have ordinary : first ≠ '.' ∧ first ≠ '^' ∧ first ≠ '$' := by
      rcases kind with ⟨rfl, -⟩ | plain
      · decide
      · simp_all [isPlain, isMetachar]
    rw [List.cons_append] at *
    unfold readLeaf
    split <;> simp_all

theorem leafOf_of_readLeaf {leaf : Leaf} {text rest : Text}
    (read : readLeaf text = .ok (some (leaf, rest))) :
    ∃ source, text = source ++ rest ∧ LeafOf leaf source rest := by
  unfold readLeaf at read
  split at read
  · obtain ⟨⟨set, after⟩, read', same⟩ := map_eq_ok.1 read
    cases same
    obtain ⟨source, split, derives⟩ := charsetOf_of_readCharset read'
    exact ⟨source, split, .charset derives⟩
  · cases read
    exact ⟨['.'], rfl, .anyChar⟩
  · cases read
    exact ⟨['^'], rfl, .matchStart⟩
  · cases read
    exact ⟨['$'], rfl, .matchEnd⟩
  · next noCharset _ _ _ =>
    obtain ⟨⟨run, after⟩, read', same⟩ := map_eq_ok.1 read
    simp only [Option.ite_none_left_eq_some, Option.some.injEq, Prod.mk.injEq] at same
    obtain ⟨filled, rfl, rfl⟩ := same
    have noCharset : text.head? ≠ some '[' := by
      intro bracket
      obtain ⟨more, rfl⟩ := List.head?_eq_some_iff.mp bracket
      exact noCharset more rfl
    obtain ⟨source, split, derives⟩ := literalOf_of_readLiteral read' filled noCharset
    exact ⟨source, split, .literal derives⟩

theorem closeGroup_eq_ok_iff {text rest : Text} : closeGroup text = .ok rest ↔ text = ')' :: rest := by
  unfold closeGroup
  split <;> simp_all

theorem closeGroup_eq_error_iff {text : Text} {fault : Fault} :
    closeGroup text = .error fault ↔ text.head? ≠ some ')' ∧ fault = ⟨.unclosedGroup, text⟩ := by
  unfold closeGroup
  split
  · simp
  · next open_ =>
    have noClosing : text.head? ≠ some ')' := by
      intro closing
      obtain ⟨more, rfl⟩ := List.head?_eq_some_iff.mp closing
      exact open_ more rfl
    simp [noClosing, eq_comm]

section

variable {limit allowance : Nat}

theorem readTree_leaf_append {leaf : Leaf} {mult : Multiplicity} {source quantifier rest : Text}
    (derives : LeafOf leaf source (quantifier ++ rest)) (quantified : QuantifierOf mult quantifier rest)
    (closed : rest ≠ ['\\']) :
    readTree limit allowance (source ++ quantifier ++ rest) =
      (readTree limit allowance rest).map fun (tree, after) => (tree.consAtom (.leaf leaf mult), after) := by
  have leafRead := derives.readLeaf_append (quantified.append_ne closed)
  rw [List.append_assoc, readTree_leaf]
  · simp only [leafRead, quantified.readMultiplicity_append, bind, Except.bind]
    cases readTree limit allowance rest <;> rfl
  all_goals
    obtain ⟨first, more, rfl, starts, noGroup, -⟩ := derives.head
    intro more' same
    obtain ⟨rfl, -⟩ := List.cons.inj same
    first | exact noGroup rfl | exact absurd starts (by decide)

theorem readTree_group_append {content : Tree} {mult : Multiplicity} {inner quantifier rest : Text}
    (inside : readTree limit allowance (inner ++ ')' :: (quantifier ++ rest)) =
      .ok (content, ')' :: (quantifier ++ rest)))
    (quantified : QuantifierOf mult quantifier rest) :
    readTree limit (allowance + 1) (['('] ++ inner ++ [')'] ++ quantifier ++ rest) =
      (readTree limit (allowance + 1) rest).map fun (tree, after) =>
        (tree.consAtom (.group content mult), after) := by
  have split : ['('] ++ inner ++ [')'] ++ quantifier ++ rest =
      '(' :: (inner ++ ')' :: (quantifier ++ rest)) := by simp
  rw [split, readTree_group_succ, inside]
  simp only [closeGroup, quantified.readMultiplicity_append, bind, Except.bind]
  cases readTree limit (allowance + 1) rest <;> rfl

/-- No branch goes on here: the text ends, a group closes, or a quantifier has nothing to bind to. -/
def TreeStops (rest : Text) : Prop := ∀ c ∈ rest.head?, c = ')' ∨ isOpener c

theorem TreeStops.readTree_eq {rest : Text} (stops : TreeStops rest) :
    readTree limit allowance rest = .ok ([[]], rest) := by
  have noLeaf : readLeaf rest = .ok none := by
    cases rest with
    | nil => rfl
    | cons c more =>
      have cases : c = ')' ∨ c = '{' ∨ c = '?' ∨ c = '+' ∨ c = '*' := by simpa [isOpener] using stops c rfl
      rcases cases with rfl | rfl | rfl | rfl | rfl <;> rfl
  rw [readTree_leaf, noLeaf]
  · rfl
  all_goals
    rintro more rfl
    exact absurd (stops _ rfl) (by decide)

theorem TreeStops.ne {rest : Text} (stops : TreeStops rest) : rest ≠ ['\\'] := by
  rintro rfl
  exact absurd (stops _ rfl) (by decide)

/-- Any text that derives the tree is read, with an allowance for its groups. -/
def ReadsDerived (limit : Nat) (tree : Tree) : Prop :=
  ∀ allowance source rest, TreeOf tree source rest → Tree.nesting tree ≤ allowance → TreeStops rest →
    readTree limit allowance (source ++ rest) = .ok (tree, rest)

theorem BranchOf.readTree_append_of {branch : Branch} {source rest : Text}
    (inside : ∀ atom ∈ branch, ∀ content ∈ atom.content?, ReadsDerived limit content)
    (derives : BranchOf branch source rest) (shallow : ∀ atom ∈ branch, atom.nesting ≤ allowance)
    (closed : rest ≠ ['\\']) :
    readTree limit allowance (source ++ rest) =
      (readTree limit allowance rest).map fun (tree, after) => (branch.foldr Tree.consAtom tree, after) := by
  induction branch generalizing source with
  | nil =>
    cases derives
    rw [List.nil_append]
    cases readTree limit allowance rest <;> rfl
  | cons atom branch ih =>
    cases derives with
    | @cons _ _ source more _ atomDerives derives =>
      have later := ih (fun atom member => inside atom (List.mem_cons_of_mem _ member)) derives
        (fun atom member => shallow atom (List.mem_cons_of_mem _ member))
      have fits := shallow atom List.mem_cons_self
      have first : readTree limit allowance (source ++ (more ++ rest)) =
          (readTree limit allowance (more ++ rest)).map fun (tree, after) => (tree.consAtom atom, after) := by
        cases atomDerives with
        | leaf leafDerives quantified =>
          exact readTree_leaf_append leafDerives quantified (derives.append_ne closed)
        | @group content mult inner quantifier _ contentDerives quantified =>
          rw [Atom.nesting] at fits
          obtain ⟨allowance, rfl⟩ : ∃ deeper, allowance = deeper + 1 := ⟨allowance - 1, by omega⟩
          refine readTree_group_append ?_ quantified
          exact inside _ List.mem_cons_self content rfl allowance _ _ contentDerives
            (Nat.le_of_succ_le_succ fits) (by simp [TreeStops])
      rw [List.append_assoc, first, later]
      cases readTree limit allowance rest <;> rfl

theorem readsDerived (tree : Tree) : ReadsDerived limit tree := by
  induction tree using Tree.induct with
  | step tree inside =>
    intro allowance source rest derives shallow stops
    rw [Tree.nesting_le_iff] at shallow
    induction tree generalizing source with
    | nil => cases derives
    | cons branch tree ih =>
      have here := fun atom member => inside branch List.mem_cons_self atom member
      have fits := shallow branch List.mem_cons_self
      cases derives with
      | last derives =>
        rw [derives.readTree_append_of here fits stops.ne, stops.readTree_eq]
        simp
      | @cons _ _ source more _ branchDerives derives =>
        have later := ih (fun branch member => inside branch (List.mem_cons_of_mem _ member)) _ derives
          (fun branch member => shallow branch (List.mem_cons_of_mem _ member))
        have split : source ++ ['|'] ++ more ++ rest = source ++ '|' :: (more ++ rest) := by simp
        rw [split, branchDerives.readTree_append_of here fits (by simp), readTree_bar, later]
        simp

theorem BranchOf.readTree_append {branch : Branch} {source rest : Text} (derives : BranchOf branch source rest)
    (shallow : ∀ atom ∈ branch, atom.nesting ≤ allowance) (closed : rest ≠ ['\\']) :
    readTree limit allowance (source ++ rest) =
      (readTree limit allowance rest).map fun (tree, after) => (branch.foldr Tree.consAtom tree, after) :=
  derives.readTree_append_of (fun _ _ content _ => readsDerived content) shallow closed

theorem readTree_group_eq_ok {tree : Tree} {text rest : Text}
    (read : readTree limit (allowance + 1) ('(' :: text) = .ok (tree, rest)) :
    ∃ content more mult after tree', readTree limit allowance text = .ok (content, ')' :: more) ∧
      readMultiplicity more = .ok (mult, after) ∧
      readTree limit (allowance + 1) after = .ok (tree', rest) ∧
      tree = tree'.consAtom (.group content mult) := by
  rw [readTree_group_succ] at read
  obtain ⟨⟨content, after⟩, inside, read⟩ := bind_eq_ok.mp read
  obtain ⟨more, closed, read⟩ := bind_eq_ok.mp read
  obtain ⟨⟨mult, after'⟩, quantified, read⟩ := bind_eq_ok.mp read
  obtain ⟨⟨tree', last⟩, read', same⟩ := bind_eq_ok.mp read
  cases same
  cases closeGroup_eq_ok_iff.mp closed
  exact ⟨content, more, mult, after', tree', inside, quantified, read', rfl⟩

theorem readTree_leaf_eq_ok {tree : Tree} {text rest : Text} (noBar : ∀ more, text ≠ '|' :: more)
    (noGroup : ∀ more, text ≠ '(' :: more) (read : readTree limit allowance text = .ok (tree, rest)) :
    (tree = [[]] ∧ rest = text ∧ readLeaf text = .ok none) ∨
      ∃ leaf more mult after tree', readLeaf text = .ok (some (leaf, more)) ∧
        readMultiplicity more = .ok (mult, after) ∧
        readTree limit allowance after = .ok (tree', rest) ∧
        tree = tree'.consAtom (.leaf leaf mult) := by
  rw [readTree_leaf _ _ _ noBar noGroup] at read
  obtain ⟨found, leafRead, read⟩ := bind_eq_ok.mp read
  cases found with
  | none =>
    cases read
    exact .inl ⟨rfl, rfl, leafRead⟩
  | some found =>
    obtain ⟨⟨mult, after⟩, quantified, read⟩ := bind_eq_ok.mp read
    obtain ⟨⟨tree', last⟩, read', same⟩ := bind_eq_ok.mp read
    cases same
    exact .inr ⟨found.1, found.2, mult, after, tree', leafRead, quantified, read', rfl⟩

theorem readTree_group_eq_error {text : Text} {fault : Fault}
    (read : readTree limit (allowance + 1) ('(' :: text) = .error fault) :
    readTree limit allowance text = .error fault ∨
      ∃ content after, readTree limit allowance text = .ok (content, after) ∧
        (closeGroup after = .error fault ∨ ∃ more, after = ')' :: more ∧
          (readMultiplicity more = .error fault ∨ ∃ mult rest, readMultiplicity more = .ok (mult, rest) ∧
            readTree limit (allowance + 1) rest = .error fault)) := by
  rw [readTree_group_succ] at read
  rcases bind_eq_error.mp read with stopped | ⟨⟨content, after⟩, inside, onwards⟩
  · exact .inl stopped
  refine .inr ⟨content, after, inside, ?_⟩
  rcases bind_eq_error.mp onwards with stopped | ⟨more, closed, onwards⟩
  · exact .inl stopped
  refine .inr ⟨more, closeGroup_eq_ok_iff.mp closed, ?_⟩
  rcases bind_eq_error.mp onwards with stopped | ⟨⟨mult, rest⟩, quantified, onwards⟩
  · exact .inl stopped
  rcases bind_eq_error.mp onwards with stopped | ⟨_, _, finished⟩
  · exact .inr ⟨mult, rest, quantified, stopped⟩
  · cases finished

theorem readTree_leaf_eq_error {text : Text} {fault : Fault} (noBar : ∀ more, text ≠ '|' :: more)
    (noGroup : ∀ more, text ≠ '(' :: more) (read : readTree limit allowance text = .error fault) :
    readLeaf text = .error fault ∨ ∃ leaf more, readLeaf text = .ok (some (leaf, more)) ∧
      (readMultiplicity more = .error fault ∨ ∃ mult rest, readMultiplicity more = .ok (mult, rest) ∧
        readTree limit allowance rest = .error fault) := by
  rw [readTree_leaf _ _ _ noBar noGroup] at read
  rcases bind_eq_error.mp read with stopped | ⟨_ | ⟨leaf, more⟩, leafRead, onwards⟩
  · exact .inl stopped
  · cases onwards
  refine .inr ⟨leaf, more, leafRead, ?_⟩
  rcases bind_eq_error.mp onwards with stopped | ⟨⟨mult, rest⟩, quantified, onwards⟩
  · exact .inl stopped
  rcases bind_eq_error.mp onwards with stopped | ⟨_, _, finished⟩
  · exact .inr ⟨mult, rest, quantified, stopped⟩
  · cases finished

/-- What is read is derived by the text that the reader takes. -/
theorem treeOf_of_readTree {tree : Tree} {text rest : Text}
    (read : readTree limit allowance text = .ok (tree, rest)) :
    ∃ source, text = source ++ rest ∧ TreeOf tree source rest ∧ Tree.nesting tree ≤ allowance := by
  induction size : text.length using Nat.strongRecOn generalizing text tree rest allowance with
  | ind bound ih =>
    subst size
    by_cases bar : ∃ more, text = '|' :: more
    · obtain ⟨more, rfl⟩ := bar
      rw [readTree_bar] at read
      obtain ⟨⟨tree', after⟩, read', same⟩ := map_eq_ok.1 read
      cases same
      obtain ⟨source, rfl, derives, shallow⟩ := ih _ (by simp) read' rfl
      exact ⟨'|' :: source, rfl, .cons .nil derives, by simpa [Tree.nesting, Branch.nesting] using shallow⟩
    by_cases group : ∃ more, text = '(' :: more
    · obtain ⟨more, rfl⟩ := group
      cases allowance with
      | zero =>
        rw [readTree_group_zero] at read
        cases read
      | succ allowance =>
        obtain ⟨content, after, mult, after', tree', inside, quantified, read', rfl⟩ := readTree_group_eq_ok read
        obtain ⟨inner, rfl, contentDerives, deep⟩ := ih _ (by simp) inside rfl
        obtain ⟨quantifier, rfl, quantifierDerives⟩ := quantifierOf_of_readMultiplicity quantified
        obtain ⟨source, rfl, derives, shallow⟩ := ih _ (by simp; omega) read' rfl
        refine ⟨['('] ++ inner ++ [')'] ++ quantifier ++ source, by simp, ?_, ?_⟩
        · exact .consAtom (.group contentDerives quantifierDerives) derives
        · rw [Tree.nesting_consAtom, Atom.nesting]
          omega
    · rcases readTree_leaf_eq_ok (fun more same => bar ⟨more, same⟩) (fun more same => group ⟨more, same⟩) read
        with ⟨rfl, rfl, -⟩ | ⟨leaf, after, mult, after', tree', leafRead, quantified, read', rfl⟩
      · exact ⟨[], rfl, .last .nil, Nat.zero_le _⟩
      · obtain ⟨front, rfl, leafDerives⟩ := leafOf_of_readLeaf leafRead
        obtain ⟨quantifier, rfl, quantifierDerives⟩ := quantifierOf_of_readMultiplicity quantified
        have shorter : after'.length < (front ++ (quantifier ++ after')).length := by
          obtain ⟨first, more, rfl, -⟩ := leafDerives.head
          simp only [List.length_append, List.length_cons]
          omega
        obtain ⟨source, rfl, derives, shallow⟩ := ih _ shorter read' rfl
        refine ⟨front ++ quantifier ++ source, by simp, ?_, ?_⟩
        · exact .consAtom (.leaf leafDerives quantifierDerives) derives
        · rw [Tree.nesting_consAtom, Atom.nesting, Nat.zero_max]
          exact shallow

end

theorem TreeOf.parse_eq {limit : Nat} {pattern : Text} {tree : Tree} (derives : TreeOf tree pattern [])
    (shallow : Tree.nesting tree ≤ limit) : parse limit pattern = .ok tree := by
  have read : readTree limit limit (pattern ++ []) = .ok (tree, []) :=
    readsDerived tree limit pattern [] derives shallow (by simp [TreeStops])
  rw [List.append_nil] at read
  simp [parse, read]

theorem BranchOf.parse_eq {limit : Nat} {pattern : Text} {branch : Branch} (derives : BranchOf branch pattern [])
    (shallow : Branch.nesting branch ≤ limit) : parse limit pattern = .ok [branch] :=
  (TreeOf.last derives).parse_eq (by simpa [Tree.nesting] using shallow)

theorem treeOf_of_parse {limit : Nat} {pattern : Text} {tree : Tree} (read : parse limit pattern = .ok tree) :
    TreeOf tree pattern [] ∧ Tree.nesting tree ≤ limit := by
  unfold parse at read
  split at read
  · simp at read
  · next read' =>
    cases read
    obtain ⟨source, rfl, derives, shallow⟩ := treeOf_of_readTree read'
    exact ⟨by simpa using derives, shallow⟩
  · simp at read

/-- A pattern is read as a tree exactly when the whole of it derives the tree and the groups of the tree
are within the limit. -/
theorem parse_eq_ok_iff_treeOf {limit : Nat} {pattern : Text} {tree : Tree} :
    parse limit pattern = .ok tree ↔ Tree.nesting tree ≤ limit ∧ TreeOf tree pattern [] := by
  constructor
  · intro read
    obtain ⟨derives, shallow⟩ := treeOf_of_parse read
    exact ⟨shallow, derives⟩
  · intro ⟨shallow, derives⟩
    exact derives.parse_eq shallow

end Grammar

end RegexPattern
