import RegexPattern.Tree
import RegexPattern.Reader.Charset
import RegexPattern.Reader.Quantifier

/-!
Reading trees. A bar starts a new branch, a parenthesis a group, and anything else a leaf; a
quantifier may follow a group or a leaf. The reader of a tree stops where none of these starts,
which for the content of a group has to be at the closing parenthesis and for a whole pattern at
its end.
-/

namespace RegexPattern.Reader

/-- The leaf at the front of the text; `none` where no leaf starts. -/
def readLeaf : Text → Except Fault (Option (Leaf × Text))
  | '[' :: rest => (readCharset rest).map fun (set, after) => some (.charset set, after)
  | '.' :: rest => .ok (some (.anyChar, rest))
  | '^' :: rest => .ok (some (.matchStart, rest))
  | '$' :: rest => .ok (some (.matchEnd, rest))
  | text => (readLiteral text).map fun (run, after) =>
    if run = [] then none else some (.literal run, after)

theorem length_readLeaf {text rest : Text} {leaf : Leaf}
    (read : readLeaf text = .ok (some (leaf, rest))) : rest.length < text.length := by
  unfold readLeaf at read
  split at read
  · obtain ⟨⟨set, after⟩, read', same⟩ := map_eq_ok.1 read
    have later := length_readCharset read'
    cases same
    rw [List.length_cons]
    omega
  · cases read
    exact Nat.lt_succ_self _
  · cases read
    exact Nat.lt_succ_self _
  · cases read
    exact Nat.lt_succ_self _
  · obtain ⟨⟨run, after⟩, read', same⟩ := map_eq_ok.1 read
    simp only [Option.ite_none_left_eq_some, Option.some.injEq, Prod.mk.injEq] at same
    obtain ⟨filled, _, rfl⟩ := same
    exact (length_readLiteral read').resolve_left fun nothing => filled nothing.1

def closeGroup : Text → Except Fault Text
  | ')' :: rest => .ok rest
  | text => .error ⟨.unclosedGroup, text⟩

theorem length_closeGroup {text rest : Text} (closed : closeGroup text = .ok rest) :
    rest.length < text.length := by
  unfold closeGroup at closed
  split at closed <;> simp_all

/-- The tree at the front of the text, with the evidence that the rest is no longer than the
text. `allowance` groups may be opened inside one another; `limit` is what the fault names when
there are more. -/
def readTreeShrinking (limit allowance : Nat) (text : Text) :
    Except Fault (Tree × { rest : Text // rest.length ≤ text.length }) :=
  match text with
  | '|' :: rest =>
    match readTreeShrinking limit allowance rest with
    | .error fault => .error fault
    | .ok (tree, ⟨after, shorter⟩) => .ok ([] :: tree, ⟨after, Nat.le_succ_of_le shorter⟩)
  | '(' :: rest =>
    match allowance with
    | 0 => .error ⟨.nestingTooDeep limit, '(' :: rest⟩
    | inner + 1 =>
      match readTreeShrinking limit inner rest with
      | .error fault => .error fault
      | .ok (content, ⟨after, shorter⟩) =>
        match closed : closeGroup after with
        | .error fault => .error fault
        | .ok after' =>
          match quantified : readMultiplicity after' with
          | .error fault => .error fault
          | .ok (mult, after'') =>
            have shorter'' : after''.length < rest.length := by
              have := length_closeGroup closed
              have := length_readMultiplicity quantified
              omega
            match readTreeShrinking limit (inner + 1) after'' with
            | .error fault => .error fault
            | .ok (tree, ⟨last, shortest⟩) =>
              .ok (tree.consAtom (.group content mult),
                ⟨last, Nat.le_trans shortest (Nat.le_succ_of_le (Nat.le_of_lt shorter''))⟩)
  | text =>
    match leafRead : readLeaf text with
    | .error fault => .error fault
    | .ok none => .ok ([[]], ⟨text, Nat.le_refl _⟩)
    | .ok (some (leaf, after)) =>
      match quantified : readMultiplicity after with
      | .error fault => .error fault
      | .ok (mult, after') =>
        have shorter : after'.length < text.length := by
          have := length_readLeaf leafRead
          have := length_readMultiplicity quantified
          omega
        match readTreeShrinking limit allowance after' with
        | .error fault => .error fault
        | .ok (tree, ⟨last, shortest⟩) =>
          .ok (tree.consAtom (.leaf leaf mult), ⟨last, by omega⟩)
termination_by text.length
decreasing_by
  · simp
  · simp
  · exact Nat.lt_succ_of_lt shorter''
  · exact shorter

def readTree (limit allowance : Nat) (text : Text) : Reading Tree :=
  (readTreeShrinking limit allowance text).map fun (tree, rest) => (tree, rest.val)

theorem length_readTree {limit allowance : Nat} {text rest : Text} {tree : Tree}
    (read : readTree limit allowance text = .ok (tree, rest)) : rest.length ≤ text.length := by
  obtain ⟨⟨tree', ⟨rest', shorter⟩⟩, _, same⟩ := map_eq_ok.1 read
  cases same
  exact shorter

theorem readTree_bar (limit allowance : Nat) (rest : Text) :
    readTree limit allowance ('|' :: rest) =
      (readTree limit allowance rest).map fun (tree, after) => ([] :: tree, after) := by
  unfold readTree
  rw [readTreeShrinking]
  cases readTreeShrinking limit allowance rest <;> rfl

theorem readTree_group_zero (limit : Nat) (rest : Text) :
    readTree limit 0 ('(' :: rest) = .error ⟨.nestingTooDeep limit, '(' :: rest⟩ := by
  rw [readTree, readTreeShrinking]
  rfl

theorem readTree_group_succ (limit inner : Nat) (rest : Text) :
    readTree limit (inner + 1) ('(' :: rest) = (do
      let (content, after) ← readTree limit inner rest
      let after ← closeGroup after
      let (mult, after) ← readMultiplicity after
      let (tree, after) ← readTree limit (inner + 1) after
      .ok (tree.consAtom (.group content mult), after) : Except Fault (Tree × Text)) := by
  unfold readTree
  rw [readTreeShrinking]
  cases readTreeShrinking limit inner rest with
  | error => rfl
  | ok content =>
    obtain ⟨content, after, shorter⟩ := content
    simp only [map_ok, bind, Except.bind]
    split
    · next closed => simp [closed]
    · next after' closed =>
      simp only [closed]
      split
      · next quantified => simp [quantified]
      · next mult after'' quantified =>
        simp only [quantified]
        cases readTreeShrinking limit (inner + 1) after'' <;> rfl

theorem readTree_leaf (limit allowance : Nat) (text : Text)
    (noBar : ∀ rest, text ≠ '|' :: rest) (noGroup : ∀ rest, text ≠ '(' :: rest) :
    readTree limit allowance text = (do
      match ← readLeaf text with
      | none => .ok ([[]], text)
      | some (leaf, after) =>
        let (mult, after) ← readMultiplicity after
        let (tree, after) ← readTree limit allowance after
        .ok (tree.consAtom (.leaf leaf mult), after) : Except Fault (Tree × Text)) := by
  unfold readTree
  rw [readTreeShrinking]
  · simp only [bind, Except.bind]
    split
    · next leafRead => simp [leafRead]
    · next leafRead => simp [leafRead]
    · next leaf after leafRead =>
      simp only [leafRead]
      split
      · next quantified => simp [quantified]
      · next mult after' quantified =>
        simp only [quantified]
        cases readTreeShrinking limit allowance after' <;> rfl
  · exact noBar
  · exact noGroup

end RegexPattern.Reader
