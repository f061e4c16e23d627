import RegexPattern.Proofs.Image
import RegexPattern.Proofs.ReadBack
import RegexPattern.Proofs.Shortest
import RegexPattern.Report

/-!
Patterns that are their own canonical text. No construct is written longer than its source, so where
the two texts agree as a whole they agree construct by construct.
-/

namespace RegexPattern

open Text Grammar

theorem append_inj_of_length_le {front back front' back' : Text} (same : front ++ back = front' ++ back')
    (first : front.length ≤ front'.length) (second : back.length ≤ back'.length) :
    front = front' ∧ back = back' := by
  have lengths := congrArg List.length same
  rw [List.length_append, List.length_append] at lengths
  exact List.append_inj same (by omega)

namespace Grammar

theorem UnitOf.readable {c : Char} (derives : UnitOf c (escapeChar false c)) :
    ¬ isSpecial c ∧ ¬ isControl c := by
  generalize written : escapeChar false c = unit at derives
  cases derives with
  | escaped =>
    rw [eq_of_escapeChar_eq_pair written]
    decide
  | plain plain =>
    have visible := visible_escapeChar false c
    rw [written] at visible
    refine ⟨?_, visible c List.mem_cons_self⟩
    simp_all [isPlain, isMetachar, isSpecial]

theorem RunOf.readable {run rest : Text} (derives : RunOf run (escape false run) rest) :
    ∀ c ∈ run, ¬ isSpecial c ∧ ¬ isControl c := by
  generalize written : escape false run = source at derives
  induction derives with
  | nil => nofun
  | @cons c unit run source _ derives _ later ih =>
    have visible : Visible (unit ++ source) := written ▸ visible_escape false _
    obtain ⟨front, back⟩ := visible_append.mp visible
    obtain ⟨first, second⟩ := append_inj_of_length_le ((escape_cons ..).symm.trans written)
      (derives.length_escapeChar_le front) (later.length_escape_le back)
    intro d member
    rcases List.mem_cons.mp member with rfl | member
    · exact (first ▸ derives).readable
    · exact ih second d member

theorem LiteralOf.readable {run rest : Text} (derives : LiteralOf run (escape false run) rest) :
    run.head? ≠ some '[' ∧ ∀ c ∈ run, ¬ isSpecial c ∧ ¬ isControl c := by
  have noBracket (noCharset : (escape false run).head? ≠ some '[') : run.head? ≠ some '[' := by
    intro bracket
    obtain ⟨more, rfl⟩ := List.head?_eq_some_iff.mp bracket
    exact noCharset rfl
  generalize written : escape false run = source at derives noBracket
  cases derives with
  | @single c _ _ derives noCharset =>
    have same : escapeChar false c = source := by simpa using written
    refine ⟨noBracket noCharset, ?_⟩
    intro d member
    rw [List.mem_singleton.mp member]
    exact (same ▸ derives).readable
  | run derives _ noCharset => exact ⟨noBracket noCharset, (written ▸ derives).readable⟩

theorem comma_not_mem_decimal (n : Nat) : ',' ∉ decimal n :=
  fun member => absurd (isDigit_of_mem_decimal member) (by decide)

theorem BoundsOf.comma_mem {min max : UInt32} {source : Text} (derives : BoundsOf min (some max) source) :
    ',' ∈ source := by
  cases derives <;> simp

theorem QuantifierOf.faithful {mult : Multiplicity} {rest : Text} (derives : QuantifierOf mult mult.text rest) :
    mult.Faithful := by
  generalize written : mult.text = source at derives
  cases derives with
  | optional => exact .inl rfl
  | exactly => exact .inl rfl
  | greedy _ greedy => exact .inl greedy
  | once => exact .inl rfl
  | @nonGreedy _ source _ bounds lazy =>
    have marks : (if mult.repeating && !mult.greedy then ['?'] else []).length ≤ ['?'].length := by
      split <;> simp
    obtain ⟨same, mark⟩ := append_inj_of_length_le written bounds.length_boundsText_le marks
    have repeating : mult.repeating = true := by
      by_contra bounded
      simp [bounded] at mark
    obtain ⟨min, max, greedy, ordered⟩ := mult
    cases max with
    | none => exact .inr (.inl rfl)
    | some max =>
      refine .inr (.inr ⟨max, rfl, by simpa [Multiplicity.repeating] using repeating, ?_⟩)
      intro equal
      have comma := bounds.comma_mem
      rw [← same] at comma
      have equal : max = min := equal
      subst equal
      simp only [Multiplicity.boundsText] at comma
      split at comma <;> simp [comma_not_mem_decimal] at comma

/-- A leaf and its quantifier are written together as they were read only if each of them is. -/
theorem AtomOf.leafOf {leaf : Leaf} {mult : Multiplicity} {rest : Text}
    (derives : AtomOf (.leaf leaf mult) (leaf.text ++ mult.text) rest) :
    LeafOf leaf leaf.text (mult.text ++ rest) ∧ QuantifierOf mult mult.text rest := by
  have visible : Visible (leaf.text ++ mult.text) := visible_append.mpr ⟨leaf.visible_text, mult.visible_text⟩
  generalize written : leaf.text ++ mult.text = source at derives visible
  cases derives with
  | leaf derives quantified =>
    obtain ⟨same, same'⟩ := append_inj_of_length_le written
      (derives.length_text_le (visible_append.mp visible).1) quantified.length_text_le
    rw [same, same']
    exact ⟨derives, quantified⟩

theorem AtomOf.contentOf {content : Tree} {mult : Multiplicity} {rest : Text}
    (derives : AtomOf (.group content mult) (Atom.canonical (.group content mult)) rest) :
    TreeOf content (Tree.canonical content) (')' :: (mult.text ++ rest)) ∧
      QuantifierOf mult mult.text rest := by
  have visible := Atom.visible_canonical (.group content mult)
  generalize written : Atom.canonical (.group content mult) = source at derives visible
  cases derives with
  | @group _ _ inner quantifier _ derives quantified =>
    simp only [visible_append] at visible
    have shorter := writtenShort content inner _ derives visible.1.1.2
    obtain ⟨same, same'⟩ := append_inj_of_length_le written (by simpa using shorter) quantified.length_text_le
    have same : Tree.canonical content = inner := by simpa using same
    rw [same, same']
    exact ⟨derives, quantified⟩

theorem BranchOf.split {atom : Atom} {branch : Branch} {rest : Text}
    (derives : BranchOf (atom :: branch) (Branch.canonical (atom :: branch)) rest) :
    AtomOf atom atom.canonical (Branch.canonical branch ++ rest) ∧
      BranchOf branch (Branch.canonical branch) rest := by
  have visible := Branch.visible_canonical (atom :: branch)
  generalize written : Branch.canonical (atom :: branch) = source at derives visible
  cases derives with
  | cons first derives =>
    obtain ⟨front, back⟩ := visible_append.mp visible
    obtain ⟨same, same'⟩ := append_inj_of_length_le written
      (first.length_canonical_le front) (derives.length_canonical_le back)
    rw [same, same']
    exact ⟨first, derives⟩

theorem TreeOf.branchOf {tree : Tree} {rest : Text} (derives : TreeOf tree (Tree.canonical tree) rest) :
    ∀ branch ∈ tree, ∃ rest, BranchOf branch (Branch.canonical branch) rest := by
  induction tree with
  | nil => nofun
  | cons branch tree ih =>
    have visible := Tree.visible_canonical (branch :: tree)
    generalize written : Tree.canonical (branch :: tree) = source at derives visible
    cases derives with
    | last derives =>
      intro branch' member
      rw [List.mem_singleton.mp member]
      have same : Branch.canonical branch = source := written
      exact ⟨rest, same ▸ derives⟩
    | @cons _ _ source more _ derives others =>
      rw [Tree.canonical_cons branch others.ne_nil] at written
      simp only [visible_append] at visible
      have shorter := derives.length_canonical_le visible.1.1
      obtain ⟨same, same'⟩ := append_inj_of_length_le written (by simpa using shorter)
        (writtenShort tree more _ others visible.2)
      have same : Branch.canonical branch = source := by simpa using same
      intro branch' member
      rcases List.mem_cons.mp member with here | member
      · rw [here, same]
        exact ⟨_, derives⟩
      · exact ih (same' ▸ others) branch' member

theorem BranchOf.atomOf {branch : Branch} {rest : Text}
    (derives : BranchOf branch (Branch.canonical branch) rest) :
    ∀ atom ∈ branch, ∃ rest, AtomOf atom atom.canonical rest := by
  induction branch with
  | nil => nofun
  | cons atom branch ih =>
    obtain ⟨first, derives⟩ := derives.split
    intro atom' member
    rcases List.mem_cons.mp member with here | member
    · rw [here]
      exact ⟨_, first⟩
    · exact ih derives atom' member

theorem AtomOf.settled {atom : Atom} {rest : Text} (derives : AtomOf atom atom.canonical rest) :
    atom.Settled := by
  cases atom with
  | group => exact ⟨derives.contentOf.2.faithful, trivial⟩
  | leaf leaf mult =>
    obtain ⟨derives, quantified⟩ := derives.leafOf
    refine ⟨quantified.faithful, ?_⟩
    cases leaf with
    | charset set => exact (set.parse_text_eq_iff _).mpr derives.charsetOf
    | literal run => exact derives.literalOf.readable
    | _ => trivial

theorem AtomOf.runEnds {atom : Atom} {rest : Text} (derives : AtomOf atom atom.canonical rest)
    (run : atom.isRun) : RunEnds rest := by
  cases atom with
  | group => simp [Atom.isRun] at run
  | leaf leaf mult =>
    cases leaf with
    | literal text =>
      have once : mult = .once := by simpa [Atom.isRun] using run
      subst once
      obtain ⟨derives, quantified⟩ := derives.leafOf
      exact derives.literalOf.runEnds quantified.unquantified
    | _ => simp [Atom.isRun] at run

theorem CharsetOf.firstChar_of_runEnds {set : Charset} {rest : Text} (derives : CharsetOf set set.text)
    (ends : RunEnds (set.text ++ rest)) : set.negated = false ∧ ∃ c ∈ set.firstChar?, isOpener c := by
  obtain ⟨plain, element, member, opener, more, text⟩ := derives.opener_of_runEnds ends
  refine ⟨plain, element.first, ?_, opener⟩
  have noSlash : element.first ≠ '\\' := by
    intro same
    rw [same] at opener
    exact absurd opener (by decide)
  unfold Charset.firstChar?
  cases elements : set.elements.toList with
  | nil => simp [elements] at member
  | cons first rest =>
    obtain ⟨tail, shown⟩ := first.text_eq_first
    have same : escapeChar false first.first ++ (tail ++ rest.flatMap Element.text ++ [']']) =
        element.first :: more := by simpa [Charset.text, plain, elements, shown] using text
    simpa using eq_of_escapeChar_append same noSlash

theorem AtomOf.endsRun {atom : Atom} {rest : Text} (derives : AtomOf atom atom.canonical rest)
    (ends : RunEnds (atom.canonical ++ rest)) : atom.EndsRun := by
  cases atom with
  | group => trivial
  | leaf leaf mult =>
    obtain ⟨derives, quantified⟩ := derives.leafOf
    rw [Atom.canonical, List.append_assoc] at ends
    cases leaf with
    | charset set => exact derives.charsetOf.firstChar_of_runEnds ends
    | literal run =>
      intro once
      subst once
      exact derives.literalOf.not_runEnds quantified.unquantified ends
    | _ => trivial

theorem BranchOf.isChain {branch : Branch} {rest : Text}
    (derives : BranchOf branch (Branch.canonical branch) rest) : branch.IsChain Atom.MayPrecede := by
  induction branch with
  | nil => exact .nil
  | cons atom branch ih =>
    obtain ⟨first, derives⟩ := derives.split
    cases branch with
    | nil => exact .singleton _
    | cons next branch =>
      refine List.isChain_cons_cons.mpr ⟨?_, ih derives⟩
      intro run
      have ends := first.runEnds run
      rw [Branch.canonical, List.append_assoc] at ends
      exact derives.split.1.endsRun ends

theorem TreeOf.settled {tree : Tree} {rest : Text} (derives : TreeOf tree (Tree.canonical tree) rest) :
    tree.Settled := by
  induction tree using Tree.induct generalizing rest with
  | step tree ih =>
    refine Tree.everywhere_iff.mpr ⟨trivial, ?_⟩
    intro branch onTree
    obtain ⟨_, onBranch⟩ := derives.branchOf branch onTree
    refine ⟨onBranch.isChain, ?_⟩
    intro atom member
    obtain ⟨_, onAtom⟩ := onBranch.atomOf atom member
    refine ⟨onAtom.settled, ?_⟩
    intro content inside
    cases atom with
    | leaf => cases inside
    | group =>
      cases inside
      exact ih branch onTree _ member _ rfl onAtom.contentOf.1

end Grammar

/-- A tree is what its canonical text is read as exactly when it is in canonical form. -/
theorem parse_canonical_eq_ok_iff {limit : Nat} {tree : Tree} :
    parse limit (Tree.canonical tree) = .ok tree ↔ Tree.nesting tree ≤ limit ∧ tree.CanonicalForm := by
  constructor
  · intro read
    obtain ⟨derives, shallow⟩ := treeOf_of_parse read
    have readable := derives.readable
    have settled := derives.settled
    exact ⟨shallow, readable.trees, settled.branches,
      fun atom member => ⟨readable.atoms atom member, settled.atoms atom member⟩⟩
  · intro ⟨shallow, canonical⟩
    have derives : TreeOf tree (Tree.canonical tree) [] := canonical.treeOf (by simp [BranchEnds])
    exact derives.parse_eq shallow

/-- The check of a pattern against its canonical text lets only settled trees through. -/
theorem Entry.settled_of_same {limit : Nat} {pattern : Text} {tree : Tree}
    (read : (ofPattern limit pattern).reading = .ok tree) (same : ¬ (ofPattern limit pattern).differs) :
    tree.Settled := by
  have read' : parse limit pattern = .ok tree := read
  obtain ⟨derives, -⟩ := treeOf_of_parse read'
  have same : Tree.canonical tree = pattern := by simpa [differs, read, ofPattern, read'] using same
  subst same
  exact derives.settled

theorem Entry.settled_of_same_group :
    let entry := ofPattern 1 ['a', '[', '+', ']', '(', '.', '{', '2', ',', '}', '?', ')', '*']
    let plus : ElementSet := .ofList [.char '+']
    let inner : Tree := [[.leaf .anyChar ⟨2, none, false, by simp⟩]]
    let tree : Tree := [[.text ['a'], .leaf (.charset ⟨false, plus⟩) .once, .group inner (.atLeast 0)]]
    entry.reading = .ok tree ∧ ¬ entry.differs ∧ tree.Settled := by
  intro entry plus inner tree
  have read : entry.reading = .ok tree := by decide +kernel
  have same : ¬ entry.differs := by decide +kernel
  exact ⟨read, same, settled_of_same read same⟩

end RegexPattern
