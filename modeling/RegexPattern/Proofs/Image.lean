import RegexPattern.Proofs.CanonicalForm
import RegexPattern.Proofs.Spelling
import RegexPattern.Proofs.Writing

/-!
The trees that some pattern is read as. Reading makes no empty literals, repeats single characters
only and leaves no two neighbours that one run would have taken; all other trees can be spelled out.
-/

namespace RegexPattern

open Grammar

/-- Neighbours on a branch as they are read: a run of characters takes what it can. -/
def Atom.ReadNeighbours : Atom → Atom → Prop
  | leaf (.literal run) _, leaf (.literal run') _ => run.length = 1 ∨ run'.length = 1
  | leaf (.literal run) _, leaf (.charset set) _ =>
    2 ≤ run.length → set.negated = false ∧ ∃ element ∈ set.elements.toList, isOpener element.first
  | _, _ => True

/-- The tree is one that is read. That bounds and ends of ranges are in order is part of their types. -/
def Tree.Readable (tree : Tree) : Prop :=
  tree.Everywhere (· ≠ []) (·.IsChain Atom.ReadNeighbours) Atom.Proper

/-! Every tree that is read is readable. -/

namespace Grammar

theorem AtomOf.ends_of_long {run source rest : Text} {mult : Multiplicity}
    (derives : AtomOf (.leaf (.literal run) mult) source rest) (long : 2 ≤ run.length) :
    mult = .once ∧ RunEnds rest := by
  cases derives with
  | leaf derives quantified =>
    have unquantified := derives.literalOf.unquantified long
    rcases quantified.head with ⟨rfl, once, -⟩ | ⟨first, more, rfl, opener⟩
    · exact ⟨once, derives.literalOf.runEnds unquantified⟩
    · exact absurd opener unquantified

theorem AtomOf.not_runEnds_of_long {run source rest : Text} {mult : Multiplicity}
    (derives : AtomOf (.leaf (.literal run) mult) source rest) (long : 2 ≤ run.length) :
    ¬ RunEnds (source ++ rest) := by
  cases derives with
  | leaf derives quantified =>
    rw [List.append_assoc]
    exact derives.literalOf.not_runEnds (derives.literalOf.unquantified long)

theorem AtomOf.proper {atom : Atom} {source rest : Text} (derives : AtomOf atom source rest) : atom.Proper := by
  cases atom with
  | group => trivial
  | leaf leaf mult =>
    cases leaf with
    | literal run =>
      refine ⟨?_, fun long => (derives.ends_of_long long).1⟩
      cases derives with
      | leaf derives => exact derives.literalOf.ne_nil
    | _ => trivial

theorem AtomOf.readNeighbours {atom next : Atom} {source source' rest : Text}
    (derives : AtomOf atom source (source' ++ rest)) (derives' : AtomOf next source' rest) :
    atom.ReadNeighbours next := by
  cases atom with
  | group => trivial
  | leaf leaf mult =>
    cases next with
    | group => cases leaf <;> trivial
    | leaf leaf' mult' =>
      cases leaf with
      | literal run =>
        cases leaf' with
        | literal run' =>
          have filled := List.length_pos_iff.mpr derives.proper.1
          have filled' := List.length_pos_iff.mpr derives'.proper.1
          by_cases long : 2 ≤ run.length
          · have single : ¬ 2 ≤ run'.length :=
              fun long' => derives'.not_runEnds_of_long long' (derives.ends_of_long long).2
            exact .inr (by omega)
          · exact .inl (by omega)
        | charset set =>
          intro long
          have ends := (derives.ends_of_long long).2
          cases derives' with
          | leaf derives' =>
            rw [List.append_assoc] at ends
            obtain ⟨plain, element, member, opener, -⟩ := derives'.charsetOf.opener_of_runEnds ends
            exact ⟨plain, element, member, opener⟩
        | _ => trivial
      | _ => trivial

theorem BranchOf.isChain_readNeighbours {branch : Branch} {source rest : Text}
    (derives : BranchOf branch source rest) : branch.IsChain Atom.ReadNeighbours := by
  induction branch generalizing source with
  | nil => exact .nil
  | cons atom branch ih =>
    cases derives with
    | cons first derives =>
      cases branch with
      | nil => exact .singleton _
      | cons next branch =>
        refine List.isChain_cons_cons.mpr ⟨?_, ih derives⟩
        cases derives with
        | cons second =>
          rw [List.append_assoc] at first
          exact first.readNeighbours second

theorem BranchOf.exists_atomOf {branch : Branch} {source rest : Text} (derives : BranchOf branch source rest) :
    ∀ atom ∈ branch, ∃ part after, part ⊆ source ∧ AtomOf atom part after := by
  induction branch generalizing source with
  | nil => nofun
  | cons atom branch ih =>
    cases derives with
    | @cons _ _ front back _ first derives =>
      intro atom' member
      rcases List.mem_cons.mp member with here | member
      · rw [here]
        exact ⟨_, _, List.subset_append_left front back, first⟩
      · obtain ⟨part, after, within, derives⟩ := ih derives atom' member
        exact ⟨part, after, List.subset_append_of_subset_right front within, derives⟩

theorem TreeOf.exists_branchOf {tree : Tree} {source rest : Text} (derives : TreeOf tree source rest) :
    ∀ branch ∈ tree, ∃ part after, part ⊆ source ∧ BranchOf branch part after := by
  induction tree generalizing source with
  | nil => nofun
  | cons branch tree ih =>
    intro branch' member
    cases derives with
    | last derives =>
      rw [List.mem_singleton.mp member]
      exact ⟨_, _, List.Subset.refl source, derives⟩
    | @cons _ _ front back _ derives others =>
      rw [List.append_assoc]
      rcases List.mem_cons.mp member with here | member
      · rw [here]
        exact ⟨_, _, List.subset_append_left front (['|'] ++ back), derives⟩
      · obtain ⟨part, after, within, derives⟩ := ih others branch' member
        have later : part ⊆ ['|'] ++ back := List.subset_append_of_subset_right ['|'] within
        exact ⟨part, after, List.subset_append_of_subset_right front later, derives⟩

theorem TreeOf.exists_atomOf {tree : Tree} {source rest : Text} (derives : TreeOf tree source rest) :
    ∀ atom ∈ Tree.atoms tree, ∃ part after, part ⊆ source ∧ AtomOf atom part after := by
  induction tree using Tree.induct generalizing source rest with
  | step tree ih =>
    intro atom' member
    obtain ⟨branch, onTree, atom, onBranch, within⟩ := Tree.mem_atoms.mp member
    obtain ⟨front, _, onSource, branchDerives⟩ := derives.exists_branchOf branch onTree
    obtain ⟨part, after, onFront, atomDerives⟩ := branchDerives.exists_atomOf atom onBranch
    have onSource : part ⊆ source := List.Subset.trans onFront onSource
    rcases Atom.mem_atoms.mp within with rfl | ⟨content, inside, deeper⟩
    · exact ⟨part, after, onSource, atomDerives⟩
    · cases atomDerives with
      | leaf => cases inside
      | @group _ _ inner quantifier _ contentDerives =>
        cases inside
        obtain ⟨part, after, onInner, derives⟩ := ih branch onTree _ onBranch _ rfl contentDerives atom' deeper
        refine ⟨part, after, fun c found => onSource ?_, derives⟩
        simp [onInner found]

theorem TreeOf.readable {tree : Tree} {source rest : Text} (derives : TreeOf tree source rest) :
    tree.Readable := by
  induction tree using Tree.induct generalizing source rest with
  | step tree ih =>
    refine Tree.everywhere_iff.mpr ⟨derives.ne_nil, ?_⟩
    intro branch onTree
    obtain ⟨_, _, -, onBranch⟩ := derives.exists_branchOf branch onTree
    refine ⟨onBranch.isChain_readNeighbours, ?_⟩
    intro atom member
    obtain ⟨_, _, -, onAtom⟩ := onBranch.exists_atomOf atom member
    refine ⟨onAtom.proper, ?_⟩
    intro content inside
    cases onAtom with
    | leaf => cases inside
    | group derives =>
      cases inside
      exact ih branch onTree _ member _ rfl derives

end Grammar

/-! Every readable tree is read from the text that spells it out. -/

/-- Openers stand raw in a charset, since a run in front of it ends only at a bracket before one. -/
def rawOpener (c : Char) : Text := if isOpener c then [c] else ['\\', c]

theorem spelling_rawOpener : Spelling rawOpener where
  memberOf c := by
    unfold rawOpener
    split
    · next opener =>
      apply MemberOf.raw
      intro slash
      rw [slash] at opener
      exact absurd opener (by decide)
    · exact .escaped c
  head c := by
    unfold rawOpener
    split
    · next opener =>
      have cases : c = '{' ∨ c = '?' ∨ c = '+' ∨ c = '*' := by simpa [isOpener] using opener
      rcases cases with rfl | rfl | rfl | rfl <;> simp
    · simp

namespace Charset

def openersFirst (set : Charset) : List Element :=
  set.elements.toList.filter (isOpener ·.first) ++ set.elements.toList.filter (!isOpener ·.first)

theorem ofList_openersFirst (set : Charset) : ElementSet.ofList set.openersFirst = set.elements := by
  apply ElementSet.ext_mem
  intro element
  rw [ElementSet.mem_toList_ofList]
  cases opener : isOpener element.first <;> simp [openersFirst, opener]

def spelled (set : Charset) : Text :=
  ['['] ++ (if set.negated then ['^'] else []) ++ set.openersFirst.flatMap (Element.spelled rawOpener) ++ [']']

theorem charsetOf_spelled (set : Charset) : CharsetOf set set.spelled := by
  have derives := spelling_rawOpener.charsetOf set.negated set.openersFirst
  rw [ofList_openersFirst] at derives
  exact derives

theorem runEnds_spelled {set : Charset} (plain : set.negated = false)
    (opener : ∃ element ∈ set.elements.toList, isOpener element.first) (after : Text) :
    RunEnds (set.spelled ++ after) := by
  have bracket : UnitOf '[' ['['] := .plain (by decide)
  obtain ⟨element, member, opener⟩ := opener
  have first : element ∈ set.elements.toList.filter (isOpener ·.first) := List.mem_filter.mpr ⟨member, opener⟩
  unfold spelled openersFirst
  cases found : set.elements.toList.filter (isOpener ·.first) with
  | nil => simp [found] at first
  | cons element more =>
    have opener : isOpener element.first := by
      have member : element ∈ set.elements.toList.filter (isOpener ·.first) := by simp [found]
      exact (List.mem_filter.mp member).2
    have quantified (tail : Text) : startsQuantifier (element.spelled rawOpener ++ tail) := by
      cases element <;> simp_all [Element.spelled, Element.first, rawOpener, startsQuantifier]
    simpa [plain] using bracket.runEnds (quantified _)

end Charset

/-- Everything but a literal of several characters gets a quantifier with both bounds. -/
def Style.explicit : Style where
  literal run mult := escapeAll run ++ if run.length = 1 then mult.spelled else []
  charset := Charset.spelled
  quantifier := Multiplicity.spelled

theorem Atom.runEnds_explicit {run : Text} {mult : Multiplicity} {rest : Branch} {after : Text}
    (chain : (Atom.leaf (.literal run) mult :: rest).IsChain ReadNeighbours) (long : 2 ≤ run.length)
    (ends : BranchEnds after) : RunEnds (Branch.written .explicit rest ++ after) := by
  have follows {next : Atom} {more : Branch} (here : rest = next :: more) :
      ReadNeighbours (.leaf (.literal run) mult) next := by
    subst here
    exact (List.isChain_cons_cons.mp chain).1
  refine runEnds_written ends ?_ ?_
  · intro run' mult' more here
    have single : run'.length = 1 := by
      rcases follows here with single | single
      · omega
      · exact single
    obtain ⟨c, rfl⟩ := List.length_eq_one_iff.mp single
    have quantified := mult'.startsQuantifier_spelled (Branch.written .explicit more ++ after)
    simpa [Style.explicit, escapeAll] using (UnitOf.escaped c).runEnds quantified
  · intro set mult more here after
    obtain ⟨plain, opener⟩ := follows here long
    exact Charset.runEnds_spelled plain opener after

theorem writes_explicit : Writes .explicit (·.IsChain Atom.ReadNeighbours) Atom.Proper where
  tail chain := chain.tail
  charset := fun _ => Charset.charsetOf_spelled _
  quantifier := fun _ unquantified => Multiplicity.quantifierOf_spelled _ unquantified
  literal := by
    intro run mult rest after chain onAtoms ends unquantified
    have proper := onAtoms _ List.mem_cons_self
    by_cases single : run.length = 1
    · obtain ⟨c, rfl⟩ := List.length_eq_one_iff.mp single
      exact .leaf (.literal (.single (.escaped c) (head?_escapeAll_ne [c]) rfl))
        (mult.quantifierOf_spelled unquantified)
    · have filled := List.length_pos_iff.mpr proper.1
      have long : 2 ≤ run.length := by omega
      have runEnds := Atom.runEnds_explicit chain long ends
      have literal := LiteralOf.run (runOf_escapeAll run unquantified runEnds) proper.1 (head?_escapeAll_ne run)
      have derives : AtomOf (.leaf (.literal run) .once) (escapeAll run ++ [])
          (Branch.written .explicit rest ++ after) := .leaf (.literal literal) (.once unquantified)
      rw [proper.2 long]
      simpa [Style.explicit, single] using derives

theorem Tree.Readable.treeOf {tree : Tree} (readable : tree.Readable) :
    TreeOf tree (Tree.written .explicit tree) [] :=
  writes_explicit.treeOf readable (by simp [BranchEnds])

/-- Patterns are read as the readable trees, and every readable tree within the limit is read. -/
theorem exists_parse_eq_ok_iff {limit : Nat} {tree : Tree} :
    (∃ pattern, parse limit pattern = .ok tree) ↔ Tree.nesting tree ≤ limit ∧ tree.Readable := by
  constructor
  · intro ⟨pattern, read⟩
    obtain ⟨derives, shallow⟩ := treeOf_of_parse read
    exact ⟨shallow, derives.readable⟩
  · intro ⟨shallow, readable⟩
    exact ⟨_, readable.treeOf.parse_eq shallow⟩

end RegexPattern
