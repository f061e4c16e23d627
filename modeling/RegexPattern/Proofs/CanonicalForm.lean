import Mathlib.Data.List.Chain
import RegexPattern.Canonical
import RegexPattern.Proofs.Escape
import RegexPattern.Proofs.Neighbours
import RegexPattern.Proofs.Reader.Tree

/-!
The trees whose canonical text is read as the tree itself. All conditions but one are about single
atoms; the last one is about an atom that stands directly behind a literal. A group around such a
tree is such a tree again, and so are the branches of two of them together.
-/

namespace RegexPattern

/-- The quantifier that is written for the multiplicity is read as it. -/
def Multiplicity.Faithful (mult : Multiplicity) : Prop :=
  mult.greedy = true ∨ mult.unbounded = true ∨ ∃ max ∈ mult.max, 1 < max ∧ max ≠ mult.min

instance : DecidablePred Multiplicity.Faithful := fun mult =>
  haveI : Decidable (∃ max ∈ mult.max, 1 < max ∧ max ≠ mult.min) := Option.decidableExistsMem mult.max
  inferInstanceAs (Decidable (_ ∨ _ ∨ _))

def isSpecial (c : Char) : Bool := c ∈ ['+', '*', '?', '.', '^', '$', '|', '{', '(', ')']

theorem Element.text_eq_first (element : Element) :
    ∃ more, element.text = escapeChar false element.first ++ more := by
  cases element with
  | char c => exact ⟨[], (List.append_nil _).symm⟩
  | range r => exact ⟨['-'] ++ escapeChar false r.last, List.append_assoc ..⟩

namespace Charset

def firstChar? (set : Charset) : Option Char := set.elements.toList.head?.map Element.first

def ReadsBack (set : Charset) : Prop :=
  parse defaultLimit set.text = .ok [[.leaf (.charset set) .once]]

instance : DecidablePred ReadsBack := fun _ => inferInstanceAs (Decidable (parse _ _ = _))

open Grammar in
theorem treeOf_charset_iff {set : Charset} :
    TreeOf [[.leaf (.charset set) .once]] set.text [] ↔ CharsetOf set set.text := by
  constructor
  · intro derives
    generalize text : set.text = source at derives ⊢
    cases derives with
    | last derives =>
      cases derives with
      | cons atomDerives derives =>
        cases derives
        cases atomDerives with
        | @leaf _ _ source quantifier _ leafDerives quantified =>
          cases leafDerives with
          | charset derives =>
            have closing : (source ++ quantifier ++ []).getLast? = some ']' := by
              rw [← text, Charset.text, List.getLast?_append]
              rfl
            by_cases bare : quantifier = []
            · simpa [bare] using derives
            · simp [List.getLast?_append, bare] at closing
              exact absurd closing quantified.getLast?_ne
    | cons _ derives => cases derives
  · intro derives
    have leaf : LeafOf (.charset set) set.text [] := .charset derives
    exact .last (leaf.atomOf (by simp [startsQuantifier])).branchOf

/-- A charset reads back under every limit or under none. -/
theorem parse_text_eq_iff (set : Charset) (limit : Nat) :
    parse limit set.text = .ok [[.leaf (.charset set) .once]] ↔ Grammar.CharsetOf set set.text := by
  rw [← treeOf_charset_iff]
  constructor
  · intro read
    exact (Grammar.treeOf_of_parse read).1
  · intro derives
    exact derives.parse_eq (by simp [Tree.nesting, Branch.nesting, Atom.nesting])

end Charset

namespace Atom

/-- A literal is not empty, and it occurs once unless it is a single character. -/
def Proper : Atom → Prop
  | leaf (.literal run) mult => run ≠ [] ∧ (2 ≤ run.length → mult = .once)
  | _ => True

instance : DecidablePred Proper
  | leaf (.literal run) mult => inferInstanceAs (Decidable (run ≠ [] ∧ (2 ≤ run.length → mult = .once)))
  | leaf .matchStart _ | leaf .matchEnd _ | leaf .anyChar _ | leaf (.charset _) _ | group .. => isTrue trivial

theorem Proper.eq_singleton {run : Text} {mult : Multiplicity} (proper : (leaf (.literal run) mult).Proper)
    (several : mult ≠ .once) : ∃ c, run = [c] := by
  apply List.length_eq_one_iff.mp
  have filled := List.length_pos_iff.mpr proper.1
  have single : ¬ 2 ≤ run.length := fun long => several (proper.2 long)
  omega

def Legible : Atom → Prop
  | leaf (.literal run) _ => run.head? ≠ some '[' ∧ ∀ c ∈ run, ¬ isSpecial c ∧ ¬ isControl c
  | leaf (.charset set) _ => set.ReadsBack
  | _ => True

instance : DecidablePred Legible
  | leaf (.literal run) _ =>
    haveI : Decidable (∀ c ∈ run, ¬ isSpecial c ∧ ¬ isControl c) := List.decidableBAll _ run
    inferInstanceAs (Decidable (_ ∧ _))
  | leaf (.charset set) _ => inferInstanceAs (Decidable set.ReadsBack)
  | leaf .matchStart _ | leaf .matchEnd _ | leaf .anyChar _ | group .. => isTrue trivial

def Settled (atom : Atom) : Prop := atom.mult.Faithful ∧ atom.Legible

instance : DecidablePred Settled := fun _ => inferInstanceAs (Decidable (_ ∧ _))

/-- A literal that occurs once, which is read as far as it goes. -/
def isRun : Atom → Bool
  | leaf (.literal _) mult => mult = .once
  | _ => false

/-- The atom does not go on with a run in front of it: it is no run itself, and the bracket of a charset
is told from the run by the quantifier that seems to follow it. -/
def EndsRun : Atom → Prop
  | leaf (.literal _) mult => mult ≠ .once
  | leaf (.charset set) _ => set.negated = false ∧ ∃ c ∈ set.firstChar?, isOpener c
  | _ => True

instance : DecidablePred EndsRun
  | leaf (.literal _) mult => inferInstanceAs (Decidable (mult ≠ .once))
  | leaf (.charset set) _ =>
    haveI : Decidable (∃ c ∈ set.firstChar?, isOpener c) := Option.decidableExistsMem set.firstChar?
    inferInstanceAs (Decidable (_ ∧ _))
  | leaf .matchStart _ | leaf .matchEnd _ | leaf .anyChar _ | group .. => isTrue trivial

def MayPrecede (atom next : Atom) : Prop := atom.isRun → next.EndsRun

instance : DecidableRel MayPrecede := fun _ _ => inferInstanceAs (Decidable (_ → _))

end Atom

/-- The conditions on the text of the tree alone, without those that hold of every tree that is read. -/
def Tree.Settled (tree : Tree) : Prop :=
  tree.Everywhere (fun _ => True) (·.IsChain Atom.MayPrecede) Atom.Settled

/-- The tree is what its canonical text is read as. -/
def Tree.CanonicalForm (tree : Tree) : Prop :=
  tree.Everywhere (· ≠ []) (·.IsChain Atom.MayPrecede) fun atom => atom.Proper ∧ atom.Settled

instance : DecidablePred Tree.CanonicalForm := fun _ => inferInstanceAs (Decidable (Tree.Everywhere ..))

namespace Tree.CanonicalForm

variable {tree more : Tree}

theorem wrap (form : tree.CanonicalForm) {mult : Multiplicity} (faithful : mult.Faithful) :
    (tree.wrap mult).CanonicalForm := by
  refine everywhere_iff.mpr ⟨List.cons_ne_nil _ _, fun branch onTree => ?_⟩
  cases List.mem_singleton.mp onTree
  refine ⟨.singleton _, fun atom onBranch => ?_⟩
  cases List.mem_singleton.mp onBranch
  refine ⟨⟨trivial, faithful, trivial⟩, ?_⟩
  rintro content ⟨⟩
  exact form

theorem append (form : tree.CanonicalForm) (form' : more.CanonicalForm) : (tree ++ more).CanonicalForm := by
  obtain ⟨filled, front⟩ := everywhere_iff.mp form
  obtain ⟨-, back⟩ := everywhere_iff.mp form'
  refine everywhere_iff.mpr ⟨List.append_ne_nil_of_left_ne_nil filled _, fun branch onTree => ?_⟩
  rcases List.mem_append.mp onTree with onTree | onTree
  · exact front branch onTree
  · exact back branch onTree

theorem snocAtom (form : tree.CanonicalForm) {atom : Atom} (proper : atom.Proper) (settled : atom.Settled)
    (inside : ∀ content ∈ atom.content?, content.CanonicalForm)
    (apart : ∀ branch ∈ tree.getLast?, ∀ last ∈ branch.getLast?, last.MayPrecede atom) :
    (tree.snocAtom atom).CanonicalForm := by
  obtain ⟨filled, below⟩ := everywhere_iff.mp form
  obtain ⟨front, branch, rfl⟩ := (List.eq_nil_or_concat' tree).resolve_left filled
  rw [snocAtom_concat]
  refine everywhere_iff.mpr ⟨by simp, fun branch' onTree => ?_⟩
  rcases List.mem_append.mp onTree with onFront | onLast
  · exact below branch' (List.mem_append_left _ onFront)
  cases List.mem_singleton.mp onLast
  obtain ⟨chain, atoms⟩ := below branch (by simp)
  constructor
  -- No two atoms become neighbours but the last one of the tree and the new one.
  · refine List.isChain_append.mpr ⟨chain, .singleton atom, fun last isLast next isNext => ?_⟩
    cases isNext
    exact apart branch (by simp) last isLast
  · intro atom' onBranch
    rcases List.mem_append.mp onBranch with onBranch | onEnd
    · exact atoms atom' onBranch
    · cases List.mem_singleton.mp onEnd
      exact ⟨⟨proper, settled⟩, inside⟩

end Tree.CanonicalForm

end RegexPattern
