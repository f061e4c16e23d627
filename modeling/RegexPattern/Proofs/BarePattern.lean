import RegexPattern.Proofs.Graph.Label
import RegexPattern.Proofs.Image
import RegexPattern.Proofs.Joined
import RegexPattern.Proofs.ReadBack

/-!
Bare patterns, in which nothing is escaped or bracketed. The canonical text of such a pattern is read as the
same tree, up to greed that makes no difference and to where one run ends and the next one starts: only a
count with a mark for greed is not read back, which is written as no quantifier is.
-/

namespace RegexPattern

open Grammar

def Bare (text : Text) : Prop := ∀ c ∈ text, c ≠ '\\' ∧ c ≠ '[' ∧ ¬ isControl c

instance : DecidablePred Bare := fun text => List.decidableBAll _ text

/-- More than one occurrence, of a fixed number, and not greedy. -/
def Multiplicity.LazyCount (mult : Multiplicity) : Prop :=
  mult.greedy = false ∧ mult.max = some mult.min ∧ 2 ≤ mult.min

instance : DecidablePred Multiplicity.LazyCount := fun _ => inferInstanceAs (Decidable (_ ∧ _ ∧ _))

theorem Multiplicity.faithful_drawn {mult : Multiplicity} (noCount : ¬ mult.LazyCount) :
    mult.drawn.Faithful := by
  unfold drawn
  split
  · next repeating =>
    obtain ⟨min, max, greedy, ordered⟩ := mult
    cases max with
    | none => exact .inr (.inl rfl)
    | some max =>
      cases greedy with
      | true => exact .inl rfl
      | false =>
        have several : 1 < max := by simpa [Multiplicity.repeating] using repeating
        refine .inr (.inr ⟨max, rfl, several, ?_⟩)
        rintro rfl
        refine noCount ⟨rfl, rfl, ?_⟩
        rw [UInt32.lt_iff_toNat_lt] at several
        exact UInt32.le_iff_toNat_le.mpr several
  · exact .inl rfl

namespace Atom

/-- The atom is no charset, and as a literal it has no characters but plain ones that are written as they are. -/
def Bare : Atom → Prop
  | leaf (.charset _) _ => False
  | leaf (.literal run) _ => RegexPattern.Bare run ∧ ∀ c ∈ run, isPlain c
  | _ => True

variable {atom : Atom}

theorem Bare.legible (bare : atom.Bare) : atom.Legible := by
  cases atom with
  | group => trivial
  | leaf leaf mult =>
    cases leaf with
    | literal run =>
      obtain ⟨bare, plain⟩ := bare
      refine ⟨?_, fun c member => ⟨?_, (bare c member).2.2⟩⟩
      · intro bracket
        exact (bare '[' (List.mem_of_mem_head? bracket)).2.1 rfl
      · have plain := plain c member
        simp_all [isPlain, isMetachar, isSpecial]
    | charset set => exact bare.elim
    | _ => trivial

theorem Bare.endsRun (bare : atom.Bare) (noRun : ¬ atom.isRun) : atom.EndsRun := by
  cases atom with
  | group => trivial
  | leaf leaf mult =>
    cases leaf with
    | literal run =>
      have several : mult ≠ .once := by simpa [isRun] using noRun
      exact several
    | charset set => exact bare.elim
    | _ => trivial

structure Joinable (atom : Atom) : Prop where
  proper : atom.Proper
  faithful : atom.mult.Faithful
  bare : atom.Bare

theorem joinable_drawn (proper : atom.Proper) (noCount : ¬ atom.mult.LazyCount) (bare : atom.Bare) :
    (atom.mapMult .drawn).Joinable := by
  have faithful := Multiplicity.faithful_drawn noCount
  cases atom with
  | group content mult => exact ⟨trivial, faithful, trivial⟩
  | leaf leaf mult =>
    cases leaf with
    | literal run =>
      have once (long : 2 ≤ run.length) : mult.drawn = .once := by
        rw [proper.2 long]
        rfl
      exact ⟨⟨proper.1, once⟩, faithful, bare⟩
    | charset set => exact bare.elim
    | _ => exact ⟨trivial, faithful, trivial⟩

theorem Joinable.text_append {run more : Text} (first : (text run).Joinable) (second : (text more).Joinable) :
    (text (run ++ more)).Joinable where
  proper := ⟨List.append_ne_nil_of_left_ne_nil first.proper.1 more, fun _ => rfl⟩
  faithful := first.faithful
  bare := ⟨List.forall_mem_append.mpr ⟨first.bare.1, second.bare.1⟩,
    List.forall_mem_append.mpr ⟨first.bare.2, second.bare.2⟩⟩

end Atom

/-- Where no more runs can be joined, a branch of joinable atoms is in canonical form. -/
theorem Tree.canonicalForm_joined {tree : Tree}
    (joinable : tree.Everywhere (· ≠ []) (fun _ => True) Atom.Joinable) : CanonicalForm (joined tree) := by
  induction tree using Tree.induct with
  | step tree ih =>
    obtain ⟨filled, onBranches⟩ := everywhere_iff.mp joinable
    rw [joined_eq_map]
    refine everywhere_iff.mpr ⟨by simpa using filled, List.forall_mem_map.mpr fun branch onTree => ?_⟩
    have onJoined : ∀ atom ∈ Branch.joined branch,
        atom.Joinable ∧ ∀ content ∈ atom.content?, CanonicalForm content := by
      refine Branch.forall_mem_joined ?_ fun atom onBranch => ?_
      · exact fun run more first second => ⟨first.1.text_append second.1, nofun⟩
      · obtain ⟨joinable, contents⟩ := (onBranches branch onTree).2 atom onBranch
        cases atom with
        | leaf leaf mult => exact ⟨joinable, nofun⟩
        | group content mult =>
          refine ⟨⟨trivial, joinable.faithful, trivial⟩, ?_⟩
          intro _ inside
          cases inside
          exact ih branch onTree _ onBranch content rfl (contents content rfl)
    refine ⟨?_, fun atom member => ?_⟩
    -- A run ends at its neighbour: if that were a run too, the two would have been joined.
    · refine (Branch.isChain_joined branch).imp_of_mem_imp fun atom next _ member apart isRun => ?_
      exact (onJoined next member).1.bare.endsRun fun isRun' => apart ⟨isRun, isRun'⟩
    · obtain ⟨⟨proper, faithful, bare⟩, contents⟩ := onJoined atom member
      exact ⟨⟨proper, faithful, bare.legible⟩, contents⟩

/-! From bare patterns come bare atoms: without escapes, a literal is its own source. -/

namespace Grammar

theorem UnitOf.eq_of_bare {c : Char} {unit : Text} (derives : UnitOf c unit) (bare : Bare unit) :
    unit = [c] ∧ isPlain c := by
  cases derives with
  | escaped => exact absurd rfl (bare '\\' List.mem_cons_self).1
  | plain plain => exact ⟨rfl, plain⟩

theorem RunOf.eq_of_bare {run source rest : Text} (derives : RunOf run source rest) (bare : Bare source) :
    source = run ∧ ∀ c ∈ run, isPlain c := by
  induction derives with
  | nil => exact ⟨rfl, nofun⟩
  | cons unit _ _ ih =>
    obtain ⟨front, back⟩ := List.forall_mem_append.mp bare
    obtain ⟨rfl, first⟩ := unit.eq_of_bare front
    obtain ⟨rfl, others⟩ := ih back
    exact ⟨rfl, List.forall_mem_cons.mpr ⟨first, others⟩⟩

theorem LiteralOf.eq_of_bare {run source rest : Text} (derives : LiteralOf run source rest)
    (bare : Bare source) : source = run ∧ ∀ c ∈ run, isPlain c := by
  cases derives with
  | single unit =>
    obtain ⟨rfl, plain⟩ := unit.eq_of_bare bare
    exact ⟨rfl, List.forall_mem_singleton.mpr plain⟩
  | run derives => exact derives.eq_of_bare bare

theorem AtomOf.bare {atom : Atom} {source rest : Text} (derives : AtomOf atom source rest)
    (bare : Bare source) : atom.Bare := by
  cases derives with
  | group => trivial
  | leaf leaf =>
    have bare := (List.forall_mem_append.mp bare).1
    cases leaf with
    | literal derives =>
      obtain ⟨rfl, plain⟩ := derives.eq_of_bare bare
      exact ⟨bare, plain⟩
    | charset derives => cases derives <;> exact absurd rfl (bare '[' List.mem_cons_self).2.1
    | _ => trivial

theorem TreeOf.everywhere_joinable {tree : Tree} {source rest : Text} (derives : TreeOf tree source rest)
    (bare : Bare source) (noCount : ∀ atom ∈ Tree.atoms tree, ¬ atom.mult.LazyCount) :
    Tree.Everywhere (· ≠ []) (fun _ => True) Atom.Joinable (Tree.mapMult .drawn tree) where
  trees := by
    rw [Tree.trees_mapMult]
    refine List.forall_mem_map.mpr fun part member empty => ?_
    refine derives.readable.trees part member ?_
    cases part with
    | nil => rfl
    | cons branch part => exact nomatch empty
  branches := fun _ _ => trivial
  atoms := by
    rw [Tree.atoms_mapMult]
    refine List.forall_mem_map.mpr fun atom member => ?_
    obtain ⟨part, after, within, atomDerives⟩ := derives.exists_atomOf atom member
    have bareAtom : atom.Bare := atomDerives.bare fun c found => bare c (within found)
    exact Atom.joinable_drawn (derives.readable.atoms atom member) (noCount atom member) bareAtom

end Grammar

/-- The canonical text of a bare pattern is read under the same limit and is stable. What is read is the tree
of the pattern, but with greed where it makes no difference and with neighbouring runs joined. -/
theorem parse_canonical_of_bare {limit : Nat} {pattern : Text} {tree : Tree} (bare : Bare pattern)
    (read : parse limit pattern = .ok tree) (noCount : ∀ atom ∈ Tree.atoms tree, ¬ atom.mult.LazyCount) :
    let again := Tree.joined (Tree.mapMult .drawn tree)
    parse limit (Tree.canonical tree) = .ok again ∧ Tree.canonical again = Tree.canonical tree := by
  intro again
  obtain ⟨derives, shallow⟩ := Grammar.treeOf_of_parse read
  have same : Tree.canonical again = Tree.canonical tree :=
    calc Tree.canonical again
      _ = Tree.canonical (Tree.mapMult .drawn tree) := Tree.canonical_joined _
      _ = Tree.canonical tree := Tree.canonical_mapMult (fun _ => Multiplicity.text_drawn) tree
  have shallow : Tree.nesting again ≤ limit := by
    rwa [Tree.nesting_joined, Tree.nesting_mapMult]
  have canonical : Tree.CanonicalForm again := Tree.canonicalForm_joined (derives.everywhere_joinable bare noCount)
  refine ⟨?_, same⟩
  rw [← same]
  exact parse_canonical shallow canonical

theorem parse_canonical_of_bare_group :
    let pattern := "a{1,1}?b{1}c(x|y{1}z){,1}?d*?".toList
    let few : Atom := .leaf (.literal ['d']) ⟨0, none, false, by simp⟩
    let inner : Tree := [[.text ['x']], [.text ['y'], .text ['z']]]
    let tree : Tree :=
      [[.leaf (.literal ['a']) ⟨1, some 1, false, by simp⟩, .text ['b'], .text ['c'],
        .group inner ⟨0, some 1, false, by simp⟩, few]]
    let again : Tree := [[.text ['a', 'b', 'c'], .group [[.text ['x']], [.text ['y', 'z']]] .optional, few]]
    Bare pattern ∧ parse 1 pattern = .ok tree ∧ (∀ atom ∈ Tree.atoms tree, ¬ atom.mult.LazyCount) ∧
      parse 1 (Tree.canonical tree) = .ok again ∧ Tree.canonical again = Tree.canonical tree := by
  intro pattern few inner tree again
  have bare : Bare pattern := by decide +kernel
  have read : parse 1 pattern = .ok tree := by decide +kernel
  have noCount : ∀ atom ∈ Tree.atoms tree, ¬ atom.mult.LazyCount := by decide +kernel
  exact ⟨bare, read, noCount, parse_canonical_of_bare bare read noCount⟩

end RegexPattern
