import RegexPattern.Proofs.CanonicalForm
import RegexPattern.Proofs.Writing

/-!
Trees in canonical form are read back: the canonical text of such a tree derives the tree, in front
of anything that can follow a branch.
-/

namespace RegexPattern

open Text

namespace Multiplicity

theorem one_lt_of_lt {min max : UInt32} (below : min < max) (several : max ≠ 1) : 1 < max := by
  rw [UInt32.lt_iff_toNat_lt] at below ⊢
  have other : max.toNat ≠ 1 := fun same => several (UInt32.toNat_inj.mp same)
  have one : (1 : UInt32).toNat = 1 := rfl
  omega

variable {mult : Multiplicity} {after : Text}

open Grammar

theorem quantifierOf_text_of_repeating (bounds : BoundsOf mult.min mult.max mult.boundsText)
    (repeating : mult.repeating) (unquantified : ¬ startsQuantifier after) :
    QuantifierOf mult mult.text after := by
  have derives := bounds.quantifierOf unquantified
  unfold text
  cases greedy : mult.greedy <;> simpa [repeating, greedy] using derives

theorem boundsOf_unbounded (min : UInt32) (greedy : Bool) :
    BoundsOf min none (Multiplicity.boundsText ⟨min, none, greedy, by simp⟩) := by
  unfold boundsText
  by_cases zero : min = 0
  · simpa [zero] using BoundsOf.star
  by_cases one : min = 1
  · simpa [one] using BoundsOf.plus
  · simpa [zero, one] using BoundsOf.atLeast (numberOf_decimal min)

theorem Faithful.quantifierOf (faithful : mult.Faithful) (unquantified : ¬ startsQuantifier after) :
    QuantifierOf mult mult.text after := by
  obtain ⟨min, max, greedy, ordered⟩ := mult
  cases max with
  | none => exact quantifierOf_text_of_repeating (boundsOf_unbounded min greedy) rfl unquantified
  | some max =>
    have ordered' := ordered max rfl
    have isGreedy (single : max = 1 ∨ max = min) : greedy = true := by
      rcases faithful with greedy | unbounded | ⟨max', same, several, distinct⟩
      · exact greedy
      · cases unbounded
      · cases same
        rcases single with rfl | rfl
        · exact absurd several (by decide)
        · exact absurd rfl distinct
    by_cases equal : min = max
    · subst equal
      cases isGreedy (.inr rfl)
      by_cases one : min = 1
      · subst one
        exact .once unquantified
      · change QuantifierOf (exactly min) (exactly min).text after
        have written : (exactly min).text = ['{'] ++ decimal min.toNat ++ ['}'] := by
          simp [text, boundsText, exactly, one]
        rw [written]
        exact .exactly (numberOf_decimal min)
    have below : min < max := UInt32.lt_of_le_of_ne ordered' equal
    by_cases single : max = 1
    · cases isGreedy (.inl single)
      subst single
      cases UInt32.lt_one_iff.mp below
      exact .optional
    · have several := one_lt_of_lt below single
      refine quantifierOf_text_of_repeating ?_ (by simpa [repeating] using several) unquantified
      by_cases zero : min = 0
      · subst zero
        simpa [boundsText, single, equal] using BoundsOf.atMost (numberOf_decimal max)
      · simpa [boundsText, single, equal, zero] using
          BoundsOf.between (numberOf_decimal min) (numberOf_decimal max) ordered'

theorem Faithful.startsQuantifier_text (faithful : mult.Faithful) (several : mult ≠ .once) (more : Text) :
    startsQuantifier (mult.text ++ more) := by
  have derives : QuantifierOf mult mult.text [] := faithful.quantifierOf (by simp [startsQuantifier])
  rcases derives.head with ⟨-, once, -⟩ | ⟨first, rest, same, opener⟩
  · exact absurd once several
  · rw [same]
    exact opener

end Multiplicity

namespace Grammar

variable {c : Char} {run rest : Text}

theorem unitOf_escapeChar (ordinary : ¬ isSpecial c) (visible : ¬ isControl c) :
    UnitOf c (escapeChar false c) := by
  by_cases slash : c = '\\'
  · subst slash
    exact .escaped _
  · rw [escapeChar_of_plain visible slash]
    apply UnitOf.plain
    simp_all [isPlain, isMetachar, isSpecial]

theorem runOf_escape (readable : ∀ c ∈ run, ¬ isSpecial c ∧ ¬ isControl c)
    (unquantified : ¬ startsQuantifier rest) (ends : RunEnds rest) :
    RunOf run (escape false run) rest := by
  rw [escape, List.flatMap_def]
  refine runOf_units (List.forall₂_map_right_iff.mpr (List.forall₂_same.mpr ?_)) unquantified ends
  exact fun c member => unitOf_escapeChar (readable c member).1 (readable c member).2

theorem head?_escape_ne (noBracket : run.head? ≠ some '[') : (escape false run).head? ≠ some '[' := by
  cases run with
  | nil => simp
  | cons c run =>
    rw [escape_cons]
    unfold escapeChar
    split <;> simp_all

end Grammar

open Grammar

theorem escapeChar_of_opener {c : Char} (opener : isOpener c) : escapeChar false c = [c] := by
  refine escapeChar_of_plain ?_ ?_ <;> simp only [isOpener, isControl] at * <;> grind

theorem Charset.startsQuantifier_elements {set : Charset} {c : Char} (first : c ∈ set.firstChar?)
    (opener : isOpener c) (more : Text) :
    startsQuantifier (set.elements.toList.flatMap Element.text ++ more) := by
  unfold firstChar? at first
  cases elements : set.elements.toList with
  | nil => simp [elements] at first
  | cons element rest =>
    rw [elements] at first
    cases first
    obtain ⟨tail, text⟩ := element.text_eq_first
    simp [text, escapeChar_of_opener opener, startsQuantifier, opener]

namespace Atom

variable {run : Text} {rest : Branch} {after : Text}

theorem runEnds_canonical (chain : (Atom.text run :: rest).IsChain MayPrecede)
    (onAtoms : ∀ atom ∈ rest, atom.Proper ∧ atom.Settled) (ends : BranchEnds after) :
    RunEnds (Branch.written .canonical rest ++ after) := by
  have follows {next : Atom} {more : Branch} (here : rest = next :: more) : next.EndsRun := by
    subst here
    exact (List.isChain_cons_cons.mp chain).1 rfl
  refine runEnds_written ends ?_ ?_
  · intro run' mult more here
    have several : mult ≠ .once := follows here
    obtain ⟨proper, faithful, -, readable⟩ := onAtoms (.leaf (.literal run') mult) (by simp [here])
    obtain ⟨c, rfl⟩ := proper.eq_singleton several
    obtain ⟨ordinary, visible⟩ := readable c List.mem_cons_self
    have quantified := faithful.startsQuantifier_text several (Branch.written .canonical more ++ after)
    simpa [Style.canonical, Atom.mult] using (unitOf_escapeChar ordinary visible).runEnds quantified
  · intro set mult more here after
    obtain ⟨plain, c, first, opener⟩ := follows here
    have bracket : UnitOf '[' ['['] := .plain (by decide)
    have quantified := set.startsQuantifier_elements first opener ([']'] ++ after)
    simpa [Style.canonical, Charset.text, plain] using bracket.runEnds quantified

end Atom

/-- The canonical text of each atom is read as the atom on a branch in canonical form. -/
theorem writes_canonical : Writes .canonical (·.IsChain Atom.MayPrecede)
    fun atom => atom.Proper ∧ atom.Settled where
  tail chain := chain.tail
  charset := fun ⟨_, _, readsBack⟩ => (Charset.parse_text_eq_iff _ _).mp readsBack
  quantifier := fun ⟨_, faithful, _⟩ unquantified => faithful.quantifierOf unquantified
  literal := by
    intro run mult rest after chain onAtoms ends unquantified
    obtain ⟨proper, faithful, noBracket, readable⟩ := onAtoms _ List.mem_cons_self
    refine .leaf (.literal ?_) (faithful.quantifierOf unquantified)
    by_cases once : mult = .once
    · subst once
      have runEnds := Atom.runEnds_canonical chain
        (fun atom member => onAtoms atom (List.mem_cons_of_mem _ member)) ends
      exact .run (runOf_escape readable unquantified runEnds) proper.1 (head?_escape_ne noBracket)
    · obtain ⟨c, rfl⟩ := proper.eq_singleton once
      obtain ⟨ordinary, visible⟩ := readable c List.mem_cons_self
      have unit : UnitOf c (escape false [c]) := by simpa using unitOf_escapeChar ordinary visible
      exact .single unit (head?_escape_ne noBracket) (faithful.startsQuantifier_text once _)

theorem Tree.CanonicalForm.treeOf {tree : Tree} (canonical : tree.CanonicalForm) {after : Text}
    (ends : BranchEnds after) : TreeOf tree (Tree.canonical tree) after := by
  rw [← Tree.written_canonical]
  exact writes_canonical.treeOf canonical ends

/-- A tree in canonical form is what its canonical text is read as. -/
theorem parse_canonical {tree : Tree} {limit : Nat} (shallow : Tree.nesting tree ≤ limit)
    (canonical : tree.CanonicalForm) : parse limit (Tree.canonical tree) = .ok tree := by
  have derives : TreeOf tree (Tree.canonical tree) [] := canonical.treeOf (by simp [BranchEnds])
  exact derives.parse_eq shallow

theorem parse_canonical_group :
    let plus : ElementSet := .ofList [.char '+']
    let others : ElementSet := .ofList [.range ⟨'a', 'z', by decide⟩]
    let inner : Tree := [[.leaf (.charset ⟨true, others⟩) ⟨2, some 5, false, by simp⟩], []]
    let tree : Tree := [[.text ['a', '\\'], .leaf (.charset ⟨false, plus⟩) .once, .group inner (.atLeast 0)]]
    Tree.nesting tree ≤ 1 ∧ tree.CanonicalForm ∧ parse 1 (Tree.canonical tree) = .ok tree := by
  intro plus others inner tree
  have shallow : Tree.nesting tree ≤ 1 := by decide
  have canonical : tree.CanonicalForm := by decide +kernel
  exact ⟨shallow, canonical, parse_canonical shallow canonical⟩

end RegexPattern
