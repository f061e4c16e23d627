import RegexPattern.Proofs.TreeParts
import RegexPattern.Proofs.Grammar

/-!
What may be exchanged behind a derivation. A construct looks at what follows it only to see whether
a unit or a quantifier starts there. Two texts that look alike in this way may therefore be exchanged
for one another, alone or behind a text that both have in front of them.
-/

namespace RegexPattern.Grammar

/-- No construct in front of `rest` can tell `rest'` from it. -/
structure LooksLike (rest rest' : Text) : Prop where
  startsQuantifier_eq : startsQuantifier rest' = startsQuantifier rest
  marked : rest'.head? = some '?' → rest.head? = some '?'
  runEnds : RunEnds rest → RunEnds rest'

def Boundary (rest : Text) : Prop := ∀ c ∈ rest.head?, c ∈ ['|', '(', ')']

def TreeEnds (rest : Text) : Prop := rest = [] ∨ ∃ more, rest = ')' :: more

section

variable {front here there rest rest' : Text}

theorem TreeEnds.boundary (ends : TreeEnds rest) : Boundary rest := by
  rcases ends with rfl | ⟨more, rfl⟩ <;> simp [Boundary]

theorem Boundary.unquantified (boundary : Boundary rest) : startsQuantifier rest = false := by
  cases rest with
  | nil => rfl
  | cons c more =>
    have cases : c = '|' ∨ c = '(' ∨ c = ')' := by simpa using boundary c rfl
    rcases cases with rfl | rfl | rfl <;> rfl

theorem Boundary.runEnds (boundary : Boundary rest) : RunEnds rest := by
  apply runEnds_of_head
  intro c first
  have cases : c = '|' ∨ c = '(' ∨ c = ')' := by simpa using boundary c first
  rcases cases with rfl | rfl | rfl <;> decide

theorem Boundary.looksLike (boundary : Boundary rest) (boundary' : Boundary rest') : LooksLike rest rest' where
  startsQuantifier_eq := boundary'.unquantified.trans boundary.unquantified.symm
  marked marked := by
    have bounded := boundary' _ marked
    exact absurd bounded (by decide)
  runEnds _ := boundary'.runEnds

theorem LooksLike.of_delimiter {c : Char} (delimiter : c ∈ ['|', '(', ')']) (rest rest' : Text) :
    LooksLike (c :: rest) (c :: rest') := by
  have boundary (more : Text) : Boundary (c :: more) := by
    rintro _ ⟨⟩
    exact delimiter
  exact (boundary rest).looksLike (boundary rest')

/-- A unit that is longer than what stands in front of it takes a lone backslash, or nothing. -/
theorem UnitOf.front_cases {c : Char} {front more : Text} (derives : UnitOf c (front ++ more)) :
    more = [] ∨ front = [] ∨ front = ['\\'] := by
  generalize split : front ++ more = unit at derives
  cases derives with
  | escaped =>
    rcases front with _ | ⟨first, _ | ⟨second, front⟩⟩ <;> simp_all
  | plain =>
    rcases front with _ | ⟨first, front⟩ <;> simp_all

theorem RunEnds.append_of_exact (ends : RunEnds (front ++ here)) (filled : front ≠ []) (closed : front ≠ ['\\'])
    (exact : ∀ c, UnitOf c front → startsQuantifier here → startsQuantifier there) :
    RunEnds (front ++ there) := by
  intro c unit after derives same
  obtain ⟨more, rfl, rfl⟩ | ⟨more, rfl, rfl⟩ := List.append_eq_append_iff.mp same.symm
  · have quantified := ends c unit (more ++ here) derives (List.append_assoc ..)
    cases more with
    | nil => exact exact c (by simpa using derives) quantified
    | cons => exact quantified
  · obtain rfl : more = [] := derives.front_cases.resolve_right (not_or.mpr ⟨filled, closed⟩)
    rw [List.append_nil] at derives
    exact exact c derives (ends c front here derives rfl)

theorem LooksLike.of_exact (filled : front ≠ []) (closed : front ≠ ['\\'])
    (exact : ∀ c, UnitOf c front → startsQuantifier here → startsQuantifier there) :
    LooksLike (front ++ here) (front ++ there) where
  startsQuantifier_eq := by
    cases front with
    | nil => exact absurd rfl filled
    | cons => rfl
  marked := by
    cases front with
    | nil => exact absurd rfl filled
    | cons => exact id
  runEnds ends := ends.append_of_exact filled closed exact

theorem LooksLike.append (alike : LooksLike here there) (closed : front ≠ ['\\']) :
    LooksLike (front ++ here) (front ++ there) := by
  by_cases filled : front = []
  · subst filled
    exact alike
  · refine .of_exact filled closed fun _ _ quantified => ?_
    rwa [alike.startsQuantifier_eq]

/-- A text looks the same when it goes on, unless it may end within a unit. -/
theorem LooksLike.extend (filled : rest ≠ []) (closed : rest ≠ ['\\']) (more : Text) :
    LooksLike rest (rest ++ more) := by
  have alike : LooksLike (rest ++ []) (rest ++ more) := .of_exact filled closed nofun
  rwa [List.append_nil] at alike

theorem RunOf.congr {run source : Text} (derives : RunOf run source rest) (alike : LooksLike rest rest') :
    RunOf run source rest' := by
  induction derives with
  | nil ends => exact .nil (alike.runEnds ends)
  | @cons c unit run source rest unit' unquantified _ ih =>
    refine .cons unit' ?_ (ih alike)
    cases source with
    | nil => rwa [List.nil_append, alike.startsQuantifier_eq]
    | cons => exact unquantified

theorem LiteralOf.congr {run source : Text} (derives : LiteralOf run source rest)
    (alike : LooksLike rest rest') : LiteralOf run source rest' := by
  cases derives with
  | single unit noCharset quantified =>
    rw [← alike.startsQuantifier_eq] at quantified
    exact .single unit noCharset quantified
  | run derives filled noCharset => exact .run (derives.congr alike) filled noCharset

theorem QuantifierOf.exchange {mult : Multiplicity} {source : Text} (derives : QuantifierOf mult source rest)
    (quantified : startsQuantifier rest' → startsQuantifier rest)
    (marked : rest'.head? = some '?' → rest.head? = some '?') : QuantifierOf mult source rest' := by
  cases derives with
  | optional => exact .optional
  | exactly number => exact .exactly number
  | greedy bounds greedy unmarked => exact .greedy bounds greedy fun marked' => unmarked (marked marked')
  | nonGreedy bounds lazy => exact .nonGreedy bounds lazy
  | once unquantified => exact .once fun quantified' => unquantified (quantified quantified')

theorem QuantifierOf.congr {mult : Multiplicity} {source : Text} (derives : QuantifierOf mult source rest)
    (alike : LooksLike rest rest') : QuantifierOf mult source rest' :=
  derives.exchange (fun quantified => alike.startsQuantifier_eq ▸ quantified) alike.marked

theorem LeafOf.congr {leaf : Leaf} {source : Text} (derives : LeafOf leaf source rest)
    (alike : LooksLike rest rest') : LeafOf leaf source rest' := by
  cases derives with
  | anyChar => exact .anyChar
  | matchStart => exact .matchStart
  | matchEnd => exact .matchEnd
  | charset derives => exact .charset derives
  | literal derives => exact .literal (derives.congr alike)

theorem QuantifierOf.ne {mult : Multiplicity} {source : Text} (derives : QuantifierOf mult source rest) :
    source ≠ ['\\'] := by
  have closed : source ++ [] ≠ ['\\'] := derives.append_ne (by simp)
  rwa [List.append_nil] at closed

/-- What derives the tree does so in front of all texts that look alike. -/
def Exchanges (tree : Tree) : Prop :=
  ∀ source rest rest', TreeOf tree source rest → LooksLike rest rest' → TreeOf tree source rest'

theorem AtomOf.congr_of {atom : Atom} {source : Text} (inside : ∀ content ∈ atom.content?, Exchanges content)
    (derives : AtomOf atom source rest) (alike : LooksLike rest rest') : AtomOf atom source rest' := by
  cases derives with
  | leaf leaf quantified =>
    exact .leaf (leaf.congr (alike.append quantified.ne)) (quantified.congr alike)
  | group content quantified =>
    refine .group (inside _ rfl _ _ _ content ?_) (quantified.congr alike)
    exact .of_delimiter (by simp) _ _

theorem BranchOf.ne {branch : Branch} {source : Text} (derives : BranchOf branch source rest) :
    source ≠ ['\\'] := by
  have closed : source ++ [] ≠ ['\\'] := derives.append_ne (by simp)
  rwa [List.append_nil] at closed

theorem BranchOf.congr_of {branch : Branch} {source : Text}
    (inside : ∀ atom ∈ branch, ∀ content ∈ atom.content?, Exchanges content)
    (derives : BranchOf branch source rest) (alike : LooksLike rest rest') : BranchOf branch source rest' := by
  induction branch generalizing source with
  | nil =>
    cases derives
    exact .nil
  | cons atom branch ih =>
    cases derives with
    | cons first derives =>
      refine .cons ?_ (ih (fun atom member => inside atom (List.mem_cons_of_mem _ member)) derives)
      exact first.congr_of (inside atom List.mem_cons_self) (alike.append derives.ne)

theorem exchanges (tree : Tree) : Exchanges tree := by
  induction tree using Tree.induct with
  | step tree inside =>
    intro source rest rest' derives alike
    induction tree generalizing source with
    | nil => cases derives
    | cons branch tree ih =>
      have onBranch := inside branch List.mem_cons_self
      cases derives with
      | last derives => exact .last (derives.congr_of onBranch alike)
      | @cons _ _ source more _ first derives =>
        refine .cons (first.congr_of onBranch ?_)
          (ih (fun branch member => inside branch (List.mem_cons_of_mem _ member)) more derives)
        exact .of_delimiter (by simp) _ _

theorem AtomOf.congr {atom : Atom} {source : Text} (derives : AtomOf atom source rest)
    (alike : LooksLike rest rest') : AtomOf atom source rest' :=
  derives.congr_of (fun content _ => exchanges content) alike

theorem BranchOf.congr {branch : Branch} {source : Text} (derives : BranchOf branch source rest)
    (alike : LooksLike rest rest') : BranchOf branch source rest' :=
  derives.congr_of (fun _ _ content _ => exchanges content) alike

theorem TreeOf.congr {tree : Tree} {source : Text} (derives : TreeOf tree source rest)
    (alike : LooksLike rest rest') : TreeOf tree source rest' :=
  exchanges tree source rest rest' derives alike

end

end RegexPattern.Grammar
