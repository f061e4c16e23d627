import Mathlib.Data.List.Chain
import RegexPattern.Canonical
import RegexPattern.Proofs.CanonicalForm
import RegexPattern.Proofs.TreeParts

/-!
Trees that are written alike. Where one run of characters ends and the next one starts is not written, so
that neighbouring runs can be joined; and a multiplicity can be changed for any other one with its text.
-/

namespace RegexPattern

mutual

def Atom.mapMult (change : Multiplicity → Multiplicity) : Atom → Atom
  | .leaf leaf mult => .leaf leaf (change mult)
  | .group content mult => .group (Tree.mapMult change content) (change mult)

def Branch.mapMult (change : Multiplicity → Multiplicity) : List Atom → List Atom
  | [] => []
  | atom :: rest => atom.mapMult change :: Branch.mapMult change rest

def Tree.mapMult (change : Multiplicity → Multiplicity) : List (List Atom) → List (List Atom)
  | [] => []
  | branch :: rest => Branch.mapMult change branch :: Tree.mapMult change rest

end

/-- The atom in front of a branch. If it is a run and the branch starts with one, the two make one run. -/
def Atom.joinOnto : Atom → List Atom → List Atom
  | .leaf (.literal run) mult, .leaf (.literal more) mult' :: rest =>
    if mult = .once ∧ mult' = .once then .text (run ++ more) :: rest
    else .leaf (.literal run) mult :: .leaf (.literal more) mult' :: rest
  | atom, branch => atom :: branch

mutual

def Atom.joined : Atom → Atom
  | .leaf leaf mult => .leaf leaf mult
  | .group content mult => .group (Tree.joined content) mult

def Branch.joined : List Atom → List Atom
  | [] => []
  | atom :: rest => atom.joined.joinOnto (Branch.joined rest)

def Tree.joined : List (List Atom) → List (List Atom)
  | [] => []
  | branch :: rest => Branch.joined branch :: Tree.joined rest

end

section

variable {change : Multiplicity → Multiplicity}

mutual

theorem Atom.canonical_mapMult (same : ∀ mult, (change mult).text = mult.text) :
    (atom : Atom) → (atom.mapMult change).canonical = atom.canonical
  | .leaf leaf mult => by rw [Atom.mapMult, Atom.canonical, Atom.canonical, same]
  | .group content mult => by
    rw [Atom.mapMult, Atom.canonical, Atom.canonical, Tree.canonical_mapMult same content, same]

theorem Branch.canonical_mapMult (same : ∀ mult, (change mult).text = mult.text) :
    (branch : List Atom) → Branch.canonical (Branch.mapMult change branch) = Branch.canonical branch
  | [] => rfl
  | atom :: rest => by
    rw [Branch.mapMult, Branch.canonical, Branch.canonical, Atom.canonical_mapMult same atom,
      Branch.canonical_mapMult same rest]

theorem Tree.canonical_mapMult (same : ∀ mult, (change mult).text = mult.text) :
    (tree : List (List Atom)) → Tree.canonical (Tree.mapMult change tree) = Tree.canonical tree
  | [] => rfl
  | [branch] => Branch.canonical_mapMult same branch
  | branch :: next :: rest => by
    have later := Tree.canonical_mapMult same (next :: rest)
    rw [Tree.mapMult] at later
    rw [Tree.mapMult, Tree.mapMult, Tree.canonical, Tree.canonical, Branch.canonical_mapMult same branch, later]

end

mutual

theorem Atom.nesting_mapMult : (atom : Atom) → (atom.mapMult change).nesting = atom.nesting
  | .leaf leaf mult => rfl
  | .group content mult => by rw [Atom.mapMult, Atom.nesting, Atom.nesting, Tree.nesting_mapMult content]

theorem Branch.nesting_mapMult :
    (branch : List Atom) → Branch.nesting (Branch.mapMult change branch) = Branch.nesting branch
  | [] => rfl
  | atom :: rest => by
    rw [Branch.mapMult, Branch.nesting, Branch.nesting, Atom.nesting_mapMult atom, Branch.nesting_mapMult rest]

theorem Tree.nesting_mapMult :
    (tree : List (List Atom)) → Tree.nesting (Tree.mapMult change tree) = Tree.nesting tree
  | [] => rfl
  | branch :: rest => by
    rw [Tree.mapMult, Tree.nesting, Tree.nesting, Branch.nesting_mapMult branch, Tree.nesting_mapMult rest]

end

mutual

theorem Atom.atoms_mapMult : (atom : Atom) → (atom.mapMult change).atoms = atom.atoms.map (·.mapMult change)
  | .leaf leaf mult => rfl
  | .group content mult => by
    rw [Atom.mapMult, Atom.atoms, Atom.atoms, Tree.atoms_mapMult content]
    rfl

theorem Branch.atoms_mapMult : (branch : List Atom) →
    Branch.atoms (Branch.mapMult change branch) = (Branch.atoms branch).map (·.mapMult change)
  | [] => rfl
  | atom :: rest => by
    rw [Branch.mapMult, Branch.atoms, Branch.atoms, Atom.atoms_mapMult atom, Branch.atoms_mapMult rest,
      List.map_append]

theorem Tree.atoms_mapMult : (tree : List (List Atom)) →
    Tree.atoms (Tree.mapMult change tree) = (Tree.atoms tree).map (·.mapMult change)
  | [] => rfl
  | branch :: rest => by
    rw [Tree.mapMult, Tree.atoms, Tree.atoms, Branch.atoms_mapMult branch, Tree.atoms_mapMult rest,
      List.map_append]

end

theorem Tree.trees_mapMult (tree : Tree) :
    Tree.trees (mapMult change tree) = tree.trees.map (mapMult change) := by
  have contents (atom : Atom) : (atom.mapMult change).content? = atom.content?.map (mapMult change) := by
    cases atom <;> rfl
  rw [trees, atoms_mapMult, List.filterMap_map, trees, List.map_cons, List.map_filterMap]
  simp only [Function.comp_def, contents]

end

namespace Atom

theorem eq_text_of_isRun {atom : Atom} (run : atom.isRun) : ∃ run, atom = .text run := by
  cases atom with
  | group => cases run
  | leaf leaf mult =>
    cases leaf with
    | literal text =>
      have once : mult = .once := by simpa [isRun] using run
      exact ⟨text, by rw [once, Atom.text]⟩
    | _ => cases run

theorem joinOnto_cases (atom : Atom) (branch : Branch) :
    (∃ run more rest, atom = .text run ∧ branch = .text more :: rest ∧
      atom.joinOnto branch = .text (run ++ more) :: rest) ∨
    (∀ next ∈ branch.head?, ¬ (atom.isRun ∧ next.isRun)) ∧ atom.joinOnto branch = atom :: branch := by
  unfold joinOnto
  split
  · next run mult more mult' rest =>
    split
    · next once =>
      obtain ⟨rfl, rfl⟩ := once
      exact .inl ⟨run, more, rest, rfl, rfl, rfl⟩
    · next several =>
      refine .inr ⟨?_, rfl⟩
      intro next first
      cases first
      simpa [isRun] using several
  · next noRuns =>
    refine .inr ⟨?_, rfl⟩
    intro next first ⟨isRun, isRun'⟩
    obtain ⟨run, rfl⟩ := eq_text_of_isRun isRun
    obtain ⟨more, rfl⟩ := eq_text_of_isRun isRun'
    obtain ⟨rest, rfl⟩ := List.head?_eq_some_iff.mp first
    exact noRuns _ _ _ _ _ rfl rfl

theorem canonical_joinOnto (atom : Atom) (branch : Branch) :
    Branch.canonical (atom.joinOnto branch) = atom.canonical ++ Branch.canonical branch := by
  rcases joinOnto_cases atom branch with ⟨run, more, rest, rfl, rfl, joined⟩ | ⟨-, apart⟩
  · rw [joined]
    simp only [Branch.canonical, canonical_text, escape_append, List.append_assoc]
  · rw [apart, Branch.canonical]

theorem nesting_joinOnto (atom : Atom) (branch : Branch) :
    Branch.nesting (atom.joinOnto branch) = max atom.nesting (Branch.nesting branch) := by
  rcases joinOnto_cases atom branch with ⟨run, more, rest, rfl, rfl, joined⟩ | ⟨-, apart⟩
  · rw [joined]
    simp only [Branch.nesting, text, nesting, Nat.zero_max]
  · rw [apart, Branch.nesting]

/-- A property that runs share with what they are joined to stays one of all atoms. -/
theorem forall_mem_joinOnto {holds : Atom → Prop} {atom : Atom} {branch : Branch}
    (join : ∀ run more, holds (text run) → holds (text more) → holds (text (run ++ more)))
    (first : holds atom) (others : ∀ other ∈ branch, holds other) :
    ∀ other ∈ atom.joinOnto branch, holds other := by
  rcases joinOnto_cases atom branch with ⟨run, more, rest, rfl, rfl, joined⟩ | ⟨-, apart⟩
  · obtain ⟨second, others⟩ := List.forall_mem_cons.mp others
    rw [joined]
    exact List.forall_mem_cons.mpr ⟨join run more first second, others⟩
  · rw [apart]
    exact List.forall_mem_cons.mpr ⟨first, others⟩

def Apart (atom next : Atom) : Prop := ¬ (atom.isRun ∧ next.isRun)

theorem isChain_joinOnto {atom : Atom} {branch : Branch} (chain : branch.IsChain Apart) :
    (atom.joinOnto branch).IsChain Apart := by
  rcases joinOnto_cases atom branch with ⟨run, more, rest, rfl, rfl, joined⟩ | ⟨first, apart⟩
  · rw [joined]
    refine chain.cons_of_imp fun next apart => ?_
    simpa [Apart, isRun, text] using apart
  · rw [apart]
    exact chain.cons first

end Atom

mutual

theorem Atom.canonical_joined : (atom : Atom) → atom.joined.canonical = atom.canonical
  | .leaf leaf mult => rfl
  | .group content mult => by rw [Atom.joined, Atom.canonical, Atom.canonical, Tree.canonical_joined content]

theorem Branch.canonical_joined :
    (branch : List Atom) → Branch.canonical (Branch.joined branch) = Branch.canonical branch
  | [] => rfl
  | atom :: rest => by
    rw [Branch.joined, Atom.canonical_joinOnto, Branch.canonical, Atom.canonical_joined atom,
      Branch.canonical_joined rest]

theorem Tree.canonical_joined : (tree : List (List Atom)) → Tree.canonical (Tree.joined tree) = Tree.canonical tree
  | [] => rfl
  | [branch] => Branch.canonical_joined branch
  | branch :: next :: rest => by
    have later := Tree.canonical_joined (next :: rest)
    rw [Tree.joined] at later
    rw [Tree.joined, Tree.joined, Tree.canonical, Tree.canonical, Branch.canonical_joined branch, later]

end

mutual

theorem Atom.nesting_joined : (atom : Atom) → atom.joined.nesting = atom.nesting
  | .leaf leaf mult => rfl
  | .group content mult => by rw [Atom.joined, Atom.nesting, Atom.nesting, Tree.nesting_joined content]

theorem Branch.nesting_joined :
    (branch : List Atom) → Branch.nesting (Branch.joined branch) = Branch.nesting branch
  | [] => rfl
  | atom :: rest => by
    rw [Branch.joined, Atom.nesting_joinOnto, Branch.nesting, Atom.nesting_joined atom,
      Branch.nesting_joined rest]

theorem Tree.nesting_joined : (tree : List (List Atom)) → Tree.nesting (Tree.joined tree) = Tree.nesting tree
  | [] => rfl
  | branch :: rest => by
    rw [Tree.joined, Tree.nesting, Tree.nesting, Branch.nesting_joined branch, Tree.nesting_joined rest]

end

theorem Branch.isChain_joined (branch : Branch) : (joined branch).IsChain Atom.Apart := by
  induction branch with
  | nil => exact .nil
  | cons atom rest ih => exact Atom.isChain_joinOnto ih

theorem Branch.forall_mem_joined {holds : Atom → Prop} {branch : Branch}
    (join : ∀ run more, holds (.text run) → holds (.text more) → holds (.text (run ++ more)))
    (onBranch : ∀ atom ∈ branch, holds atom.joined) : ∀ atom ∈ joined branch, holds atom := by
  induction branch with
  | nil => nofun
  | cons atom rest ih =>
    obtain ⟨first, others⟩ := List.forall_mem_cons.mp onBranch
    exact Atom.forall_mem_joinOnto join first (ih others)

theorem Tree.joined_eq_map (tree : Tree) : joined tree = tree.map Branch.joined := by
  induction tree with
  | nil => rfl
  | cons branch rest ih => rw [joined, ih, List.map_cons]

end RegexPattern
