import RegexPattern.Tree

/-!
The parts of a tree at all depths. The contents of its groups are trees again, so that a property
of every part is proved by going from a tree to the contents of the groups on its branches.
-/

namespace RegexPattern

mutual

/-- The atom itself and, at all depths, the atoms of its content. -/
def Atom.atoms : Atom → List Atom
  | .leaf leaf mult => [.leaf leaf mult]
  | .group content mult => .group content mult :: Tree.atoms content

def Branch.atoms : List Atom → List Atom
  | [] => []
  | atom :: rest => atom.atoms ++ Branch.atoms rest

def Tree.atoms : List (List Atom) → List Atom
  | [] => []
  | branch :: rest => Branch.atoms branch ++ Tree.atoms rest

end

namespace Atom

def content? : Atom → Option Tree
  | leaf .. => none
  | group content _ => some content

theorem mem_atoms {atom part : Atom} :
    part ∈ atom.atoms ↔ part = atom ∨ ∃ content ∈ atom.content?, part ∈ Tree.atoms content := by
  cases atom <;> simp [atoms, content?]

theorem nesting_eq (atom : Atom) :
    atom.nesting = (atom.content?.map fun content => Tree.nesting content + 1).getD 0 := by
  cases atom <;> rfl

end Atom

namespace Branch

theorem mem_atoms {branch : Branch} {part : Atom} :
    part ∈ atoms branch ↔ ∃ atom ∈ branch, part ∈ atom.atoms := by
  induction branch with
  | nil => simp [atoms]
  | cons atom rest ih => simp [atoms, ih]

theorem nesting_le_iff {branch : Branch} {limit : Nat} :
    nesting branch ≤ limit ↔ ∀ atom ∈ branch, atom.nesting ≤ limit := by
  induction branch with
  | nil => simp [nesting]
  | cons atom rest ih => rw [nesting, Nat.max_le, ih, List.forall_mem_cons]

theorem nesting_concat (branch : Branch) (atom : Atom) :
    nesting (branch ++ [atom]) = max (nesting branch) atom.nesting := by
  induction branch with
  | nil => simp [nesting]
  | cons first branch ih => rw [List.cons_append, nesting, ih, nesting, Nat.max_assoc]

end Branch

namespace Tree

/-- The tree itself and, at all depths, the contents of its groups. -/
def trees (tree : Tree) : List Tree := tree :: (atoms tree).filterMap Atom.content?

def branches (tree : Tree) : List Branch := tree.trees.flatten

theorem nesting_le_iff {tree : Tree} {limit : Nat} :
    nesting tree ≤ limit ↔ ∀ branch ∈ tree, ∀ atom ∈ branch, atom.nesting ≤ limit := by
  induction tree with
  | nil => simp [nesting]
  | cons branch rest ih => rw [nesting, Nat.max_le, Branch.nesting_le_iff, ih, List.forall_mem_cons]

theorem nesting_append (tree more : Tree) : nesting (tree ++ more) = max (nesting tree) (nesting more) := by
  induction tree with
  | nil => simp [nesting]
  | cons branch tree ih => rw [List.cons_append, nesting, ih, nesting, Nat.max_assoc]

theorem nesting_wrap (tree : Tree) (mult : Multiplicity) : nesting (tree.wrap mult) = nesting tree + 1 := by
  simp [wrap, nesting, Branch.nesting, Atom.nesting]

theorem nesting_snocAtom (atom : Atom) (tree : Tree) :
    nesting (tree.snocAtom atom) = max (nesting tree) atom.nesting := by
  fun_induction snocAtom atom tree with
  | case1 => simp [nesting, Branch.nesting]
  | case2 branch => simp [nesting, Branch.nesting_concat]
  | case3 branch next rest ih =>
    calc
      nesting (branch :: snocAtom atom (next :: rest)) =
          max (Branch.nesting branch) (max (nesting (next :: rest)) atom.nesting) := by rw [nesting, ih]
      _ = max (nesting (branch :: next :: rest)) atom.nesting := (Nat.max_assoc ..).symm

theorem snocAtom_concat (atom : Atom) (front : Tree) (branch : Branch) :
    snocAtom atom (front ++ [branch]) = front ++ [branch ++ [atom]] := by
  induction front with
  | nil => rfl
  | cons first front ih =>
    cases front with
    | nil => rfl
    | cons second front => exact congrArg (first :: ·) ih

theorem nesting_content_lt {tree content : Tree} {branch : Branch} {atom : Atom}
    (onTree : branch ∈ tree) (onBranch : atom ∈ branch) (inside : content ∈ atom.content?) :
    nesting content < nesting tree := by
  have below := nesting_le_iff.mp (Nat.le_refl (nesting tree)) branch onTree atom onBranch
  rw [Atom.nesting_eq, Option.mem_def.mp inside] at below
  exact below

/-- Induction from the contents of the groups on a tree's branches to the tree. -/
theorem induct {motive : Tree → Prop}
    (step : ∀ tree, (∀ branch ∈ tree, ∀ atom ∈ branch, ∀ content ∈ atom.content?, motive content) →
      motive tree) (tree : Tree) : motive tree := by
  induction depth : nesting tree using Nat.strongRecOn generalizing tree with
  | ind bound ih =>
    apply step
    intro branch onTree atom onBranch content inside
    exact ih _ (depth ▸ nesting_content_lt onTree onBranch inside) content rfl

theorem mem_atoms {tree : Tree} {part : Atom} :
    part ∈ atoms tree ↔ ∃ branch ∈ tree, ∃ atom ∈ branch, part ∈ atom.atoms := by
  induction tree with
  | nil => simp [atoms]
  | cons branch rest ih => simp [atoms, Branch.mem_atoms, ih]

theorem mem_trees {tree part : Tree} :
    part ∈ tree.trees ↔ part = tree ∨
      ∃ branch ∈ tree, ∃ atom ∈ branch, ∃ content ∈ atom.content?, part ∈ content.trees := by
  have contents : part ∈ (atoms tree).filterMap Atom.content? ↔
      ∃ branch ∈ tree, ∃ atom ∈ branch, ∃ inner ∈ atom.atoms, part ∈ inner.content? := by
    simp only [List.mem_filterMap, mem_atoms, Option.mem_def]
    grind
  rw [trees, List.mem_cons, contents]
  apply or_congr_right
  constructor
  · intro ⟨branch, onTree, atom, onBranch, inner, within, inside⟩
    refine ⟨branch, onTree, atom, onBranch, ?_⟩
    rcases Atom.mem_atoms.mp within with rfl | ⟨content, inside', within'⟩
    · exact ⟨part, inside, List.mem_cons_self⟩
    · exact ⟨content, inside', List.mem_cons_of_mem _ (List.mem_filterMap.mpr ⟨inner, within', inside⟩)⟩
  · intro ⟨branch, onTree, atom, onBranch, content, inside, within⟩
    refine ⟨branch, onTree, atom, onBranch, ?_⟩
    rcases List.mem_cons.mp within with rfl | within
    · exact ⟨atom, Atom.mem_atoms.mpr (.inl rfl), inside⟩
    · obtain ⟨inner, within', inside'⟩ := List.mem_filterMap.mp within
      exact ⟨inner, Atom.mem_atoms.mpr (.inr ⟨content, inside, within'⟩), inside'⟩

/-- One property of the tree and all contents, one of all branches, one of all atoms. -/
structure Everywhere (onTree : Tree → Prop) (onBranch : Branch → Prop) (onAtom : Atom → Prop)
    (tree : Tree) : Prop where
  trees : ∀ part ∈ tree.trees, onTree part
  branches : ∀ branch ∈ tree.branches, onBranch branch
  atoms : ∀ atom ∈ atoms tree, onAtom atom

section

variable {onTree : Tree → Prop} {onBranch : Branch → Prop} {onAtom : Atom → Prop} {tree : Tree}

instance [DecidablePred onTree] [DecidablePred onBranch] [DecidablePred onAtom] :
    Decidable (Everywhere onTree onBranch onAtom tree) :=
  decidable_of_iff ((∀ part ∈ tree.trees, onTree part) ∧ (∀ branch ∈ tree.branches, onBranch branch) ∧
      ∀ atom ∈ atoms tree, onAtom atom)
    ⟨fun ⟨trees, branches, atoms⟩ => ⟨trees, branches, atoms⟩,
      fun ⟨trees, branches, atoms⟩ => ⟨trees, branches, atoms⟩⟩

theorem everywhere_iff : Everywhere onTree onBranch onAtom tree ↔ onTree tree ∧
    ∀ branch ∈ tree, onBranch branch ∧
      ∀ atom ∈ branch, onAtom atom ∧
        ∀ content ∈ atom.content?, Everywhere onTree onBranch onAtom content := by
  constructor
  · intro ⟨trees, branches, atoms⟩
    refine ⟨trees tree (mem_trees.mpr (.inl rfl)), fun branch found => ⟨?_, fun atom onIt => ⟨?_, ?_⟩⟩⟩
    · exact branches branch (List.mem_flatten.mpr ⟨tree, mem_trees.mpr (.inl rfl), found⟩)
    · exact atoms atom (mem_atoms.mpr ⟨branch, found, atom, onIt, Atom.mem_atoms.mpr (.inl rfl)⟩)
    · intro content inside
      have deeper (part : Tree) (within : part ∈ content.trees) : part ∈ tree.trees :=
        mem_trees.mpr (.inr ⟨branch, found, atom, onIt, content, inside, within⟩)
      refine ⟨fun part within => trees part (deeper part within), fun part within => ?_,
        fun part within => ?_⟩
      · obtain ⟨part', within, member⟩ := List.mem_flatten.mp within
        exact branches part (List.mem_flatten.mpr ⟨part', deeper part' within, member⟩)
      · exact atoms part (mem_atoms.mpr
          ⟨branch, found, atom, onIt, Atom.mem_atoms.mpr (.inr ⟨content, inside, within⟩)⟩)
  · intro ⟨top, below⟩
    refine ⟨fun part within => ?_, fun part within => ?_, fun part within => ?_⟩
    · rcases mem_trees.mp within with rfl | ⟨branch, found, atom, onIt, content, inside, within⟩
      · exact top
      · exact (((below branch found).2 atom onIt).2 content inside).trees part within
    · obtain ⟨part', within, member⟩ := List.mem_flatten.mp within
      rcases mem_trees.mp within with rfl | ⟨branch, found, atom, onIt, content, inside, within⟩
      · exact (below part member).1
      · exact (((below branch found).2 atom onIt).2 content inside).branches part
          (List.mem_flatten.mpr ⟨part', within, member⟩)
    · obtain ⟨branch, found, atom, onIt, within⟩ := mem_atoms.mp within
      rcases Atom.mem_atoms.mp within with rfl | ⟨content, inside, within⟩
      · exact ((below branch found).2 _ onIt).1
      · exact (((below branch found).2 atom onIt).2 content inside).atoms part within

end

end Tree

end RegexPattern
