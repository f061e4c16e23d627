import RegexPattern.Canonical
import RegexPattern.Proofs.Grammar
import RegexPattern.Proofs.TreeParts

/-!
Texts that derive a tree. A tree is written by writing its literals with their quantifiers, its
charsets and all other quantifiers; whether the text derives the tree is then decided literal by
literal, from what is written behind each.
-/

namespace RegexPattern

structure Style where
  /-- A literal together with its quantifier. -/
  literal : Text → Multiplicity → Text
  charset : Charset → Text
  quantifier : Multiplicity → Text

def Leaf.written (style : Style) (mult : Multiplicity) : Leaf → Text
  | matchStart => ['^'] ++ style.quantifier mult
  | matchEnd => ['$'] ++ style.quantifier mult
  | anyChar => ['.'] ++ style.quantifier mult
  | charset set => style.charset set ++ style.quantifier mult
  | literal run => style.literal run mult

mutual

def Atom.written (style : Style) : Atom → Text
  | .leaf leaf mult => leaf.written style mult
  | .group content mult => ['('] ++ Tree.written style content ++ [')'] ++ style.quantifier mult

def Branch.written (style : Style) : List Atom → Text
  | [] => []
  | atom :: rest => atom.written style ++ Branch.written style rest

def Tree.written (style : Style) : List (List Atom) → Text
  | [] => []
  | [branch] => Branch.written style branch
  | branch :: next :: rest => Branch.written style branch ++ ['|'] ++ Tree.written style (next :: rest)

end

/-- Escapes only where they are needed, and the shortest quantifiers. -/
def Style.canonical : Style where
  literal run mult := escape false run ++ mult.text
  charset := Charset.text
  quantifier := Multiplicity.text

theorem Leaf.written_canonical (leaf : Leaf) (mult : Multiplicity) :
    leaf.written .canonical mult = leaf.text ++ mult.text := by
  cases leaf <;> rfl

mutual

theorem Atom.written_canonical : (atom : Atom) → atom.written .canonical = atom.canonical
  | .leaf leaf mult => leaf.written_canonical mult
  | .group content mult => by
    rw [Atom.written, Atom.canonical, Tree.written_canonical content]
    rfl

theorem Branch.written_canonical :
    (branch : List Atom) → Branch.written .canonical branch = Branch.canonical branch
  | [] => rfl
  | atom :: rest => by
    rw [Branch.written, Branch.canonical, Atom.written_canonical atom, Branch.written_canonical rest]

theorem Tree.written_canonical :
    (tree : List (List Atom)) → Tree.written .canonical tree = Tree.canonical tree
  | [] => rfl
  | [branch] => Branch.written_canonical branch
  | branch :: next :: rest => by
    rw [Tree.written, Tree.canonical, Branch.written_canonical branch, Tree.written_canonical (next :: rest)]

end

namespace Grammar

def BranchEnds (rest : Text) : Prop := ∀ c ∈ rest.head?, c = '|' ∨ c = ')'

theorem BranchEnds.unquantified {rest : Text} (ends : BranchEnds rest) : ¬ startsQuantifier rest := by
  cases rest with
  | nil => simp [startsQuantifier]
  | cons c more =>
    rcases ends c rfl with rfl | rfl <;> simp [startsQuantifier, isOpener]

theorem BranchEnds.runEnds {rest : Text} (ends : BranchEnds rest) : RunEnds rest := by
  apply runEnds_of_head
  intro c first
  rcases ends c first with rfl | rfl <;> decide

theorem runEnds_written {style : Style} {branch : Branch} {after : Text} (ends : BranchEnds after)
    (literal : ∀ {run mult rest}, branch = .leaf (.literal run) mult :: rest →
      RunEnds (style.literal run mult ++ (Branch.written style rest ++ after)))
    (charset : ∀ {set mult rest}, branch = .leaf (.charset set) mult :: rest →
      ∀ more, RunEnds (style.charset set ++ more)) :
    RunEnds (Branch.written style branch ++ after) := by
  have special (c : Char) (special : c ∈ ['^', '$', '.', '(']) (more : Text) : RunEnds ([c] ++ more) := by
    apply runEnds_of_head
    intro d first
    cases first
    have cases : c = '^' ∨ c = '$' ∨ c = '.' ∨ c = '(' := by simpa using special
    rcases cases with rfl | rfl | rfl | rfl <;> decide
  cases branch with
  | nil => exact ends.runEnds
  | cons atom rest =>
    rw [Branch.written, List.append_assoc]
    cases atom with
    | group =>
      simp only [Atom.written, List.append_assoc]
      exact special '(' (by decide) _
    | leaf leaf mult =>
      cases leaf with
      | literal run => exact literal rfl
      | charset set =>
        simp only [Atom.written, Leaf.written, List.append_assoc]
        exact charset rfl _
      | matchStart => exact special '^' (by decide) _
      | matchEnd => exact special '$' (by decide) _
      | anyChar => exact special '.' (by decide) _

/-- On a branch with the first property all atoms of which have the second one, charsets and quantifiers
are written as such, and literals so that they are read as such in front of what follows. -/
structure Writes (style : Style) (onBranch : Branch → Prop) (onAtom : Atom → Prop) : Prop where
  tail : ∀ {atom : Atom} {rest : Branch}, onBranch (atom :: rest) → onBranch rest
  literal : ∀ {run : Text} {mult : Multiplicity} {rest : Branch} {after : Text},
    onBranch (.leaf (.literal run) mult :: rest) →
    (∀ atom ∈ Atom.leaf (.literal run) mult :: rest, onAtom atom) →
    BranchEnds after → ¬ startsQuantifier (Branch.written style rest ++ after) →
    AtomOf (.leaf (.literal run) mult) (style.literal run mult) (Branch.written style rest ++ after)
  charset : ∀ {set : Charset} {mult : Multiplicity}, onAtom (.leaf (.charset set) mult) →
    CharsetOf set (style.charset set)
  quantifier : ∀ {atom : Atom} {after : Text}, onAtom atom → ¬ startsQuantifier after →
    QuantifierOf atom.mult (style.quantifier atom.mult) after

section

variable {style : Style} {onBranch : Branch → Prop} {onAtom : Atom → Prop}

theorem Writes.branchOf (writes : Writes style onBranch onAtom) {branch : Branch} {after : Text}
    (inside : ∀ atom ∈ branch, ∀ content ∈ atom.content?, ∀ after, BranchEnds after →
      TreeOf content (Tree.written style content) after)
    (onIt : onBranch branch) (onAtoms : ∀ atom ∈ branch, onAtom atom) (ends : BranchEnds after) :
    BranchOf branch (Branch.written style branch) after := by
  induction branch with
  | nil => exact .nil
  | cons atom rest ih =>
    have later := ih (fun atom member => inside atom (List.mem_cons_of_mem _ member)) (writes.tail onIt)
      (fun atom member => onAtoms atom (List.mem_cons_of_mem _ member))
    have unquantified := later.unquantified ends.unquantified
    refine .cons ?_ later
    have onAtom := onAtoms _ List.mem_cons_self
    have quantified := writes.quantifier onAtom unquantified
    cases atom with
    | leaf leaf mult =>
      cases leaf with
      | matchStart => exact .leaf .matchStart quantified
      | matchEnd => exact .leaf .matchEnd quantified
      | anyChar => exact .leaf .anyChar quantified
      | charset set => exact .leaf (.charset (writes.charset onAtom)) quantified
      | literal run => exact writes.literal onIt onAtoms ends unquantified
    | group content mult =>
      refine .group (inside _ List.mem_cons_self content rfl _ ?_) quantified
      simp [BranchEnds]

theorem Writes.treeOf (writes : Writes style onBranch onAtom) {tree : Tree}
    (everywhere : tree.Everywhere (· ≠ []) onBranch onAtom) {after : Text} (ends : BranchEnds after) :
    TreeOf tree (Tree.written style tree) after := by
  induction tree using Tree.induct generalizing after with
  | step tree inside =>
    obtain ⟨filled, below⟩ := Tree.everywhere_iff.mp everywhere
    have branchOf (branch : Branch) (onTree : branch ∈ tree) {after : Text} (ends : BranchEnds after) :
        BranchOf branch (Branch.written style branch) after := by
      obtain ⟨onIt, onAtoms⟩ := below branch onTree
      refine writes.branchOf ?_ onIt (fun atom member => (onAtoms atom member).1) ends
      intro atom member content within after ends
      exact inside branch onTree atom member content within ((onAtoms atom member).2 content within) ends
    clear inside everywhere below
    induction tree with
    | nil => exact absurd rfl filled
    | cons branch rest ih =>
      cases rest with
      | nil => exact .last (branchOf branch List.mem_cons_self ends)
      | cons next rest =>
        refine .cons (branchOf branch List.mem_cons_self ?_) (ih (by simp) ?_)
        · simp [BranchEnds]
        · exact fun branch member => branchOf branch (List.mem_cons_of_mem _ member)

end

end Grammar

end RegexPattern
