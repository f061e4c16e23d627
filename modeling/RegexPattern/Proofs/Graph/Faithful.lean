import RegexPattern.Proofs.Graph.Numbering
import RegexPattern.Proofs.TreeParts

/-!
Graphs are faithful: two trees have one graph only if they differ in nothing but what is not drawn, which is
the greed of multiplicities that are not repeating and whether an empty branch stands in a tree at all.
-/

namespace RegexPattern

/-- A tree without branches is drawn like one empty branch. -/
def Tree.filled : Tree → Tree
  | [] => [[]]
  | branch :: rest => branch :: rest

mutual

def Atom.drawn : Atom → Atom
  | .leaf leaf mult => .leaf leaf mult.drawn
  | .group content mult => .group (Tree.filled (Tree.drawnBranches content)) mult.drawn

def Branch.drawn : List Atom → List Atom
  | [] => []
  | atom :: rest => atom.drawn :: Branch.drawn rest

def Tree.drawnBranches : List (List Atom) → List (List Atom)
  | [] => []
  | branch :: rest => Branch.drawn branch :: Tree.drawnBranches rest

end

def Tree.drawn (tree : Tree) : Tree := Tree.filled (Tree.drawnBranches tree)

theorem Tree.figure_filled (tree : Tree) : Tree.figure (Tree.filled tree) = Tree.figure tree := by
  cases tree <;> rfl

namespace Figure

def part : Figure → Part
  | of part _ _ => part

theorem join_cons_cons (part : Part) (first second : Figure) (rest : List Figure) :
    join part (first :: second :: rest) = of part .once (first :: second :: rest) := rfl

theorem drawn_join (part : Part) (figures : List Figure) :
    (join part figures).drawn = join part (drawnAll figures) := by
  match figures with
  | [] => rfl
  | [figure] => rfl
  | first :: second :: rest =>
    rw [join_cons_cons, drawn, drawnAll, drawnAll, join_cons_cons]
    rfl

theorem placed_join {part : Part} (plain : part.isElement = false) (noCharset : part.isCharset = false)
    {figures : List Figure} (placed : PlacedAll false figures) : (join part figures).Placed false := by
  match figures with
  | [] => exact ⟨rfl, trivial⟩
  | [figure] => exact placed.1
  | _ :: _ :: _ => exact ⟨plain, noCharset ▸ placed⟩

theorem join_inj {part : Part} {figures others : List Figure} (apart : ∀ figure ∈ figures, figure.part ≠ part)
    (apart' : ∀ figure ∈ others, figure.part ≠ part) (filled : figures ≠ []) (filled' : others ≠ [])
    (same : join part figures = join part others) : figures = others := by
  match figures, others with
  | [], _ => exact absurd rfl filled
  | _, [] => exact absurd rfl filled'
  | [figure], [other] => exact congrArg (fun figure => [figure]) same
  | [figure], _ :: _ :: _ => exact absurd (congrArg Figure.part same) (apart figure List.mem_cons_self)
  | _ :: _ :: _, [other] => exact absurd (congrArg Figure.part same).symm (apart' other List.mem_cons_self)
  | _ :: _ :: _, _ :: _ :: _ => exact (Figure.of.inj same).2.2

end Figure

theorem drawnAll_elements (elements : List Element) :
    Figure.drawnAll (elements.map Element.figure) = elements.map Element.figure := by
  induction elements with
  | nil => rfl
  | cons element elements ih =>
    rw [List.map_cons, Figure.drawnAll, ih]
    rfl

theorem placedAll_elements (elements : List Element) : Figure.PlacedAll true (elements.map Element.figure) := by
  induction elements with
  | nil => trivial
  | cons element elements ih => exact ⟨⟨rfl, trivial⟩, ih⟩

namespace Leaf

theorem drawn_figure (leaf : Leaf) (mult : Multiplicity) : (leaf.figure mult).drawn = leaf.figure mult.drawn := by
  cases leaf with
  | charset set => rw [figure, figure, Figure.drawn, drawnAll_elements]
  | _ => rfl

theorem placed_figure (leaf : Leaf) (mult : Multiplicity) : (leaf.figure mult).Placed false := by
  cases leaf with
  | charset set => exact ⟨rfl, placedAll_elements _⟩
  | _ => exact ⟨rfl, trivial⟩

theorem figure_inj {leaf other : Leaf} {mult mult' : Multiplicity}
    (same : leaf.figure mult = other.figure mult') : leaf = other ∧ mult = mult' := by
  cases leaf <;> cases other <;> simp only [figure, Figure.of.injEq, reduceCtorEq, false_and] at same
  · exact ⟨rfl, same.2.1⟩
  · exact ⟨rfl, same.2.1⟩
  · exact ⟨rfl, same.2.1⟩
  · next set set' =>
    have elements : set.elements.toList = set'.elements.toList := by
      refine List.map_injective_iff.mpr ?_ same.2.2
      intro element element' figures
      simpa [Element.figure] using figures
    obtain ⟨negated, ⟨members, sorted⟩⟩ := set
    obtain ⟨negated', ⟨members', sorted'⟩⟩ := set'
    cases elements
    cases same.1
    exact ⟨rfl, same.2.1⟩
  · cases same.1
    exact ⟨rfl, same.2.1⟩

end Leaf

mutual

theorem Atom.figure_drawn : (atom : Atom) → atom.drawn.figure = atom.figure.drawn
  | .leaf leaf mult => (leaf.drawn_figure mult).symm
  | .group content mult => by
    show Figure.of .group mult.drawn [Tree.figure (Tree.drawn content)] =
      Figure.of .group mult.drawn [(Tree.figure content).drawn]
    rw [Tree.drawn, Tree.figure_filled, Tree.figure, Tree.figures_drawnBranches content, Tree.figure,
      Figure.drawn_join]

theorem Branch.figures_drawn : (branch : List Atom) →
    Branch.figures (Branch.drawn branch) = Figure.drawnAll (Branch.figures branch)
  | [] => rfl
  | atom :: rest => by
    rw [Branch.drawn, Branch.figures, Branch.figures, Figure.drawnAll, Atom.figure_drawn atom,
      Branch.figures_drawn rest]

theorem Tree.figures_drawnBranches : (tree : List (List Atom)) →
    Tree.figures (Tree.drawnBranches tree) = Figure.drawnAll (Tree.figures tree)
  | [] => rfl
  | branch :: rest => by
    rw [Tree.drawnBranches, Tree.figures, Tree.figures, Figure.drawnAll, Branch.figures_drawn branch,
      Figure.drawn_join, Tree.figures_drawnBranches rest]

end

mutual

theorem Atom.placed_figure : (atom : Atom) → atom.figure.Placed false
  | .leaf leaf mult => leaf.placed_figure mult
  | .group content _ => ⟨rfl, Figure.placed_join rfl rfl (Tree.placedAll_figures content), trivial⟩

theorem Branch.placedAll_figures : (branch : List Atom) → Figure.PlacedAll false (Branch.figures branch)
  | [] => trivial
  | atom :: rest => ⟨Atom.placed_figure atom, Branch.placedAll_figures rest⟩

theorem Tree.placedAll_figures : (tree : List (List Atom)) → Figure.PlacedAll false (Tree.figures tree)
  | [] => trivial
  | branch :: rest =>
    ⟨Figure.placed_join rfl rfl (Branch.placedAll_figures branch), Tree.placedAll_figures rest⟩

end

def Part.isList : Part → Bool
  | empty | alternative | sequence => true
  | _ => false

theorem Atom.isList_part_figure (atom : Atom) : atom.figure.part.isList = false := by
  cases atom with
  | leaf leaf mult => cases leaf <;> rfl
  | group content mult => rfl

namespace Branch

theorem isList_part_of_mem_figures {branch : Branch} {figure : Figure} (member : figure ∈ figures branch) :
    figure.part.isList = false := by
  induction branch with
  | nil => cases member
  | cons atom rest ih =>
    rcases List.mem_cons.mp member with rfl | member
    · exact atom.isList_part_figure
    · exact ih member

theorem part_figure_ne_empty (atom : Atom) (rest : Branch) : (figure (atom :: rest)).part ≠ .empty := by
  intro same
  cases rest with
  | nil =>
    have apart := atom.isList_part_figure
    rw [show atom.figure.part = .empty from same] at apart
    cases apart
  | cons next rest => cases same

theorem part_figure_ne_alternative (branch : Branch) : (figure branch).part ≠ .alternative := by
  intro same
  match branch with
  | [] => cases same
  | [atom] =>
    have apart := atom.isList_part_figure
    rw [show atom.figure.part = .alternative from same] at apart
    cases apart
  | _ :: _ :: _ => cases same

theorem figures_eq_of_figure_eq {branch other : Branch} (same : figure branch = figure other) :
    figures branch = figures other := by
  have apart {branch : Branch} : ∀ figure ∈ figures branch, figure.part ≠ .sequence := by
    intro figure member same
    have atoms := isList_part_of_mem_figures member
    rw [same] at atoms
    cases atoms
  cases branch with
  | nil =>
    cases other with
    | nil => rfl
    | cons atom rest => exact absurd (congrArg Figure.part same).symm (part_figure_ne_empty atom rest)
  | cons atom rest =>
    cases other with
    | nil => exact absurd (congrArg Figure.part same) (part_figure_ne_empty atom rest)
    | cons atom' rest' => exact Figure.join_inj apart apart (by simp [figures]) (by simp [figures]) same

end Branch

namespace Tree

theorem figures_eq_of_figure_eq {tree other : Tree} (filled : tree ≠ []) (filled' : other ≠ [])
    (same : figure tree = figure other) : figures tree = figures other := by
  have apart (tree : Tree) : ∀ figure ∈ figures tree, figure.part ≠ .alternative := by
    intro figure member
    induction tree with
    | nil => cases member
    | cons branch rest ih =>
      rcases List.mem_cons.mp member with rfl | member
      · exact Branch.part_figure_ne_alternative branch
      · exact ih member
  have nonempty {tree : Tree} (filled : tree ≠ []) : figures tree ≠ [] := by
    cases tree with
    | nil => exact absurd rfl filled
    | cons => exact List.cons_ne_nil _ _
  exact Figure.join_inj (apart tree) (apart other) (nonempty filled) (nonempty filled') same

/-- No other tree has the figure that is drawn for the tree, up to what is not drawn. -/
def Shown (tree : Tree) : Prop :=
  ∀ other, figure (drawn tree) = figure (drawn other) → drawn tree = drawn other

end Tree

theorem Atom.drawn_eq_of_figure_eq {atom other : Atom} (inside : ∀ content ∈ atom.content?, Tree.Shown content)
    (same : atom.drawn.figure = other.drawn.figure) : atom.drawn = other.drawn := by
  cases atom with
  | leaf leaf mult =>
    cases other with
    | leaf leaf' mult' =>
      obtain ⟨leaves, mults⟩ := Leaf.figure_inj same
      rw [drawn, drawn, leaves, mults]
    | group content' mult' => cases leaf <;> cases same
  | group content mult =>
    cases other with
    | leaf leaf' mult' => cases leaf' <;> cases same
    | group content' mult' =>
      obtain ⟨-, mults, figures⟩ := Figure.of.inj same
      have contents : Tree.drawn content = Tree.drawn content' :=
        inside content rfl content' (List.head_eq_of_cons_eq figures)
      rw [drawn, drawn, mults]
      exact congrArg (group · mult'.drawn) contents

theorem Branch.drawn_eq_of_figures_eq {branch other : Branch}
    (inside : ∀ atom ∈ branch, ∀ content ∈ atom.content?, Tree.Shown content)
    (same : Branch.figures (Branch.drawn branch) = Branch.figures (Branch.drawn other)) :
    Branch.drawn branch = Branch.drawn other := by
  induction branch generalizing other with
  | nil =>
    cases other with
    | nil => rfl
    | cons => cases same
  | cons atom rest ih =>
    cases other with
    | nil => cases same
    | cons atom' rest' =>
      have first := Atom.drawn_eq_of_figure_eq (inside atom List.mem_cons_self) (List.head_eq_of_cons_eq same)
      have later := ih (fun atom member => inside atom (List.mem_cons_of_mem _ member))
        (List.tail_eq_of_cons_eq same)
      rw [drawn, drawn, first, later]

namespace Tree

theorem drawnBranches_eq_of_figures_eq {tree other : Tree}
    (inside : ∀ branch ∈ tree, ∀ atom ∈ branch, ∀ content ∈ atom.content?, Shown content)
    (same : figures (drawnBranches tree) = figures (drawnBranches other)) :
    drawnBranches tree = drawnBranches other := by
  induction tree generalizing other with
  | nil =>
    cases other with
    | nil => rfl
    | cons => cases same
  | cons branch rest ih =>
    cases other with
    | nil => cases same
    | cons branch' rest' =>
      have first := Branch.drawn_eq_of_figures_eq (inside branch List.mem_cons_self)
        (Branch.figures_eq_of_figure_eq (List.head_eq_of_cons_eq same))
      have later := ih (fun branch member => inside branch (List.mem_cons_of_mem _ member))
        (List.tail_eq_of_cons_eq same)
      rw [drawnBranches, drawnBranches, first, later]

theorem drawn_eq_drawnBranches (tree : Tree) : drawn tree = drawnBranches (filled tree) := by
  cases tree <;> rfl

theorem drawnBranches_filled_ne_nil (tree : Tree) : drawnBranches (filled tree) ≠ [] := by
  cases tree <;> exact List.cons_ne_nil _ _

theorem shown (tree : Tree) : Shown tree := by
  induction tree using Tree.induct with
  | step tree inside =>
    intro other same
    rw [drawn_eq_drawnBranches, drawn_eq_drawnBranches other] at same ⊢
    have onFilled : ∀ branch ∈ filled tree, ∀ atom ∈ branch, ∀ content ∈ atom.content?, Shown content := by
      cases tree with
      | nil => simp [filled]
      | cons => exact inside
    exact drawnBranches_eq_of_figures_eq onFilled
      (figures_eq_of_figure_eq (drawnBranches_filled_ne_nil tree) (drawnBranches_filled_ne_nil other) same)

theorem figure_drawn (tree : Tree) : figure (drawn tree) = (figure tree).drawn := by
  rw [drawn, figure_filled, figure, figures_drawnBranches, figure, Figure.drawn_join]

/-- Two trees have one graph exactly if their labels are the same and the same is drawn of them. -/
theorem graph_eq_graph_iff (label label' : Text) (tree tree' : Tree) :
    graph label tree = graph label' tree' ↔ label = label' ∧ drawn tree = drawn tree' := by
  constructor
  · intro same
    have placed (tree : Tree) : (figure tree).Placed false := Figure.placed_join rfl rfl (placedAll_figures tree)
    have figures := Figure.drawn_eq_of_nodes_eq 0 (figure tree) (figure tree') (placed tree) (placed tree')
      (congrArg Graph.nodes same) (congrArg Graph.edges same)
    rw [← figure_drawn, ← figure_drawn] at figures
    exact ⟨congrArg Graph.label same, shown tree tree' figures⟩
  · rintro ⟨rfl, same⟩
    rw [graph, graph, ← Figure.graph_drawn, ← figure_drawn, same, figure_drawn, Figure.graph_drawn]

end Tree

end RegexPattern
