import Mathlib.Data.List.Infix
import RegexPattern.Proofs.Graph.Assembly
import RegexPattern.Proofs.Graph.Postorder
import RegexPattern.Proofs.TreeParts

/-!
The census of a graph. Every figure at any depth of another has one node, and by what it is it has a loop,
an edge to those below it, or a dotted node. The figures at all depths of the figure of a tree stem from its
atoms, from the elements of its charsets, and from those of its trees and branches that are not drawn as
their only member.
-/

namespace RegexPattern

def Node.dotted (node : Node) : Bool := node.attributes.style.any fun style => "dotted".toList <:+: style

theorem Part.style_not_dotted (part : Part) :
    (part.attributes.style.any fun style => "dotted".toList <:+: style) = false := by
  have few : part.attributes.style ∈ [none, some "filled,".toList, some "rounded,".toList] := by
    cases part <;> simp [attributes, Attributes.special, Attributes.literal]
  have none : ∀ style ∈ [none, some "filled,".toList, some "rounded,".toList],
      (style.any fun style => "dotted".toList <:+: style) = false := by decide +kernel
  exact none _ few

namespace Figure

def mult : Figure → Multiplicity
  | of _ mult _ => mult

def hasBelow : Figure → Bool
  | of _ _ below => !below.isEmpty

mutual

/-- The figures below at all depths, and the figure itself behind them. -/
def subfigures : Figure → List Figure
  | of part mult below => subfiguresAll below ++ [of part mult below]

def subfiguresAll : List Figure → List Figure
  | [] => []
  | figure :: rest => figure.subfigures ++ subfiguresAll rest

end

/-- A node is counted if its figure is, whatever its number. -/
def CountsNodes (counted : Node → Bool) (wanted : Figure → Bool) : Prop :=
  ∀ part mult below id, counted (part.node mult id) = wanted (of part mult below)

/-- Of the edges that a figure adds to those of the figures below it, one is counted if the figure is. -/
def CountsEdges (counted : Edge → Bool) (wanted : Figure → Bool) : Prop :=
  ∀ start top part mult below, (mult.loops top ++ childEdges top (roots start below)).countP counted =
    if wanted (of part mult below) then 1 else 0

mutual

theorem countP_nodes {counted : Node → Bool} {wanted : Figure → Bool} (counts : CountsNodes counted wanted)
    (start : Nat) : (figure : Figure) → (figure.nodes start).countP counted = figure.subfigures.countP wanted
  | of part mult below => by
    rw [nodes, subfigures, List.countP_append, List.countP_append, countP_nodesAll counts start below,
      List.countP_singleton, List.countP_singleton, counts part mult below]

theorem countP_nodesAll {counted : Node → Bool} {wanted : Figure → Bool} (counts : CountsNodes counted wanted)
    (start : Nat) : (figures : List Figure) →
      (nodesAll start figures).countP counted = (subfiguresAll figures).countP wanted
  | [] => rfl
  | figure :: rest => by
    rw [nodesAll, subfiguresAll, List.countP_append, List.countP_append, countP_nodes counts start figure,
      countP_nodesAll counts _ rest]

end

mutual

theorem countP_edges {counted : Edge → Bool} {wanted : Figure → Bool} (counts : CountsEdges counted wanted)
    (start : Nat) : (figure : Figure) → (figure.edges start).countP counted = figure.subfigures.countP wanted
  | of part mult below => by
    rw [edges, List.append_assoc, List.countP_append, countP_edgesAll counts start below,
      counts start _ part mult below, subfigures, List.countP_append, List.countP_singleton]

theorem countP_edgesAll {counted : Edge → Bool} {wanted : Figure → Bool} (counts : CountsEdges counted wanted)
    (start : Nat) : (figures : List Figure) →
      (edgesAll start figures).countP counted = (subfiguresAll figures).countP wanted
  | [] => rfl
  | figure :: rest => by
    rw [edgesAll, subfiguresAll, List.countP_append, List.countP_append, countP_edges counts start figure,
      countP_edgesAll counts _ rest]

end

theorem length_nodes_eq_countP (start : Nat) (figure : Figure) :
    (figure.nodes start).length = figure.subfigures.countP fun _ => true := by
  have all : CountsNodes (fun _ => true) fun _ => true := fun _ _ _ _ => rfl
  rw [← countP_nodes all start figure, List.countP_true]

theorem countsNodes_dotted : CountsNodes Node.dotted (·.mult.min = 0) := by
  intro part mult below id
  simp only [Node.dotted, Part.node, Part.nodeAttributes, Figure.mult]
  by_cases optional : mult.min = 0
  · have word : "dotted,".toList = "dotted".toList ++ [','] := rfl
    have inside : "dotted".toList <:+: part.attributes.style.getD [] ++ "dotted,".toList := by
      rw [word, ← List.append_assoc]
      exact List.infix_append _ _ _
    simp only [optional, if_true, Option.any_some, inside, decide_true]
  · simp only [optional, if_false, part.style_not_dotted, decide_false]

theorem countsEdges_looped : CountsEdges (·.looped?.isSome) (·.mult.repeating) := by
  intro start top part mult below
  rw [← List.length_filterMap_eq_countP]
  show (Edge.looped _).length = if mult.repeating then 1 else 0
  rw [Edge.looped_append, Edge.looped_loops, Edge.looped_childEdges, List.append_nil]
  split <;> rfl

theorem countsEdges_childLists : CountsEdges (·.childList?.isSome) hasBelow := by
  intro start top part mult below
  rw [← List.length_filterMap_eq_countP]
  show (Edge.childLists _).length = _
  rw [Edge.childLists_append, Edge.childLists_loops, Edge.childLists_childEdges, List.nil_append]
  cases below <;> rfl

theorem length_looped_edges (start : Nat) (figure : Figure) :
    (Edge.looped (figure.edges start)).length = figure.subfigures.countP (·.mult.repeating) := by
  rw [Edge.looped, List.length_filterMap_eq_countP, countP_edges countsEdges_looped]

theorem length_childLists_edges (start : Nat) (figure : Figure) :
    (Edge.childLists (figure.edges start)).length = figure.subfigures.countP hasBelow := by
  rw [Edge.childLists, List.length_filterMap_eq_countP, countP_edges countsEdges_childLists]

end Figure

def Atom.elements : Atom → List Element
  | .leaf (.charset set) _ => set.elements.toList
  | _ => []

namespace Figure

/-- The figure above all the given ones is wanted; above a single one there is none. -/
def wantsJoin (wanted : Figure → Bool) (part : Part) (figures : List Figure) : Bool :=
  figures.length ≠ 1 && wanted (join part figures)

theorem countP_subfigures_join (wanted : Figure → Bool) (part : Part) (figures : List Figure) :
    (join part figures).subfigures.countP wanted =
      (subfiguresAll figures).countP wanted + if wantsJoin wanted part figures then 1 else 0 := by
  match figures with
  | [] => simp [join, subfigures, subfiguresAll, wantsJoin]
  | [figure] => simp [join, subfiguresAll, wantsJoin]
  | first :: second :: rest => simp [join, subfigures, wantsJoin]

end Figure

section

variable (wanted : Figure → Bool)

def Tree.wantsFigure (tree : Tree) : Bool := Figure.wantsJoin wanted .alternative (Tree.figures tree)

def Branch.wantsFigure (branch : Branch) : Bool := Figure.wantsJoin wanted .sequence (Branch.figures branch)

/-- How many of the figures that the atoms stand for are wanted, with those of elements, of the contents of
groups, and of the branches of contents, but none below any of these. -/
def wantedOf (atoms : List Atom) : Nat :=
  atoms.countP (wanted ·.figure) + (atoms.flatMap Atom.elements).countP (wanted ·.figure) +
    (atoms.filterMap Atom.content?).countP (Tree.wantsFigure wanted) +
    (atoms.filterMap Atom.content?).flatten.countP (Branch.wantsFigure wanted)

theorem wantedOf_append (atoms others : List Atom) :
    wantedOf wanted (atoms ++ others) = wantedOf wanted atoms + wantedOf wanted others := by
  simp only [wantedOf, List.countP_append, List.flatMap_append, List.filterMap_append, List.flatten_append]
  omega

theorem wantedOf_leaf (leaf : Leaf) (mult : Multiplicity) :
    wantedOf wanted [.leaf leaf mult] =
      [leaf.figure mult].countP wanted + (Atom.leaf leaf mult).elements.countP (wanted ·.figure) := by
  rw [wantedOf, List.flatMap_singleton]
  rfl

theorem wantedOf_group (content : Tree) (mult : Multiplicity) (atoms : List Atom) :
    wantedOf wanted (.group content mult :: atoms) =
      (if wanted (Atom.group content mult).figure then 1 else 0) +
        (if content.wantsFigure wanted then 1 else 0) + content.countP (Branch.wantsFigure wanted) +
        wantedOf wanted atoms := by
  simp only [wantedOf, List.countP_cons, List.flatMap_cons, Atom.elements, List.nil_append, Atom.content?,
    List.filterMap_cons, List.flatten_cons, List.countP_append]
  omega

theorem subfiguresAll_elements (elements : List Element) :
    Figure.subfiguresAll (elements.map Element.figure) = elements.map Element.figure := by
  induction elements with
  | nil => rfl
  | cons element elements ih =>
    rw [List.map_cons, Figure.subfiguresAll, ih]
    rfl

theorem Leaf.subfigures_figure (leaf : Leaf) (mult : Multiplicity) :
    (leaf.figure mult).subfigures = (Atom.leaf leaf mult).elements.map Element.figure ++ [leaf.figure mult] := by
  cases leaf with
  | charset set => rw [figure, Figure.subfigures, subfiguresAll_elements, Atom.elements]
  | _ => rfl

mutual

theorem Atom.countP_subfigures : (atom : Atom) →
    atom.figure.subfigures.countP wanted = wantedOf wanted atom.atoms
  | .leaf leaf mult => by
    rw [Atom.atoms, wantedOf_leaf, Atom.figure, leaf.subfigures_figure, List.countP_append, List.countP_map]
    exact Nat.add_comm _ _
  | .group content mult => by
    -- Between the group and the branches of its content stands at most the figure that joins them.
    rw [Atom.atoms, wantedOf_group, Atom.figure, Figure.subfigures, Figure.subfiguresAll, Figure.subfiguresAll,
      List.append_nil, List.countP_append, Figure.countP_subfigures_join, Tree.countP_subfiguresAll content,
      List.countP_singleton, Tree.wantsFigure]
    omega

theorem Branch.countP_subfiguresAll : (branch : List Atom) →
    (Figure.subfiguresAll (Branch.figures branch)).countP wanted = wantedOf wanted (Branch.atoms branch)
  | [] => rfl
  | atom :: rest => by
    rw [Branch.figures, Figure.subfiguresAll, List.countP_append, Atom.countP_subfigures atom,
      Branch.countP_subfiguresAll rest, Branch.atoms, wantedOf_append]

theorem Tree.countP_subfiguresAll : (tree : List (List Atom)) →
    (Figure.subfiguresAll (Tree.figures tree)).countP wanted =
      tree.countP (Branch.wantsFigure wanted) + wantedOf wanted (Tree.atoms tree)
  | [] => rfl
  | branch :: rest => by
    rw [Tree.figures, Figure.subfiguresAll, List.countP_append, Figure.countP_subfigures_join,
      Branch.countP_subfiguresAll branch, Tree.countP_subfiguresAll rest, Tree.atoms, wantedOf_append,
      List.countP_cons, Branch.wantsFigure]
    omega

end

/-- The figures at all depths stem from the atoms at all depths, the elements of charsets, and the trees and
branches that do not have exactly one member. -/
theorem Tree.countP_subfigures (tree : Tree) :
    (Tree.figure tree).subfigures.countP wanted =
      (atoms tree).countP (wanted ·.figure) + ((atoms tree).flatMap Atom.elements).countP (wanted ·.figure) +
        tree.trees.countP (wantsFigure wanted) + tree.branches.countP (Branch.wantsFigure wanted) := by
  rw [Tree.figure, Figure.countP_subfigures_join, Tree.countP_subfiguresAll, wantedOf, branches, trees,
    List.countP_cons, List.flatten_cons, List.countP_append, Tree.wantsFigure]
  omega

end

theorem Figure.wantsJoin_true (part : Part) (figures : List Figure) :
    wantsJoin (fun _ => true) part figures = decide (figures.length ≠ 1) := Bool.and_true _

theorem Figure.wantsJoin_hasBelow (part : Part) (figures : List Figure) :
    wantsJoin hasBelow part figures = decide (2 ≤ figures.length) := by
  match figures with
  | [] => rfl
  | [_] => rfl
  | _ :: _ :: _ => simp [wantsJoin, join, hasBelow]

theorem Figure.wantsJoin_mult {rare : Multiplicity → Bool} (never : rare .once = false) (part : Part)
    (figures : List Figure) : wantsJoin (rare ·.mult) part figures = false := by
  match figures with
  | [] => exact never
  | [_] => rfl
  | _ :: _ :: _ => simp [wantsJoin, join, mult, never]

namespace Atom

theorem mult_figure (atom : Atom) : atom.figure.mult = atom.mult := by
  cases atom with
  | leaf leaf mult => cases leaf <;> rfl
  | group content mult => rfl

theorem hasBelow_figure (atom : Atom) :
    atom.figure.hasBelow = decide (atom.content?.isSome ∨ atom.elements ≠ []) := by
  cases atom with
  | leaf leaf mult =>
    cases leaf with
    | charset set =>
      rw [Bool.eq_iff_iff, decide_eq_true_iff]
      simp [figure, Leaf.figure, Figure.hasBelow, content?, elements]
    | _ => rfl
  | group content mult => rfl

end Atom

namespace Tree

/-- Whether the figure above others is wanted may hang on their number alone. -/
theorem countP_subfigures_of_joins {wanted : Figure → Bool} (sized : Nat → Bool)
    (joins : ∀ part figures, Figure.wantsJoin wanted part figures = sized figures.length) (tree : Tree) :
    (figure tree).subfigures.countP wanted =
      (atoms tree).countP (wanted ·.figure) + ((atoms tree).flatMap Atom.elements).countP (wanted ·.figure) +
        tree.trees.countP (sized ·.length) + tree.branches.countP (sized ·.length) := by
  have trees : wantsFigure wanted = (sized ·.length) := by
    funext tree
    rw [wantsFigure, joins, figures_eq_map, List.length_map]
  have branches : Branch.wantsFigure wanted = (sized ·.length) := by
    funext branch
    rw [Branch.wantsFigure, joins, Branch.figures_eq_map, List.length_map]
  rw [countP_subfigures, trees, branches]

theorem countP_subfigures_hasBelow (tree : Tree) :
    (figure tree).subfigures.countP Figure.hasBelow =
      tree.trees.countP (2 ≤ ·.length) + tree.branches.countP (2 ≤ ·.length) +
        (atoms tree).countP (fun atom => atom.content?.isSome ∨ atom.elements ≠ []) := by
  have elements (elements : List Element) : elements.countP (·.figure.hasBelow) = 0 :=
    List.countP_eq_zero.mpr fun _ _ => Bool.false_ne_true
  rw [countP_subfigures_of_joins (2 ≤ ·) Figure.wantsJoin_hasBelow, elements]
  simp only [Atom.hasBelow_figure]
  omega

theorem countP_subfigures_mult (rare : Multiplicity → Bool) (never : rare .once = false) (tree : Tree) :
    (figure tree).subfigures.countP (rare ·.mult) = (atoms tree).countP (rare ·.mult) := by
  have elements (elements : List Element) : elements.countP (rare ·.figure.mult) = 0 :=
    List.countP_eq_zero.mpr fun _ _ => ne_true_of_eq_false never
  rw [countP_subfigures_of_joins (fun _ => false) (Figure.wantsJoin_mult never), elements, List.countP_false,
    List.countP_false]
  simp only [Atom.mult_figure, Function.const_apply, Nat.add_zero]

/-- The census of the graph of a tree: how many nodes, child edges, loops and dotted nodes it has, by the
atoms, elements, trees and branches at all depths of the tree. -/
theorem census_graph (label : Text) (tree : Tree) :
    (graph label tree).nodes.length =
        (atoms tree).length + ((atoms tree).flatMap Atom.elements).length +
          tree.trees.countP (·.length ≠ 1) + tree.branches.countP (·.length ≠ 1) ∧
      (graph label tree).childLists.length =
        tree.trees.countP (2 ≤ ·.length) + tree.branches.countP (2 ≤ ·.length) +
          (atoms tree).countP (fun atom => atom.content?.isSome ∨ atom.elements ≠ []) ∧
      (graph label tree).looped.length = (atoms tree).countP (·.mult.repeating) ∧
      (graph label tree).nodes.countP Node.dotted = (atoms tree).countP (·.mult.min = 0) := by
  refine ⟨?_, ?_, ?_, ?_⟩
  · show ((figure tree).nodes 0).length = _
    rw [Figure.length_nodes_eq_countP, countP_subfigures_of_joins (· ≠ 1) Figure.wantsJoin_true,
      List.countP_true, List.countP_true]
  · exact (Figure.length_childLists_edges 0 (figure tree)).trans (countP_subfigures_hasBelow tree)
  · exact (Figure.length_looped_edges 0 (figure tree)).trans (countP_subfigures_mult (·.repeating) rfl tree)
  · exact (Figure.countP_nodes Figure.countsNodes_dotted 0 (figure tree)).trans
      (countP_subfigures_mult (·.min = 0) rfl tree)

end Tree

-- The pattern `.*(a|b)?` in a branch of two atoms.
example :
    let graph := Tree.graph [] [[.leaf .anyChar (.atLeast 0), .group [[.text ['a']], [.text ['b']]] .optional]]
    graph.nodes.length = 6 ∧ graph.childLists.length = 3 ∧ graph.looped.length = 1 ∧
      graph.nodes.countP Node.dotted = 2 := by decide

end RegexPattern
