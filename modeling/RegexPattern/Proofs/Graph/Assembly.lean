import RegexPattern.Graph

/-!
Graphs put together. Nodes and edges of a figure keep everything but their numbers wherever its numbering
starts. The graph of several branches, of several atoms or of a group therefore consists of the graphs of
these, numbered one after another, and of one more node above them.
-/

namespace RegexPattern

def Node.shift (offset : Nat) (node : Node) : Node := { node with id := node.id + offset }

def Edge.shift (offset : Nat) : Edge → Edge
  | children parent below => children (parent + offset) (below.map (· + offset))
  | loop node label greedy => loop (node + offset) label greedy

namespace Graph

def shift (offset : Nat) (graph : Graph) : Graph :=
  { graph with
    root := graph.root + offset
    nodes := graph.nodes.map (Node.shift offset)
    edges := graph.edges.map (Edge.shift offset) }

/-- Graphs numbered one after another from `start` on: each one is shifted by the number of nodes in front
of it. -/
def consecutive (start : Nat) : List Graph → List Graph
  | [] => []
  | graph :: rest => graph.shift start :: consecutive (start + graph.nodes.length) rest

/-- The graphs, numbered one after another, and one more node with an edge to their roots. -/
def under (label : Text) (part : Part) (graphs : List Graph) : Graph :=
  let placed := consecutive 0 graphs
  let top := (placed.flatMap nodes).length
  { label
    root := top
    nodes := placed.flatMap nodes ++ [part.node .once top]
    edges := placed.flatMap edges ++ [.children top (placed.map root)] }

end Graph

theorem Part.node_add (part : Part) (mult : Multiplicity) (id offset : Nat) :
    part.node mult (id + offset) = (part.node mult id).shift offset := rfl

theorem Multiplicity.loops_add (mult : Multiplicity) (id offset : Nat) :
    mult.loops (id + offset) = (mult.loops id).map (Edge.shift offset) := by
  unfold loops
  split <;> rfl

theorem childEdges_add (parent offset : Nat) (below : List Nat) :
    childEdges (parent + offset) (below.map (· + offset)) = (childEdges parent below).map (Edge.shift offset) := by
  cases below <;> rfl

namespace Figure

theorem root_add (start offset : Nat) (figure : Figure) :
    figure.root (start + offset) = figure.root start + offset := by
  cases figure
  exact Nat.add_right_comm _ _ _

theorem roots_add (start offset : Nat) (figures : List Figure) :
    roots (start + offset) figures = (roots start figures).map (· + offset) := by
  induction figures generalizing start with
  | nil => rfl
  | cons figure rest ih => rw [roots, roots, List.map_cons, root_add, Nat.add_right_comm, ih]

mutual

theorem nodes_add (start offset : Nat) : (figure : Figure) →
    figure.nodes (start + offset) = (figure.nodes start).map (Node.shift offset)
  | of part mult below => by
    rw [nodes, nodes, List.map_append, nodesAll_add start offset below, Nat.add_right_comm, Part.node_add]
    rfl

theorem nodesAll_add (start offset : Nat) : (figures : List Figure) →
    nodesAll (start + offset) figures = (nodesAll start figures).map (Node.shift offset)
  | [] => rfl
  | figure :: rest => by
    rw [nodesAll, nodesAll, List.map_append, nodes_add start offset figure, Nat.add_right_comm,
      nodesAll_add _ offset rest]

end

mutual

theorem edges_add (start offset : Nat) : (figure : Figure) →
    figure.edges (start + offset) = (figure.edges start).map (Edge.shift offset)
  | of part mult below => by
    rw [edges, edges, List.map_append, List.map_append, edgesAll_add start offset below, Nat.add_right_comm,
      Multiplicity.loops_add, roots_add, childEdges_add]

theorem edgesAll_add (start offset : Nat) : (figures : List Figure) →
    edgesAll (start + offset) figures = (edgesAll start figures).map (Edge.shift offset)
  | [] => rfl
  | figure :: rest => by
    rw [edgesAll, edgesAll, List.map_append, edges_add start offset figure, Nat.add_right_comm,
      edgesAll_add _ offset rest]

end

theorem graph_shift (label : Text) (start : Nat) (figure : Figure) :
    (figure.graph label).shift start =
      { label, root := figure.root start, nodes := figure.nodes start, edges := figure.edges start } := by
  have root := root_add 0 start figure
  have nodes := nodes_add 0 start figure
  have edges := edges_add 0 start figure
  rw [Nat.zero_add] at root nodes edges
  rw [Graph.shift, graph, root, nodes, edges]

section

variable (label : Text) (start : Nat) (figures : List Figure)

theorem consecutive_graphs (figure : Figure) :
    Graph.consecutive start ((figure :: figures).map (graph label)) =
      { label, root := figure.root start, nodes := figure.nodes start, edges := figure.edges start } ::
        Graph.consecutive (start + figure.size) (figures.map (graph label)) := by
  rw [List.map_cons, Graph.consecutive, graph_shift]
  congr 3
  exact length_nodes 0 figure

theorem nodesAll_eq : nodesAll start figures =
    (Graph.consecutive start (figures.map (graph label))).flatMap Graph.nodes := by
  induction figures generalizing start with
  | nil => rfl
  | cons figure rest ih => rw [nodesAll, ih, consecutive_graphs, List.flatMap_cons]

theorem edgesAll_eq : edgesAll start figures =
    (Graph.consecutive start (figures.map (graph label))).flatMap Graph.edges := by
  induction figures generalizing start with
  | nil => rfl
  | cons figure rest ih => rw [edgesAll, ih, consecutive_graphs, List.flatMap_cons]

theorem roots_eq : roots start figures =
    (Graph.consecutive start (figures.map (graph label))).map Graph.root := by
  induction figures generalizing start with
  | nil => rfl
  | cons figure rest ih => rw [roots, ih, consecutive_graphs, List.map_cons]

end

theorem graph_join (label other : Text) (part : Part) (figures : List Figure) (several : 2 ≤ figures.length) :
    (join part figures).graph label = Graph.under label part (figures.map (graph other)) := by
  match figures, several with
  | first :: second :: rest, _ =>
    -- The top node comes behind all nodes of the figures below, so their number is its own.
    have top : 0 + sizeAll (first :: second :: rest) =
        ((Graph.consecutive 0 ((first :: second :: rest).map (graph other))).flatMap Graph.nodes).length := by
      rw [← nodesAll_eq, length_nodesAll, Nat.zero_add]
    have loops (id : Nat) : Multiplicity.once.loops id = [] := rfl
    have below (id : Nat) : childEdges id (roots 0 (first :: second :: rest)) =
        [.children id (roots 0 (first :: second :: rest))] := rfl
    show (of part .once (first :: second :: rest)).graph label = _
    rw [graph, root, nodes, edges, loops, below, List.append_nil, nodesAll_eq other, edgesAll_eq other,
      roots_eq other, top]
    rfl

theorem graph_of_singleton (label other : Text) (part : Part) (mult : Multiplicity) (figure : Figure) :
    let inside := figure.graph other
    let top := inside.nodes.length
    (of part mult [figure]).graph label =
      { label
        root := top
        nodes := inside.nodes ++ [part.node mult top]
        edges := inside.edges ++ mult.loops top ++ [.children top [inside.root]] } := by
  intro inside top
  have size : 0 + sizeAll [figure] = top := (Nat.zero_add _).trans (length_nodes 0 figure).symm
  rw [graph, root, nodes, edges, size, nodesAll, nodesAll, List.append_nil, edgesAll, edgesAll, List.append_nil]
  rfl

end Figure

theorem Branch.figures_eq_map (branch : Branch) : figures branch = branch.map fun atom => Tree.figure [[atom]] := by
  induction branch with
  | nil => rfl
  | cons atom rest ih =>
    rw [figures, ih]
    rfl

namespace Tree

theorem figures_eq_map (tree : Tree) : figures tree = tree.map fun branch => figure [branch] := by
  induction tree with
  | nil => rfl
  | cons branch rest ih =>
    rw [figures, ih]
    rfl

/-- The parts of a tree are drawn alike wherever they stand: the graph of several branches, or of several
atoms, consists of the graphs of each alone under one more node, and the graph of a group is that of its
content with one more node, its loop and its edge. -/
theorem graph_assembled (label other : Text) :
    (∀ tree : Tree, 2 ≤ tree.length →
      graph label tree = Graph.under label .alternative (tree.map fun branch => graph other [branch])) ∧
    (∀ branch : Branch, 2 ≤ branch.length →
      graph label [branch] = Graph.under label .sequence (branch.map fun atom => graph other [[atom]])) ∧
    ∀ (content : Tree) (mult : Multiplicity),
      let inside := graph other content
      let top := inside.nodes.length
      graph label [[.group content mult]] =
        { label
          root := top
          nodes := inside.nodes ++ [Part.group.node mult top]
          edges := inside.edges ++ (if mult.repeating then [.loop top mult.text mult.greedy] else []) ++
            [.children top [inside.root]] } := by
  refine ⟨fun tree several => ?_, fun branch several => ?_, fun content mult => ?_⟩
  · have figures : 2 ≤ (figures tree).length := by rwa [figures_eq_map, List.length_map]
    rw [graph, figure, Figure.graph_join label other _ _ figures, figures_eq_map, List.map_map]
    rfl
  · have figures : 2 ≤ (Branch.figures branch).length := by rwa [Branch.figures_eq_map, List.length_map]
    show (Figure.join .sequence (Branch.figures branch)).graph label = _
    rw [Figure.graph_join label other _ _ figures, Branch.figures_eq_map, List.map_map]
    rfl
  · exact Figure.graph_of_singleton label other .group mult (figure content)

theorem graph_assembled_choice :
    let branch : Branch := [.text ['a'], .leaf .anyChar .optional]
    let content : Tree := [branch, []]
    (2 ≤ content.length ∧
        graph [] content = Graph.under [] .alternative [graph [] [branch], graph [] [[]]]) ∧
      (2 ≤ branch.length ∧
        graph [] [branch] =
          Graph.under [] .sequence [graph [] [[.text ['a']]], graph [] [[.leaf .anyChar .optional]]]) ∧
      (graph [] [[.group content (Multiplicity.atLeast 1).nonGreedy]]).edges =
        (graph [] content).edges ++ [.loop 5 ['+', '?'] false] ++ [.children 5 [4]] := by
  refine ⟨⟨by decide, ?_⟩, ⟨by decide, ?_⟩, ?_⟩
  · exact (graph_assembled [] []).1 _ (by decide)
  · exact (graph_assembled [] []).2.1 _ (by decide)
  · rw [(graph_assembled [] []).2.2]
    rfl

end Tree

end RegexPattern
