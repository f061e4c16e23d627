import RegexPattern.Graph

/-!
The numbering of a graph. The nodes of figures that are numbered one after another are a block of
consecutive numbers, in which every node that is not on top of a figure stands below exactly one
other; one more node on top of them all takes the next number. A graph is therefore an ordered tree
whose nodes stand in postorder.
-/

namespace RegexPattern

namespace Edge

def upper : Edge → Nat
  | children parent _ => parent
  | loop node _ _ => node

def lower : Edge → List Nat
  | children _ below => below
  | loop node _ _ => [node]

/-- The upper node and the nodes right below it, of an edge that links different nodes. -/
def childList? : Edge → Option (Nat × List Nat)
  | children parent below => some (parent, below)
  | loop .. => none

def looped? : Edge → Option Nat
  | children .. => none
  | loop node .. => some node

def childLists (edges : List Edge) : List (Nat × List Nat) := edges.filterMap childList?

def looped (edges : List Edge) : List Nat := edges.filterMap looped?

section

variable {edges edges' : List Edge}

@[simp] theorem childLists_append : childLists (edges ++ edges') = childLists edges ++ childLists edges' :=
  List.filterMap_append

@[simp] theorem looped_append : looped (edges ++ edges') = looped edges ++ looped edges' :=
  List.filterMap_append

end

@[simp] theorem childLists_loops (mult : Multiplicity) (id : Nat) : childLists (mult.loops id) = [] := by
  unfold Multiplicity.loops
  split <;> rfl

@[simp] theorem looped_loops (mult : Multiplicity) (id : Nat) :
    looped (mult.loops id) = if mult.repeating then [id] else [] := by
  unfold Multiplicity.loops
  split <;> rfl

@[simp] theorem childLists_childEdges (parent : Nat) (below : List Nat) :
    childLists (childEdges parent below) = if below = [] then [] else [(parent, below)] := by
  cases below <;> rfl

@[simp] theorem looped_childEdges (parent : Nat) (below : List Nat) :
    looped (childEdges parent below) = [] := by
  cases below <;> rfl

end Edge

open Edge

/-- The edges of figures that are numbered one after another from `start` on: each of the `size` nodes is
on top of a figure or stands below one other node. -/
structure Forest (start size : Nat) (tops : List Nat) (edges : List Edge) : Prop where
  tops_sublist : tops.Sublist (List.range' start size)
  parents_sublist : ((childLists edges).map Prod.fst).Sublist (List.range' start size)
  looped_sublist : (looped edges).Sublist (List.range' start size)
  lists : ∀ entry ∈ childLists edges,
    entry.2 ≠ [] ∧ entry.2.Pairwise (· < ·) ∧ ∀ child ∈ entry.2, child < entry.1
  covered : ((childLists edges).flatMap Prod.snd ++ tops).Perm (List.range' start size)

namespace Forest

variable {start size more : Nat} {tops tops' : List Nat} {edges edges' : List Edge}

theorem nil (start : Nat) : Forest start 0 [] [] where
  tops_sublist := .slnil
  parents_sublist := .slnil
  looped_sublist := .slnil
  lists := nofun
  covered := .nil

theorem append (first : Forest start size tops edges) (second : Forest (start + size) more tops' edges') :
    Forest start (size + more) (tops ++ tops') (edges ++ edges') where
  tops_sublist := by
    rw [← List.range'_append_1]
    exact first.tops_sublist.append second.tops_sublist
  parents_sublist := by
    rw [← List.range'_append_1, childLists_append, List.map_append]
    exact first.parents_sublist.append second.parents_sublist
  looped_sublist := by
    rw [← List.range'_append_1, looped_append]
    exact first.looped_sublist.append second.looped_sublist
  lists entry member := by
    rw [childLists_append] at member
    rcases List.mem_append.mp member with member | member
    · exact first.lists entry member
    · exact second.lists entry member
  covered := by
    have both := first.covered.append second.covered
    rw [List.range'_append_1] at both
    refine List.Perm.trans (List.perm_iff_count.mpr fun node => ?_) both
    simp only [childLists_append, List.flatMap_append, List.count_append]
    omega

theorem top (below : Forest start size tops edges) (mult : Multiplicity) :
    Forest start (size + 1) [start + size]
      (edges ++ mult.loops (start + size) ++ childEdges (start + size) tops) where
  tops_sublist := by
    rw [List.range'_1_concat]
    exact List.sublist_append_right _ _
  parents_sublist := by
    rw [List.range'_1_concat, childLists_append, childLists_append, childLists_loops, List.append_nil,
      List.map_append]
    refine below.parents_sublist.append ?_
    rw [childLists_childEdges]
    split <;> simp
  looped_sublist := by
    rw [List.range'_1_concat, looped_append, looped_append, looped_loops, looped_childEdges,
      List.append_nil]
    refine below.looped_sublist.append ?_
    split <;> simp
  lists entry member := by
    simp only [childLists_append, childLists_loops, childLists_childEdges, List.append_nil] at member
    rcases List.mem_append.mp member with member | member
    · exact below.lists entry member
    · split at member
      · cases member
      · next filled =>
        cases List.mem_singleton.mp member
        refine ⟨filled, List.Pairwise.sublist below.tops_sublist List.pairwise_lt_range', ?_⟩
        intro child inside
        exact (List.mem_range'_1.mp (below.tops_sublist.subset inside)).2
  covered := by
    have lists : (childLists (childEdges (start + size) tops)).flatMap Prod.snd = tops := by
      cases tops <;> simp
    simp only [List.range'_1_concat, childLists_append, childLists_loops, List.append_nil,
      List.flatMap_append, lists]
    exact below.covered.append_right _

theorem upper_mem (forest : Forest start size tops edges) {edge : Edge} (member : edge ∈ edges) :
    edge.upper ∈ List.range' start size := by
  cases edge with
  | children parent below =>
    have entry : (parent, below) ∈ childLists edges := List.mem_filterMap.mpr ⟨_, member, rfl⟩
    exact forest.parents_sublist.subset (List.mem_map_of_mem entry)
  | loop node label greedy =>
    have entry : node ∈ looped edges := List.mem_filterMap.mpr ⟨_, member, rfl⟩
    exact forest.looped_sublist.subset entry

end Forest

namespace Figure

mutual

theorem forest (start : Nat) : (figure : Figure) →
    Forest start figure.size [figure.root start] (figure.edges start)
  | of _ mult below => (forestAll start below).top mult

theorem forestAll (start : Nat) : (figures : List Figure) →
    Forest start (sizeAll figures) (roots start figures) (edgesAll start figures)
  | [] => .nil start
  | figure :: rest => (forest start figure).append (forestAll (start + figure.size) rest)

end

mutual

theorem ids_nodes (start : Nat) : (figure : Figure) →
    (figure.nodes start).map Node.id = List.range' start figure.size
  | of part mult below => by
    rw [nodes, List.map_append, ids_nodesAll start below, size, List.range'_1_concat]
    rfl

theorem ids_nodesAll (start : Nat) : (figures : List Figure) →
    (nodesAll start figures).map Node.id = List.range' start (sizeAll figures)
  | [] => rfl
  | figure :: rest => by
    rw [nodesAll, List.map_append, ids_nodes start figure, ids_nodesAll _ rest, sizeAll,
      List.range'_append_1]

end

end Figure

namespace Graph

def childLists (graph : Graph) : List (Nat × List Nat) := Edge.childLists graph.edges

def looped (graph : Graph) : List Nat := Edge.looped graph.edges

/-- The graph is an ordered tree in postorder, with loops on some of its nodes. -/
structure Postorder (graph : Graph) : Prop where
  /-- Each node has its place as its number. -/
  ids : graph.nodes.map Node.id = List.range graph.nodes.length
  /-- The root is the last node. -/
  last : graph.nodes.getLast?.map Node.id = some graph.root
  parents_nodup : (graph.childLists.map Prod.fst).Nodup
  parents_lt : ∀ entry ∈ graph.childLists, entry.1 < graph.nodes.length
  /-- The nodes below a node are in order and come before it. -/
  lists : ∀ entry ∈ graph.childLists,
    entry.2 ≠ [] ∧ entry.2.Pairwise (· < ·) ∧ ∀ child ∈ entry.2, child < entry.1
  /-- The nodes in front of the root stand in the child lists, each once, and no others do. -/
  covered : (graph.childLists.flatMap Prod.snd).Perm (List.range graph.root)
  looped_nodup : graph.looped.Nodup
  looped_lt : ∀ node ∈ graph.looped, node < graph.nodes.length

end Graph

namespace Figure

theorem root_add_one (start : Nat) (figure : Figure) : figure.root start + 1 = start + figure.size := by
  cases figure
  rw [root, size, Nat.add_assoc]

theorem id_getLast_nodes (start : Nat) (figure : Figure) :
    (figure.nodes start).getLast?.map Node.id = some (figure.root start) := by
  cases figure
  simp [nodes, root, Part.node]

theorem lt_length_nodes {figure : Figure} {node : Nat} (member : node ∈ List.range' 0 figure.size) :
    node < (figure.nodes 0).length := by
  simpa [length_nodes] using member

theorem postorder_graph (label : Text) (figure : Figure) : (figure.graph label).Postorder where
  ids := by
    show (figure.nodes 0).map Node.id = List.range (figure.nodes 0).length
    rw [ids_nodes, length_nodes, List.range_eq_range']
  last := figure.id_getLast_nodes 0
  parents_nodup := (figure.forest 0).parents_sublist.nodup List.nodup_range'
  parents_lt _ member := lt_length_nodes ((figure.forest 0).parents_sublist.subset (List.mem_map_of_mem member))
  lists := (figure.forest 0).lists
  covered := by
    have all := (figure.forest 0).covered
    have size : figure.size = figure.root 0 + 1 := by
      have next := figure.root_add_one 0
      omega
    -- The top part is the one node that stands below no other.
    rw [size, List.range'_1_concat, Nat.zero_add] at all
    rw [List.range_eq_range']
    exact (List.perm_append_right_iff _).mp all
  looped_nodup := (figure.forest 0).looped_sublist.nodup List.nodup_range'
  looped_lt _ member := lt_length_nodes ((figure.forest 0).looped_sublist.subset member)

end Figure

theorem Tree.postorder_graph (label : Text) (tree : Tree) : (Tree.graph label tree).Postorder :=
  (Tree.figure tree).postorder_graph label

end RegexPattern
