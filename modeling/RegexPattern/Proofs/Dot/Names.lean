import Mathlib.Data.List.Nodup
import Mathlib.Data.List.TakeWhile
import RegexPattern.Proofs.Dot.Cluster

/-!
The nodes that a DOT text names. Each statement of a cluster is a line; whether it declares a node or
links nodes is seen from its first name and from what stands behind it, whatever text the labels hold.
-/

namespace RegexPattern

open Text

namespace Dot

def isNameChar (c : Char) : Bool := c.isAlphanum || c == '_'

def names (text : Text) : List Text := (text.splitOnP (!isNameChar ·)).filter (· ≠ [])

/-- The words that stand in front of attributes for all graphs, nodes or edges. -/
def keywords : List Text := ["graph".toList, "node".toList, "edge".toList]

/-- The node that a line declares: its name stands in front of its attributes. -/
def declared? (line : Text) : Option Text :=
  let name := line.takeWhile isNameChar
  if name ∉ keywords ∧ ['['] <+: line.dropWhile isNameChar then some name else none

/-- The nodes that a line links: the names in front of its attributes, the first of them in front of an
arrow. -/
def linked (line : Text) : List Text :=
  if " -> ".toList <+: line.dropWhile isNameChar then names (line.takeWhile (· ≠ '[')) else []

def declaredNames (text : Text) : List Text := (lines text).filterMap declared?

def linkedNames (text : Text) : List Text := (lines text).flatMap linked

theorem names_cons {c : Char} (apart : isNameChar c = false) (rest : Text) : names (c :: rest) = names rest := by
  simp [names, List.splitOnP_cons_eq_if_modifyHead, apart]

theorem names_append_cons {name : Text} {c : Char} (filled : name ≠ [])
    (inside : ∀ d ∈ name, isNameChar d = true) (apart : isNameChar c = false) (rest : Text) :
    names (name ++ c :: rest) = name :: names rest := by
  have split := List.splitOnP_append_cons_of_forall_mem (p := (!isNameChar ·)) (by simpa using inside) c
    (by simp [apart]) rest
  simp [names, split, filled]

theorem isNameChar_of_isDigit {c : Char} (digit : c.isDigit = true) : isNameChar c = true := by
  simp [isNameChar, Char.isAlphanum, digit]

section

variable (cluster id : Nat)

theorem isNameChar_of_mem_nodeName {c : Char} (member : c ∈ nodeName cluster id) : isNameChar c = true := by
  simp only [nodeName_eq, List.mem_append, List.mem_cons] at member
  rcases member with word | digit | rfl | digit
  · have letters : "node".toList.all isNameChar = true := by decide
    exact List.all_eq_true.mp letters c word
  · exact isNameChar_of_isDigit (isDigit_of_mem_decimal digit)
  · decide
  · exact isNameChar_of_isDigit (isDigit_of_mem_decimal digit)

theorem nodeName_not_keyword : nodeName cluster id ∉ keywords := by
  have plain : ∀ word ∈ keywords, '_' ∉ word := by decide
  intro keyword
  exact plain _ keyword (by simp [nodeName_eq])

variable {c : Char} (apart : isNameChar c = false) (rest : Text)

include apart

theorem takeWhile_nodeName : (nodeName cluster id ++ c :: rest).takeWhile isNameChar = nodeName cluster id := by
  rw [List.takeWhile_append_of_pos fun _ member => isNameChar_of_mem_nodeName cluster id member]
  simp [apart]

theorem dropWhile_nodeName : (nodeName cluster id ++ c :: rest).dropWhile isNameChar = c :: rest := by
  rw [List.dropWhile_append_of_pos fun _ member => isNameChar_of_mem_nodeName cluster id member]
  simp [apart]

theorem names_nodeName : names (nodeName cluster id ++ c :: rest) = nodeName cluster id :: names rest := by
  have filled : nodeName cluster id ≠ [] := by simp [nodeName_eq]
  exact names_append_cons filled (fun _ member => isNameChar_of_mem_nodeName cluster id member) apart rest

end

theorem ne_bracket_of_mem_nodeName {cluster id : Nat} {c : Char} (member : c ∈ nodeName cluster id) :
    c ≠ '[' := by
  rintro rfl
  exact absurd (isNameChar_of_mem_nodeName cluster id member) (by decide)

end Dot

open Dot

section

variable (cluster : Nat)

theorem Node.declared?_line (node : Node) :
    declared? (node.line cluster) = some (nodeName cluster node.id) := by
  have outside : isNameChar '[' = false := by decide
  rw [declared?, line, takeWhile_nodeName _ _ outside, dropWhile_nodeName _ _ outside, if_pos]
  exact ⟨nodeName_not_keyword cluster node.id, _, rfl⟩

theorem Node.linked_line (node : Node) : linked (node.line cluster) = [] := by
  have outside : isNameChar '[' = false := by decide
  rw [linked, line, dropWhile_nodeName _ _ outside, if_neg]
  simp

theorem Edge.declared?_line (edge : Edge) : declared? (edge.line cluster) = none := by
  have outside : isNameChar ' ' = false := by decide
  rw [declared?, line, takeWhile_nodeName _ _ outside, dropWhile_nodeName _ _ outside, if_neg]
  simp

theorem names_flatMap_nodeName (below : List Nat) (rest : Text) :
    names (below.flatMap (fun child => nodeName cluster child ++ [';', ' ']) ++ rest) =
      below.map (nodeName cluster) ++ names rest := by
  induction below with
  | nil => rfl
  | cons child below ih =>
    have semicolon : isNameChar ';' = false := by decide
    have blank : isNameChar ' ' = false := by decide
    calc
      _ = names (nodeName cluster child ++ ';' :: ' ' ::
            (below.flatMap (fun child => nodeName cluster child ++ [';', ' ']) ++ rest)) := by
        rw [List.flatMap_cons, List.append_assoc, List.append_assoc]
        rfl
      _ = nodeName cluster child :: (below.map (nodeName cluster) ++ names rest) := by
        rw [names_nodeName _ _ semicolon, names_cons blank, ih]

theorem Edge.names_target (edge : Edge) :
    names ((edge.target cluster).takeWhile (· ≠ '[')) = edge.lower.map (nodeName cluster) := by
  cases edge with
  | children parent below =>
    have all : (target cluster (.children parent below)).takeWhile (· ≠ '[') =
        target cluster (.children parent below) := by
      rw [List.takeWhile_eq_self_iff]
      intro c member
      simp only [target, List.mem_cons, List.mem_append, List.mem_flatMap, List.not_mem_nil, or_false] at member
      rcases member with rfl | ⟨child, -, name | rfl | rfl⟩ | rfl
      · decide
      · simpa using ne_bracket_of_mem_nodeName name
      · decide
      · decide
      · decide
    have opening : isNameChar '{' = false := by decide
    rw [all, target, names_cons opening, names_flatMap_nodeName]
    simp [lower, names, isNameChar, List.splitOnP_cons_eq_if_modifyHead]
  | loop node label greedy =>
    have blank : isNameChar ' ' = false := by decide
    rw [target, List.takeWhile_append_of_pos fun c member => by simpa using ne_bracket_of_mem_nodeName member]
    exact names_nodeName cluster node blank []

theorem Edge.linked_line (edge : Edge) :
    linked (edge.line cluster) = (edge.upper :: edge.lower).map (nodeName cluster) := by
  have blank : isNameChar ' ' = false := by decide
  have arrow : (' ' :: ("-> ".toList ++ edge.target cluster)).takeWhile (· ≠ '[') =
      ' ' :: '-' :: '>' :: ' ' :: (edge.target cluster).takeWhile (· ≠ '[') := rfl
  rw [linked, line, dropWhile_nodeName _ _ blank, if_pos ⟨_, rfl⟩,
    List.takeWhile_append_of_pos fun c member => by simpa using ne_bracket_of_mem_nodeName member, arrow,
    names_nodeName _ _ blank, names_cons (by decide), names_cons (by decide), names_cons blank,
    edge.names_target, List.map_cons]

namespace Graph

variable (graph : Graph)

theorem declaredNames_dot :
    declaredNames (graph.dot cluster) = graph.nodes.map fun node => nodeName cluster node.id := by
  have heads : (headLines cluster graph.label).filterMap declared? = [] := by
    rfl
  have nodes : (graph.nodes.map (Node.line cluster)).filterMap declared? =
      graph.nodes.map fun node => nodeName cluster node.id := by
    rw [List.filterMap_map, ← List.filterMap_eq_map]
    exact congrArg (List.filterMap · graph.nodes) (funext (Node.declared?_line cluster))
  have edges : (graph.edges.map (Edge.line cluster)).filterMap declared? = [] := by
    simp [Edge.declared?_line]
  have close : [['}']].filterMap declared? = [] := by decide
  simp only [declaredNames, lines_dot, clusterLines, List.filterMap_append, heads, nodes, edges, close,
    List.nil_append, List.append_nil]

theorem linkedNames_dot :
    linkedNames (graph.dot cluster) =
      graph.edges.flatMap fun edge => (edge.upper :: edge.lower).map (nodeName cluster) := by
  have heads : (headLines cluster graph.label).flatMap linked = [] := by
    rfl
  have nodes : (graph.nodes.map (Node.line cluster)).flatMap linked = [] := by
    simp [Node.linked_line]
  have close : [['}']].flatMap linked = [] := by decide
  simp only [linkedNames, lines_dot, clusterLines, List.flatMap_append, heads, nodes, close,
    List.nil_append, List.append_nil, List.flatMap_map, Edge.linked_line]

end Graph

end

namespace Graph.Postorder

variable {graph : Graph} (ordered : graph.Postorder) (cluster : Nat)

include ordered

theorem nodup_nodeNames : (graph.nodes.map fun node => nodeName cluster node.id).Nodup := by
  have names : (graph.nodes.map fun node => nodeName cluster node.id) =
      (List.range graph.nodes.length).map (nodeName cluster) := by
    rw [← ordered.ids, List.map_map]
    rfl
  rw [names]
  exact List.nodup_range.map fun _ _ same => (nodeName_inj.mp same).2

theorem ends_lt {edge : Edge} (member : edge ∈ graph.edges) :
    ∀ node ∈ edge.upper :: edge.lower, node < graph.nodes.length := by
  cases edge with
  | children parent below =>
    have entry : (parent, below) ∈ graph.childLists := List.mem_filterMap.mpr ⟨_, member, rfl⟩
    have above := ordered.parents_lt _ entry
    rintro node (_ | ⟨_, inside⟩)
    · exact above
    · exact Nat.lt_trans ((ordered.lists _ entry).2.2 node inside) above
  | loop top label greedy =>
    have entry : top ∈ graph.looped := List.mem_filterMap.mpr ⟨_, member, rfl⟩
    simpa [Edge.upper, Edge.lower] using ordered.looped_lt _ entry

theorem linkedNames_subset : linkedNames (graph.dot cluster) ⊆ declaredNames (graph.dot cluster) := by
  intro name linked
  simp only [linkedNames_dot, List.mem_flatMap, List.mem_map] at linked
  obtain ⟨edge, member, node, ends, rfl⟩ := linked
  have numbered : node ∈ graph.nodes.map Node.id := by
    rw [ordered.ids, List.mem_range]
    exact ordered.ends_lt member node ends
  obtain ⟨declared, inside, rfl⟩ := List.mem_map.mp numbered
  rw [declaredNames_dot]
  exact List.mem_map_of_mem inside

end Graph.Postorder

namespace Digraph

theorem map_declaredNames (digraph : Digraph) :
    digraph.clusterTexts.map declaredNames =
      (digraph.graphs.zipIdx 1).map fun entry => entry.1.nodes.map fun node => nodeName entry.2 node.id := by
  simp only [clusterTexts, List.map_map, Function.comp_def, Graph.declaredNames_dot]

theorem map_linkedNames (digraph : Digraph) :
    digraph.clusterTexts.map linkedNames =
      (digraph.graphs.zipIdx 1).map fun entry =>
        entry.1.edges.flatMap fun edge => (edge.upper :: edge.lower).map (nodeName entry.2) := by
  simp only [clusterTexts, List.map_map, Function.comp_def, Graph.linkedNames_dot]

theorem nodup_declaredNames {digraph : Digraph} (ordered : ∀ graph ∈ digraph.graphs, graph.Postorder) :
    (digraph.clusterTexts.flatMap declaredNames).Nodup := by
  have clusters : (digraph.graphs.zipIdx 1).Pairwise fun first second => first.2 < second.2 := by
    rw [← List.pairwise_map, List.zipIdx_map_snd]
    exact List.pairwise_lt_range'
  rw [List.flatMap_def, map_declaredNames, ← List.flatMap_def, List.nodup_flatMap]
  constructor
  · intro entry member
    exact (ordered entry.1 (List.fst_mem_of_mem_zipIdx member)).nodup_nodeNames entry.2
  · refine clusters.imp fun {first second} below => ?_
    intro name inFirst inSecond
    obtain ⟨node, -, rfl⟩ := List.mem_map.mp inFirst
    obtain ⟨node', -, same⟩ := List.mem_map.mp inSecond
    exact absurd (nodeName_inj.mp same).1 (Nat.ne_of_gt below)

theorem linkedNames_subset {digraph : Digraph} (ordered : ∀ graph ∈ digraph.graphs, graph.Postorder) :
    ∀ text ∈ digraph.clusterTexts, linkedNames text ⊆ declaredNames text := by
  intro text member
  obtain ⟨entry, inside, rfl⟩ := List.mem_map.mp member
  exact (ordered entry.1 (List.fst_mem_of_mem_zipIdx inside)).linkedNames_subset entry.2

end Digraph

/-- The graph of every tree is an ordered tree in postorder. In a digraph of such graphs no two nodes are
declared under one name, and the edges of a cluster link nodes that the cluster declares. -/
theorem Digraph.postorder_names :
    (∀ label tree, (Tree.graph label tree).Postorder) ∧
      ∀ (name : Text) (sources : List (Text × Tree)),
        let graphs := sources.map fun source => Tree.graph source.1 source.2
        let digraph := ofGraphs name graphs
        digraph.dot = "digraph ".toList ++ name ++ " \x7b\n".toList ++ digraph.clusterTexts.flatten ++
            "\x7d\n".toList ∧
          (digraph.clusterTexts.map declaredNames = (graphs.zipIdx 1).map fun entry =>
            entry.1.nodes.map fun node => nodeName entry.2 node.id) ∧
          (digraph.clusterTexts.map linkedNames = (graphs.zipIdx 1).map fun entry =>
            entry.1.edges.flatMap fun edge => (edge.upper :: edge.lower).map (nodeName entry.2)) ∧
          (digraph.clusterTexts.flatMap declaredNames).Nodup ∧
          ∀ text ∈ digraph.clusterTexts, linkedNames text ⊆ declaredNames text := by
  refine ⟨Tree.postorder_graph, fun name sources => ?_⟩
  intro graphs digraph
  have content : digraph = { name, graphs } := ofGraphs_eq name graphs
  have ordered : ∀ graph ∈ digraph.graphs, graph.Postorder := fun _ => postorder_of_mem
  refine ⟨?_, ?_, ?_, nodup_declaredNames ordered, linkedNames_subset ordered⟩
  · rw [dot_eq, content]
  · rw [map_declaredNames, content]
  · rw [map_linkedNames, content]

theorem Digraph.postorder_names_sequence :
    let graph := Tree.graph "a.*".toList [[.text ['a'], .leaf .anyChar (.atLeast 0)]]
    graph.Postorder ∧ linkedNames (graph.dot 1) ⊆ declaredNames (graph.dot 1) :=
  ⟨postorder_names.1 _ _,
    (postorder_names.2 [] [("a.*".toList, [[.text ['a'], .leaf .anyChar (.atLeast 0)]])]).2.2.2.2 _
      List.mem_cons_self⟩

end RegexPattern
