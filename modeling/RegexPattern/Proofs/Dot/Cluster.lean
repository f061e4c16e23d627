import RegexPattern.Dot
import RegexPattern.Proofs.Graph.Postorder
import RegexPattern.Proofs.Pieces
import RegexPattern.Proofs.Shortest

/-!
The lines of a cluster. Node names come apart again, also with more text behind them, and no label
breaks a line: a cluster has the lines of its head, one for each node, one for each edge and a last one.
-/

namespace RegexPattern

open Text

section

variable (cluster id : Nat)

theorem nodeName_eq : nodeName cluster id = "node".toList ++ (decimal cluster ++ '_' :: decimal id) := by
  show "node".toList ++ decimal cluster ++ ['_'] ++ decimal id = _
  simp only [List.append_assoc, List.cons_append, List.nil_append]

theorem visible_nodeName : Visible (nodeName cluster id) := by
  simp [nodeName_eq, visible_decimal, isControl]

end

theorem nodeName_append_inj {cluster cluster' id id' : Nat} {rest rest' : Text} {c c' : Char}
    (stops : c.isDigit = false) (stops' : c'.isDigit = false)
    (same : nodeName cluster id ++ c :: rest = nodeName cluster' id' ++ c' :: rest') :
    cluster = cluster' ∧ id = id' ∧ c :: rest = c' :: rest' := by
  simp only [nodeName_eq, List.append_assoc, List.append_cancel_left_eq, List.cons_append] at same
  obtain ⟨clusters, ids⟩ := decimal_append_inj (by decide) (by decide) same
  obtain ⟨ids, rests⟩ := decimal_append_inj stops stops' (List.tail_eq_of_cons_eq ids)
  exact ⟨clusters, ids, rests⟩

theorem nodeName_inj {cluster cluster' id id' : Nat} :
    nodeName cluster id = nodeName cluster' id' ↔ cluster = cluster' ∧ id = id' := by
  constructor
  · intro same
    have apart := nodeName_append_inj (by decide) (by decide) (congrArg (· ++ [' ']) same)
    exact ⟨apart.1, apart.2.1⟩
  · rintro ⟨rfl, rfl⟩
    rfl

def attributeNames : List String :=
  ["fillcolor", "fontcolor", "fontname", "fontsize", "label", "shape", "style"]

def Node.entries (node : Node) : List (String × Option Text) :=
  [("fillcolor", node.attributes.fillcolor), ("fontcolor", node.attributes.fontcolor),
    ("fontname", node.attributes.fontname), ("fontsize", node.attributes.fontsize),
    ("label", some node.label), ("shape", node.attributes.shape), ("style", node.attributes.style)]

def present (entries : List (String × Option Text)) : List (String × Text) :=
  entries.filterMap fun (name, value) => value.map (name, ·)

theorem Node.attributeList_eq (node : Node) : node.attributeList = present node.entries := rfl

theorem Node.map_fst_entries (node : Node) : node.entries.map Prod.fst = attributeNames := rfl

theorem mem_present {name : String} {value : Text} {entries : List (String × Option Text)} :
    (name, value) ∈ present entries ↔ (name, some value) ∈ entries := by
  simp only [present, List.mem_filterMap, Option.map_eq_some_iff]
  grind

theorem Node.mem_attributeNames (node : Node) {entry : String × Text} (member : entry ∈ node.attributeList) :
    entry.1 ∈ attributeNames := by
  rw [node.attributeList_eq] at member
  rw [← node.map_fst_entries]
  exact List.mem_map_of_mem (mem_present.mp member)

section

variable (cluster : Nat)

/-- The line of a node without its end. -/
def Node.line (node : Node) : Text :=
  nodeName cluster node.id ++ '[' :: (node.attributeList.flatMap attributeText ++ "];".toList)

def Edge.target : Edge → Text
  | children _ below => '{' :: (below.flatMap (fun child => nodeName cluster child ++ [';', ' ']) ++ ['}'])
  | loop node label greedy =>
    nodeName cluster node ++ ' ' :: ("[label=\"".toList ++ (escape true label ++
      '"' :: (if greedy then ",color=red,arrowhead=dot];" else ",color=blue,arrowhead=odot];").toList))

def Edge.line (edge : Edge) : Text :=
  nodeName cluster edge.upper ++ ' ' :: ("-> ".toList ++ edge.target cluster)

def Graph.headLines (label : Text) : List Text :=
  ["subgraph cluster_regex".toList ++ (decimal cluster ++ [' ', '{']), "style=\"dashed\";".toList,
    "node[fontname=\"times,italic\"];".toList, "label=\"".toList ++ (escape true label ++ '"' :: [';']), []]

def Graph.clusterLines (graph : Graph) : List Text :=
  headLines cluster graph.label ++
    (graph.nodes.map (Node.line cluster) ++ (graph.edges.map (Edge.line cluster) ++ [['}']]))

theorem Node.dot_eq (node : Node) : node.dot cluster = node.line cluster ++ ['\n'] := by
  have close : "];\n".toList = "];".toList ++ ['\n'] := rfl
  simp only [dot, line, close, List.append_assoc, List.cons_append, List.nil_append]

theorem Edge.dot_eq (edge : Edge) : edge.dot cluster = edge.line cluster ++ ['\n'] := by
  cases edge with
  | children parent below =>
    have arrow : " -> \x7b".toList = ' ' :: ("-> ".toList ++ ['{']) := rfl
    have apart : "; ".toList = [';', ' '] := rfl
    have close : "\x7d\n".toList = ['}'] ++ ['\n'] := rfl
    simp only [dot, line, upper, target, arrow, apart, close, List.append_assoc, List.cons_append,
      List.nil_append]
  | loop node label greedy =>
    have arrow : " -> ".toList = ' ' :: "-> ".toList := rfl
    have opened : " [label=\"".toList = ' ' :: "[label=\"".toList := rfl
    have close : (if greedy then "\",color=red,arrowhead=dot];\n" else
        "\",color=blue,arrowhead=odot];\n").toList =
      '"' :: ((if greedy then ",color=red,arrowhead=dot];" else ",color=blue,arrowhead=odot];").toList ++
        ['\n']) := by
      cases greedy <;> rfl
    simp only [dot, line, upper, target, arrow, opened, close, List.append_assoc, List.cons_append]

theorem Graph.unlines_headLines (label : Text) :
    unlines (headLines cluster label) =
      "subgraph cluster_regex".toList ++ decimal cluster ++ " \x7b\n".toList ++
        "style=\"dashed\";\nnode[fontname=\"times,italic\"];\nlabel=\"".toList ++
        escape true label ++ "\";\n\n".toList := by
  have opened : " \x7b\n".toList = [' ', '{'] ++ ['\n'] := rfl
  have styled : "style=\"dashed\";\nnode[fontname=\"times,italic\"];\nlabel=\"".toList =
    "style=\"dashed\";".toList ++ ['\n'] ++ "node[fontname=\"times,italic\"];".toList ++ ['\n'] ++
      "label=\"".toList := rfl
  have labelled : "\";\n\n".toList = '"' :: [';'] ++ ['\n'] ++ ['\n'] := rfl
  simp only [headLines, unlines, List.flatMap_cons, List.flatMap_nil, opened, styled, labelled,
    List.append_assoc, List.nil_append, List.append_nil]

theorem Graph.dot_eq (graph : Graph) : graph.dot cluster = unlines (graph.clusterLines cluster) := by
  have nodes : graph.nodes.flatMap (Node.dot cluster) = unlines (graph.nodes.map (Node.line cluster)) := by
    rw [unlines, List.flatMap_map, funext (Node.dot_eq cluster)]
  have edges : graph.edges.flatMap (Edge.dot cluster) = unlines (graph.edges.map (Edge.line cluster)) := by
    rw [unlines, List.flatMap_map, funext (Edge.dot_eq cluster)]
  have close : "\x7d\n".toList = unlines [['}']] := rfl
  -- The definition is unfolded by `show`: its equation is slow to derive.
  show _ ++ graph.nodes.flatMap (Node.dot cluster) ++ graph.edges.flatMap (Edge.dot cluster) ++
    "\x7d\n".toList = _
  simp only [nodes, edges, close, clusterLines, unlines_append, unlines_headLines, List.append_assoc]

theorem Node.visible_line (node : Node) : Visible (node.line cluster) := by
  have entries : Visible (node.attributeList.flatMap attributeText) := by
    refine visible_flatMap fun entry member => ?_
    have names : ∀ name ∈ attributeNames, Visible name.toList := by simp [attributeNames, isControl]
    have name := names _ (node.mem_attributeNames member)
    simp [attributeText, name, visible_escape, isControl]
  simp [line, entries, visible_nodeName, isControl]

theorem Edge.visible_line (edge : Edge) : Visible (edge.line cluster) := by
  cases edge with
  | children parent below =>
    have names : Visible (below.flatMap fun child => nodeName cluster child ++ [';', ' ']) :=
      visible_flatMap fun child _ => by simp [visible_nodeName, isControl]
    simp [line, target, names, visible_nodeName, isControl]
  | loop node label greedy =>
    cases greedy <;> simp [line, target, visible_nodeName, visible_escape, isControl]

theorem Graph.visible_clusterLines (graph : Graph) : ∀ line ∈ graph.clusterLines cluster, Visible line := by
  intro line member
  simp only [clusterLines, List.mem_append, List.mem_map, List.mem_singleton] at member
  rcases member with head | ⟨node, -, rfl⟩ | ⟨edge, -, rfl⟩ | rfl
  · have heads : ∀ line ∈ headLines cluster graph.label, Visible line := by
      simp [headLines, visible_decimal, visible_escape, isControl]
    exact heads line head
  · exact node.visible_line cluster
  · exact edge.visible_line cluster
  · simp [isControl]

theorem Graph.lines_dot (graph : Graph) : lines (graph.dot cluster) = graph.clusterLines cluster := by
  rw [graph.dot_eq, lines_unlines (graph.visible_clusterLines cluster)]

end

namespace Digraph

def ofGraphs (name : Text) (graphs : List Graph) : Digraph := graphs.foldl push { name, graphs := [] }

theorem foldl_push (graphs : List Graph) (digraph : Digraph) :
    graphs.foldl push digraph = { digraph with graphs := digraph.graphs ++ graphs } := by
  induction graphs generalizing digraph with
  | nil => simp
  | cons graph graphs ih => simp [ih, push]

theorem ofGraphs_eq (name : Text) (graphs : List Graph) : ofGraphs name graphs = { name, graphs } := by
  simp [ofGraphs, foldl_push]

theorem postorder_of_mem {name : Text} {sources : List (Text × Tree)} {graph : Graph}
    (member : graph ∈ (ofGraphs name (sources.map fun source => Tree.graph source.1 source.2)).graphs) :
    graph.Postorder := by
  rw [ofGraphs_eq] at member
  obtain ⟨source, -, rfl⟩ := List.mem_map.mp member
  exact Tree.postorder_graph source.1 source.2

def clusterTexts (digraph : Digraph) : List Text :=
  (digraph.graphs.zipIdx 1).map fun entry => entry.1.dot entry.2

theorem clusters_eq (cluster : Nat) (graphs : List Graph) :
    clusters cluster graphs = (graphs.zipIdx cluster).flatMap fun entry => entry.1.dot entry.2 := by
  induction graphs generalizing cluster with
  | nil => rfl
  | cons graph graphs ih => rw [clusters, ih, List.zipIdx_cons, List.flatMap_cons]

theorem dot_eq (digraph : Digraph) :
    digraph.dot = "digraph ".toList ++ digraph.name ++ " \x7b\n".toList ++ digraph.clusterTexts.flatten ++
      "\x7d\n".toList := by
  rw [clusterTexts, ← List.flatMap_def, ← clusters_eq]
  rfl

end Digraph

end RegexPattern
