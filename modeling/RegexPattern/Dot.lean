import RegexPattern.Graph

/-!
Graphs as text in the DOT language. Each graph is one cluster; its number is part of every node
name, so that the clusters of one digraph share no names. Every text from a pattern stands in
double quotes, with escapes.
-/

namespace RegexPattern

open Text

/-- The attributes that are present, with the label among them, in alphabetical order. -/
def Node.attributeList (node : Node) : List (String × Text) :=
  [("fillcolor", node.attributes.fillcolor), ("fontcolor", node.attributes.fontcolor),
    ("fontname", node.attributes.fontname), ("fontsize", node.attributes.fontsize),
    ("label", some node.label), ("shape", node.attributes.shape),
    ("style", node.attributes.style)].filterMap fun (name, value) => value.map (name, ·)

def attributeText (entry : String × Text) : Text :=
  entry.1.toList ++ "=\"".toList ++ escape true entry.2 ++ "\",".toList

def nodeName (cluster id : Nat) : Text :=
  "node".toList ++ decimal cluster ++ ['_'] ++ decimal id

def Node.dot (cluster : Nat) (node : Node) : Text :=
  nodeName cluster node.id ++ ['['] ++ node.attributeList.flatMap attributeText ++ "];\n".toList

def Edge.dot (cluster : Nat) : Edge → Text
  | .children parent below =>
    nodeName cluster parent ++ " -> \x7b".toList ++
      below.flatMap (fun child => nodeName cluster child ++ "; ".toList) ++ "\x7d\n".toList
  | .loop node label greedy =>
    nodeName cluster node ++ " -> ".toList ++ nodeName cluster node ++ " [label=\"".toList ++
      escape true label ++
      (if greedy then "\",color=red,arrowhead=dot];\n"
      else "\",color=blue,arrowhead=odot];\n").toList

def Graph.dot (cluster : Nat) (graph : Graph) : Text :=
  "subgraph cluster_regex".toList ++ decimal cluster ++ " \x7b\n".toList ++
    "style=\"dashed\";\nnode[fontname=\"times,italic\"];\nlabel=\"".toList ++
    escape true graph.label ++ "\";\n\n".toList ++
    graph.nodes.flatMap (Node.dot cluster) ++ graph.edges.flatMap (Edge.dot cluster) ++
    "\x7d\n".toList

structure Digraph where
  name : Text
  graphs : List Graph
deriving DecidableEq

namespace Digraph

def push (digraph : Digraph) (graph : Graph) : Digraph :=
  { digraph with graphs := digraph.graphs ++ [graph] }

def isEmpty (digraph : Digraph) : Bool := digraph.graphs.isEmpty

def clusters (cluster : Nat) : List Graph → Text
  | [] => []
  | graph :: rest => graph.dot cluster ++ clusters (cluster + 1) rest

/-- The digraph with its graphs as clusters, numbered from 1 on. The name is written as it is. -/
def dot (digraph : Digraph) : Text :=
  "digraph ".toList ++ digraph.name ++ " \x7b\n".toList ++ clusters 1 digraph.graphs ++
    "\x7d\n".toList

end Digraph

end RegexPattern
