import RegexPattern.Canonical
import RegexPattern.Figure

/-!
The graph of a figure. The parts of a figure become nodes in postorder, numbered from 0: a part
comes after all parts below it, so the root is the last node. A part that may occur more than
once has a loop, and a part with others below it has one edge that lists them in order.
-/

namespace RegexPattern

/-- How a node is drawn; a missing attribute leaves the choice to the drawing program. -/
structure Attributes where
  fillcolor : Option Text := none
  fontcolor : Option Text := none
  fontname : Option Text := none
  fontsize : Option Text := none
  shape : Option Text := none
  style : Option Text := none
deriving DecidableEq

structure Node where
  id : Nat
  label : Text
  attributes : Attributes
deriving DecidableEq

inductive Edge where
  /-- From a node to all nodes right below it, in their order. -/
  | children (parent : Nat) (below : List Nat)
  /-- From a node to itself, with the quantifier as its label. -/
  | loop (node : Nat) (label : Text) (greedy : Bool)
deriving DecidableEq

structure Graph where
  label : Text
  root : Nat
  nodes : List Node
  edges : List Edge
deriving DecidableEq

/-- A text in single quotes if it is one character, in double quotes otherwise. Double quotes
inside it stay as they are. -/
def quoted (text : Text) : Text :=
  let mark := if text.length = 1 then '\'' else '"'
  [mark] ++ escape false text ++ [mark]

def Part.caption : Part → Text
  | empty => "empty".toList
  | alternative => "alternative".toList
  | sequence => "sequence".toList
  | group => "group".toList
  | matchStart => "start-of-match".toList
  | matchEnd => "end-of-match".toList
  | anyChar => "any".toList
  | literal text => quoted text
  | charset negated => if negated then "negated-charset".toList else "charset".toList
  | element (.char c) => quoted [c]
  | element (.range r) =>
    ['\''] ++ escapeChar false r.first ++ ['…'] ++ escapeChar false r.last ++ ['\'']

namespace Attributes

/-- Parts with a meaning that no text of the pattern shows. -/
def special : Attributes :=
  { fillcolor := some "gray".toList, fontsize := some "10".toList, shape := some "box".toList,
    style := some "filled,".toList }

def literal : Attributes := { fontname := some "Courier".toList, shape := some "box".toList }

end Attributes

def Part.attributes : Part → Attributes
  | empty | matchStart | matchEnd | anyChar => .special
  | alternative => { shape := some "diamond".toList, style := some "rounded,".toList }
  | sequence => { shape := some "Mrecord".toList }
  | group => {}
  | literal _ | element _ => .literal
  | charset negated => { fontcolor := some (if negated then "red".toList else "blue".toList) }

/-- The attributes of a node: a font is always named, and a node that may be missing from a
match is dotted. -/
def Part.nodeAttributes (part : Part) (mult : Multiplicity) : Attributes :=
  let own := part.attributes
  { own with
    fontname := some (own.fontname.getD "Times,italic".toList)
    style := if mult.min = 0 then some (own.style.getD [] ++ "dotted,".toList) else own.style }

def Part.node (part : Part) (mult : Multiplicity) (id : Nat) : Node :=
  { id, label := part.caption ++ mult.text, attributes := part.nodeAttributes mult }

def Multiplicity.loops (mult : Multiplicity) (id : Nat) : List Edge :=
  if mult.repeating then [.loop id mult.text mult.greedy] else []

def childEdges (parent : Nat) (below : List Nat) : List Edge :=
  if below.isEmpty then [] else [.children parent below]

namespace Figure

mutual

def size : Figure → Nat
  | of _ _ below => sizeAll below + 1

def sizeAll : List Figure → Nat
  | [] => 0
  | figure :: rest => figure.size + sizeAll rest

end

def root (start : Nat) : Figure → Nat
  | of _ _ below => start + sizeAll below

def roots (start : Nat) : List Figure → List Nat
  | [] => []
  | figure :: rest => figure.root start :: roots (start + figure.size) rest

mutual

/-- The nodes of a figure, numbered from `start` on. -/
def nodes (start : Nat) : Figure → List Node
  | of part mult below => nodesAll start below ++ [part.node mult (start + sizeAll below)]

def nodesAll (start : Nat) : List Figure → List Node
  | [] => []
  | figure :: rest => figure.nodes start ++ nodesAll (start + figure.size) rest

end

mutual

theorem length_nodes (start : Nat) : (figure : Figure) → (figure.nodes start).length = figure.size
  | of part mult below => by
    rw [nodes, List.length_append, length_nodesAll start below, size, List.length_singleton]

theorem length_nodesAll (start : Nat) :
    (figures : List Figure) → (nodesAll start figures).length = sizeAll figures
  | [] => rfl
  | figure :: rest => by
    rw [nodesAll, List.length_append, length_nodes start figure, length_nodesAll _ rest, sizeAll]

end

mutual

def edges (start : Nat) : Figure → List Edge
  | of _ mult below =>
    let top := start + sizeAll below
    edgesAll start below ++ mult.loops top ++ childEdges top (roots start below)

def edgesAll (start : Nat) : List Figure → List Edge
  | [] => []
  | figure :: rest => figure.edges start ++ edgesAll (start + figure.size) rest

end

def graph (label : Text) (figure : Figure) : Graph :=
  { label, root := figure.root 0, nodes := figure.nodes 0, edges := figure.edges 0 }

end Figure

def Tree.graph (label : Text) (tree : Tree) : Graph := (Tree.figure tree).graph label

end RegexPattern
