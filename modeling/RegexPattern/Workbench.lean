import RegexPattern.Dot
import RegexPattern.Pattern

/-!
A workbench for trees: one tree that is read, put together and drawn step by step, the graph that
was drawn last, and a digraph that collects graphs. A step that fails leaves the workbench as it
was.
-/

namespace RegexPattern

structure Workbench where
  /-- How many groups may stand inside one another in a pattern. -/
  limit : Nat := defaultLimit
  tree : Tree := []
  graph : Option Graph := none
  digraph : Digraph := { name := [], graphs := [] }

namespace Workbench

def read (bench : Workbench) (pattern : Text) : Except Rejection Workbench :=
  (parse bench.limit pattern).map fun tree => { bench with tree }

/-- Reads the canonical text of the tree. -/
def reread (bench : Workbench) : Except Rejection Workbench :=
  bench.read (Tree.canonical bench.tree)

def replace (bench : Workbench) (tree : Tree) : Workbench := { bench with tree }

def wrap (bench : Workbench) (mult : Multiplicity) : Workbench :=
  bench.replace (bench.tree.wrap mult)

def addBranches (bench : Workbench) (tree : Tree) : Workbench :=
  bench.replace (bench.tree ++ tree)

def addLiteral (bench : Workbench) (text : Text) : Workbench :=
  bench.replace (bench.tree.snocAtom (.text text))

def draw (bench : Workbench) (label : Text) : Workbench :=
  { bench with graph := some (Tree.graph label bench.tree) }

def startDigraph (bench : Workbench) (name : Text) : Workbench :=
  { bench with digraph := { name, graphs := [] } }

def collect (bench : Workbench) : Workbench :=
  match bench.graph with
  | none => bench
  | some graph => { bench with digraph := bench.digraph.push graph }

inductive Step where
  | allow (limit : Nat)
  | read (pattern : Text)
  | reread
  | replace (tree : Tree)
  | wrap (mult : Multiplicity)
  | addBranches (tree : Tree)
  | addLiteral (text : Text)
  | draw (label : Text)
  | startDigraph (name : Text)
  | collect

def perform (bench : Workbench) : Step → Except Rejection Workbench
  | .allow limit => .ok { bench with limit }
  | .read pattern => bench.read pattern
  | .reread => bench.reread
  | .replace tree => .ok (bench.replace tree)
  | .wrap mult => .ok (bench.wrap mult)
  | .addBranches tree => .ok (bench.addBranches tree)
  | .addLiteral text => .ok (bench.addLiteral text)
  | .draw label => .ok (bench.draw label)
  | .startDigraph name => .ok (bench.startDigraph name)
  | .collect => .ok bench.collect

/-- The workbench after a step, whether the step fails or not. -/
def advance (bench : Workbench) (step : Step) : Workbench :=
  match bench.perform step with
  | .ok next => next
  | .error _ => bench

def run (bench : Workbench) (steps : List Step) : Workbench := steps.foldl advance bench

end Workbench

end RegexPattern
