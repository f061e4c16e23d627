import RegexPattern.Diagnostic
import RegexPattern.Dot
import RegexPattern.Pattern
import RegexPattern.Tree.Listing

/-!
The report on a list of patterns. The patterns are taken one after another, each read on its own.
Lines are written as a pattern is done, but the digraph of the format `dot`, in which all accepted
patterns have a cluster each, only at the end.
-/

namespace RegexPattern

open Text

inductive Format where
  /-- One digraph with a cluster for each pattern. -/
  | dot
  /-- The canonical text of each pattern on a line. -/
  | canonical
  /-- The listing of the tree of each pattern. -/
  | ast
deriving DecidableEq

structure Settings where
  format : Format
  /-- A pattern that differs from its canonical text counts as a failure. -/
  check : Bool
  /-- How many groups may stand inside one another. -/
  limit : Nat
  coloured : Bool
  debug : Bool
deriving DecidableEq

structure Outcome where
  code : Nat
  stdout : Text
  stderr : Text
deriving DecidableEq

structure Entry where
  pattern : Text
  reading : Except Rejection Tree

namespace Entry

def ofPattern (limit : Nat) (pattern : Text) : Entry := { pattern, reading := parse limit pattern }

def differs (entry : Entry) : Bool :=
  match entry.reading with
  | .error _ => false
  | .ok tree => Tree.canonical tree ≠ entry.pattern

def graph? (entry : Entry) : Option Graph :=
  match entry.reading with
  | .error _ => none
  | .ok tree => some (Tree.graph entry.pattern tree)

def quotedPattern (entry : Entry) : Text := ['\''] ++ entry.pattern ++ ['\'']

def sizeLine (entry : Entry) : Text :=
  match entry.graph? with
  | none => []
  | some graph =>
    "debug: ".toList ++ entry.quotedPattern ++ ": ".toList ++ decimal graph.nodes.length ++
      " nodes, ".toList ++ decimal graph.edges.length ++ " edges\n".toList

def complaint (coloured : Bool) (entry : Entry) : Text :=
  match entry.reading with
  | .error rejection =>
    Level.error.heading coloured ++ [' '] ++ entry.quotedPattern ++ ": ".toList ++
      rejection.message ++ ['\n']
  | .ok tree =>
    if entry.differs then
      Level.warning.heading coloured ++ [' '] ++ entry.quotedPattern ++ " -> '".toList ++
        Tree.canonical tree ++ "'\n".toList
    else []

def diagnostics (settings : Settings) (entry : Entry) : Text :=
  entry.complaint settings.coloured ++
    if settings.debug && settings.format = .dot then entry.sizeLine else []

end Entry

/-- What has been noticed and written when some of the patterns are done. -/
structure Progress where
  /-- A pattern was rejected. -/
  failed : Bool
  /-- An accepted pattern was not its canonical text. -/
  mismatched : Bool
  /-- The graphs that are drawn when all patterns are done. -/
  digraph : Digraph
  stdout : Text
  stderr : Text
deriving DecidableEq

namespace Progress

def blank : Progress where
  failed := false
  mismatched := false
  digraph := { name := "common".toList, graphs := [] }
  stdout := []
  stderr := []

def start (settings : Settings) (count : Nat) : Progress :=
  { blank with
    stderr :=
      if settings.debug then "debug: ".toList ++ decimal count ++ " patterns to parse\n".toList else [] }

def step (settings : Settings) (progress : Progress) (pattern : Text) : Progress :=
  let entry := Entry.ofPattern settings.limit pattern
  let progress := { progress with stderr := progress.stderr ++ entry.diagnostics settings }
  match entry.reading with
  | .error _ => { progress with failed := true }
  | .ok tree =>
    let progress := { progress with mismatched := progress.mismatched || entry.differs }
    match settings.format with
    | .dot => { progress with digraph := progress.digraph.push (Tree.graph pattern tree) }
    | .canonical => { progress with stdout := progress.stdout ++ Tree.canonical tree ++ ['\n'] }
    | .ast => { progress with stdout := progress.stdout ++ Tree.listing tree ++ ['\n'] }

/-- The outcome when all patterns are done. The code is 2 if a pattern was rejected, else 1 if a check
fails, else 0; a digraph without graphs is not drawn. -/
def outcome (settings : Settings) (progress : Progress) : Outcome where
  code := if progress.failed then 2 else if settings.check && progress.mismatched then 1 else 0
  stdout := progress.stdout ++
    if settings.format = .dot && !progress.digraph.isEmpty then progress.digraph.dot else []
  stderr := progress.stderr

end Progress

def report (settings : Settings) (patterns : List Text) : Outcome :=
  (patterns.foldl (Progress.step settings) (.start settings patterns.length)).outcome settings

end RegexPattern
