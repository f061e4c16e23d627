import RegexPattern.Tree

/-!
The figure of a tree: what is drawn for it, as an ordered tree of parts. A quantifier belongs to
the part that it stands behind, the elements of a charset are parts of their own, and a branch
of one atom or a tree of one branch is drawn as that atom or branch alone.
-/

namespace RegexPattern

inductive Part where
  /-- A branch without atoms, or a tree without branches. -/
  | empty
  /-- Two branches or more. -/
  | alternative
  /-- Two atoms or more. -/
  | sequence
  | group
  | matchStart
  | matchEnd
  | anyChar
  | literal (text : Text)
  | charset (negated : Bool)
  /-- A member of the charset above it. -/
  | element (element : Element)
deriving DecidableEq

inductive Figure where
  | of (part : Part) (mult : Multiplicity) (below : List Figure)

namespace Figure

/-- One figure for a list: an empty part for no figure, a single figure as it is, and otherwise
a part above them all. -/
def join (part : Part) : List Figure → Figure
  | [] => of .empty .once []
  | [figure] => figure
  | figures => of part .once figures

end Figure

def Element.figure (element : Element) : Figure := .of (.element element) .once []

def Leaf.figure (leaf : Leaf) (mult : Multiplicity) : Figure :=
  match leaf with
  | matchStart => .of .matchStart mult []
  | matchEnd => .of .matchEnd mult []
  | anyChar => .of .anyChar mult []
  | literal run => .of (.literal run) mult []
  | charset set => .of (.charset set.negated) mult (set.elements.toList.map Element.figure)

mutual

def Atom.figure : Atom → Figure
  | .leaf leaf mult => leaf.figure mult
  | .group content mult => .of .group mult [.join .alternative (Tree.figures content)]

def Branch.figures : List Atom → List Figure
  | [] => []
  | atom :: rest => atom.figure :: Branch.figures rest

def Tree.figures : List (List Atom) → List Figure
  | [] => []
  | branch :: rest => .join .sequence (Branch.figures branch) :: Tree.figures rest

end

def Branch.figure (branch : Branch) : Figure := .join .sequence (Branch.figures branch)

def Tree.figure (tree : Tree) : Figure := .join .alternative (Tree.figures tree)

end RegexPattern
