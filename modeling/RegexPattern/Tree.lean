import RegexPattern.Multiplicity
import RegexPattern.Charset

/-!
The tree of a pattern. A tree is a list of alternative branches, a branch is a list of atoms
matched one after another, and an atom is a leaf or a group around a tree, with a multiplicity.
Any such tree is a value, also one that no pattern is read as: a tree without branches, an empty
literal, or two neighbouring literals.
-/

namespace RegexPattern

inductive Leaf where
  /-- The place where the subject starts. -/
  | matchStart
  /-- The place where the subject ends. -/
  | matchEnd
  | anyChar
  | charset (set : Charset)
  | literal (text : Text)
deriving DecidableEq

/-- A part of a branch together with its multiplicity. The branches of a group's content are
alternatives. -/
inductive Atom where
  | leaf (leaf : Leaf) (mult : Multiplicity)
  | group (content : List (List Atom)) (mult : Multiplicity)

abbrev Branch := List Atom

abbrev Tree := List Branch

namespace Atom

def mult : Atom → Multiplicity
  | leaf _ mult => mult
  | group _ mult => mult

/-- A literal that occurs exactly once. -/
def text (text : Text) : Atom := leaf (.literal text) .once

end Atom

mutual

def Atom.decideEq : (a b : Atom) → Decidable (a = b)
  | .leaf l m, .leaf l' m' =>
    if same : l = l' ∧ m = m' then isTrue (by rw [same.1, same.2])
    else isFalse (by simpa using same)
  | .leaf .., .group .. => isFalse nofun
  | .group .., .leaf .. => isFalse nofun
  | .group t m, .group t' m' =>
    match Tree.decideEq t t' with
    | isTrue same =>
      if same' : m = m' then isTrue (by rw [same, same']) else isFalse (by simp [same'])
    | isFalse different => isFalse (by simp [different])

def Branch.decideEq : (a b : List Atom) → Decidable (a = b)
  | [], [] => isTrue rfl
  | [], _ :: _ => isFalse nofun
  | _ :: _, [] => isFalse nofun
  | a :: as, b :: bs =>
    match Atom.decideEq a b, Branch.decideEq as bs with
    | isTrue same, isTrue same' => isTrue (by rw [same, same'])
    | isFalse different, _ => isFalse (by simp [different])
    | _, isFalse different => isFalse (by simp [different])

def Tree.decideEq : (a b : List (List Atom)) → Decidable (a = b)
  | [], [] => isTrue rfl
  | [], _ :: _ => isFalse nofun
  | _ :: _, [] => isFalse nofun
  | a :: as, b :: bs =>
    match Branch.decideEq a b, Tree.decideEq as bs with
    | isTrue same, isTrue same' => isTrue (by rw [same, same'])
    | isFalse different, _ => isFalse (by simp [different])
    | _, isFalse different => isFalse (by simp [different])

end

instance : DecidableEq Atom := Atom.decideEq

mutual

/-- How many groups of the atom stand inside one another, the atom itself included. -/
def Atom.nesting : Atom → Nat
  | .leaf .. => 0
  | .group content _ => Tree.nesting content + 1

def Branch.nesting : List Atom → Nat
  | [] => 0
  | atom :: rest => max atom.nesting (Branch.nesting rest)

def Tree.nesting : List (List Atom) → Nat
  | [] => 0
  | branch :: rest => max (Branch.nesting branch) (Tree.nesting rest)

end

namespace Tree

def consAtom (atom : Atom) : Tree → Tree
  | [] => [[atom]]
  | branch :: rest => (atom :: branch) :: rest

def wrap (tree : Tree) (mult : Multiplicity) : Tree := [[.group tree mult]]

def snocAtom (atom : Atom) : Tree → Tree
  | [] => [[atom]]
  | [branch] => [branch ++ [atom]]
  | branch :: next :: rest => branch :: snocAtom atom (next :: rest)

end Tree

end RegexPattern
