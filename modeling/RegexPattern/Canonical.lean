import RegexPattern.Escape
import RegexPattern.Tree

/-!
The canonical text of a tree: the shortest quantifiers, charsets in the order of their elements,
and escapes for the backslash and for control characters only. Metacharacters in literals and
charsets are written as they are, so that the text of such a tree is read as another tree.
-/

namespace RegexPattern

open Text

/-- The shortest bounds, without the mark for greed. -/
def Multiplicity.boundsText (mult : Multiplicity) : Text :=
  match mult.max with
  | none =>
    if mult.min = 0 then ['*']
    else if mult.min = 1 then ['+']
    else ['{'] ++ decimal mult.min.toNat ++ [',', '}']
  | some max =>
    if mult.min = 1 ∧ max = 1 then []
    else if mult.min = max then ['{'] ++ decimal max.toNat ++ ['}']
    else if mult.min = 0 then
      if max = 1 then ['?'] else ['{', ','] ++ decimal max.toNat ++ ['}']
    else ['{'] ++ decimal mult.min.toNat ++ [','] ++ decimal max.toNat ++ ['}']

/-- The quantifier of a multiplicity. Only a repeating one is marked when it is not greedy. -/
def Multiplicity.text (mult : Multiplicity) : Text :=
  mult.boundsText ++ if mult.repeating && !mult.greedy then ['?'] else []

def CharRange.text (range : CharRange) : Text :=
  escapeChar false range.first ++ ['-'] ++ escapeChar false range.last

def Element.text : Element → Text
  | char c => escapeChar false c
  | range r => r.text

def Charset.text (set : Charset) : Text :=
  ['['] ++ (if set.negated then ['^'] else []) ++ set.elements.toList.flatMap Element.text ++ [']']

def Leaf.text : Leaf → Text
  | matchStart => ['^']
  | matchEnd => ['$']
  | anyChar => ['.']
  | charset set => set.text
  | literal run => escape false run

mutual

def Atom.canonical : Atom → Text
  | .leaf leaf mult => leaf.text ++ mult.text
  | .group content mult => ['('] ++ Tree.canonical content ++ [')'] ++ mult.text

def Branch.canonical : List Atom → Text
  | [] => []
  | atom :: rest => atom.canonical ++ Branch.canonical rest

def Tree.canonical : List (List Atom) → Text
  | [] => []
  | [branch] => Branch.canonical branch
  | branch :: next :: rest => Branch.canonical branch ++ ['|'] ++ Tree.canonical (next :: rest)

end

theorem Atom.canonical_text (run : Text) : (Atom.text run).canonical = escape false run := List.append_nil _

end RegexPattern
