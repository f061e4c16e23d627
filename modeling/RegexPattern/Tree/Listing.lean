import RegexPattern.Outline
import RegexPattern.Text.Literal
import RegexPattern.Tree

/-!
The listing of a tree: every part with the name of its kind and of its components, as an indented
outline.
-/

namespace RegexPattern

open Text

namespace Outline

def number (n : UInt32) : Outline := line (decimal n.toNat)

def flag (b : Bool) : Outline := line (if b then "true".toList else "false".toList)

def record (kind : String) (components : List (String × Outline)) : Outline :=
  block (kind.toList ++ " \x7b".toList)
    (components.map fun (name, body) => named name.toList body) ['}']

def wrapped (kind : String) (body : Outline) : Outline := block (kind.toList ++ ['(']) [body] [')']

def items (outlines : List Outline) : Outline := block ['['] outlines [']']

end Outline

open Outline

def Multiplicity.outline (mult : Multiplicity) : Outline :=
  record "Multiplicity"
    [("min", number mult.min),
      ("max", match mult.max with
        | none => line "None".toList
        | some max => wrapped "Some" (number max)),
      ("greedy", flag mult.greedy)]

def Element.outline : Element → Outline
  | char c => wrapped "Char" (line (literal '\'' [c]))
  | range r =>
    wrapped "Range" (record "Range"
      [("from", line (literal '\'' [r.first])), ("till", line (literal '\'' [r.last]))])

def Charset.outline (set : Charset) : Outline :=
  record "Charset"
    [("negated", flag set.negated),
      ("elements", block ['{'] (set.elements.toList.map Element.outline) ['}'])]

def Leaf.outline : Leaf → Outline
  | matchStart => line "StartOfMatch".toList
  | matchEnd => line "EndOfMatch".toList
  | anyChar => line "AnyChar".toList
  | charset set => wrapped "Charset" set.outline
  | literal run => wrapped "Literal" (line (Text.literal '"' run))

mutual

def Atom.outline : Atom → Outline
  | .leaf leaf mult => record "Atom" [("expr", leaf.outline), ("mult", mult.outline)]
  | .group content mult =>
    record "Atom"
      [("expr", wrapped "Group"
          (record "Alternative" [("branches", items (Tree.outlines content))])),
        ("mult", mult.outline)]

def Branch.outlines : List Atom → List Outline
  | [] => []
  | atom :: rest => atom.outline :: Branch.outlines rest

def Tree.outlines : List (List Atom) → List Outline
  | [] => []
  | branch :: rest =>
    record "Sequence" [("atoms", items (Branch.outlines branch))] :: Tree.outlines rest

end

def Tree.listing (tree : Tree) : Text :=
  (record "Alternative" [("branches", items (Tree.outlines tree))]).render 0

end RegexPattern
