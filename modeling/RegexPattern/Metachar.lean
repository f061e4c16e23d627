import RegexPattern.Text

/-!
The characters with a meaning of their own. An opener starts a quantifier. A metacharacter is
never read as itself outside a charset unless a backslash stands before it; every other
character is plain. An opening bracket is plain: it starts a charset only where an atom starts.
-/

namespace RegexPattern

def isOpener (c : Char) : Bool := c ∈ ['{', '?', '+', '*']

/-- The character has a meaning of its own wherever it stands outside a charset. -/
def isMetachar (c : Char) : Bool := c ∈ ['\\', '+', '*', '?', '.', '^', '$', '|', '{', '(', ')']

def isPlain (c : Char) : Bool := !isMetachar c

def startsQuantifier : Text → Bool
  | [] => false
  | c :: _ => isOpener c

end RegexPattern
