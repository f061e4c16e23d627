import RegexPattern.Reader.Tree

/-!
Whole patterns. A pattern is read up to its end or rejected; there is no tree for a part of it.
-/

namespace RegexPattern

open Reader

/-- As many groups may stand inside one another where nothing else is asked for. -/
def defaultLimit : Nat := 256

/-- The tree of a pattern in which at most `limit` groups stand inside one another. -/
def parse (limit : Nat) (pattern : Text) : Except Rejection Tree :=
  match readTree limit limit pattern with
  | .error fault => .error (fault.within pattern)
  | .ok (tree, []) => .ok tree
  | .ok (_, rest) => .error ((Fault.mk .trailingInput rest).within pattern)

end RegexPattern
