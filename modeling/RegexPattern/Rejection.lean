import RegexPattern.Disorder

/-!
Why a pattern is rejected and where. A reader that stops answers a `Fault`: the cause and the
text from the place that the cause points at to the end of the pattern. With the pattern at
hand the fault becomes a `Rejection`, which also knows the place as a byte offset.
-/

namespace RegexPattern

inductive Cause where
  /-- The pattern ends inside a charset. -/
  | unterminatedCharset
  /-- The pattern ends after the backslash of an escape. -/
  | danglingEscape
  /-- An opening brace starts no bounds. -/
  | malformedQuantifier
  /-- The content of a group is not followed by a closing parenthesis. -/
  | unclosedGroup
  /-- A group is opened inside `limit` others. -/
  | nestingTooDeep (limit : Nat)
  /-- The pattern goes on where no atom and no branch can. -/
  | trailingInput
  /-- A range or a pair of bounds is the wrong way round. -/
  | disorder (disorder : Disorder)
deriving DecidableEq

/-- A cause, and the rest of the pattern from the place it points at. -/
structure Fault where
  cause : Cause
  fragment : Text
deriving DecidableEq

/-- A fault together with its place in the pattern, counted in UTF-8 bytes. -/
structure Rejection extends Fault where
  offset : Nat
deriving DecidableEq

open Text

/-- The place of the fault is where its fragment starts: the fragment is the last part of the
pattern. -/
def Fault.within (fault : Fault) (pattern : Text) : Rejection :=
  { fault with offset := byteLength pattern - byteLength fault.fragment }

def Rejection.message (rejection : Rejection) : Text :=
  match rejection.cause with
  | .unterminatedCharset => syntaxError "unterminated charset, expected ']'"
  | .danglingEscape => syntaxError "dangling escape, expected a character after '\\'"
  | .malformedQuantifier => syntaxError "malformed quantifier"
  | .unclosedGroup => syntaxError "unclosed group, expected ')'"
  | .nestingTooDeep limit =>
    located "syntax error" ("nesting deeper than ".toList ++ decimal limit ++ " groups at ".toList)
  | .trailingInput => located "trailing unparsed input" []
  | .disorder disorder => located "invalid structure" (disorder.message ++ " at ".toList)
where
  located (kind : String) (problem : Text) : Text :=
    kind.toList ++ " at offset ".toList ++ decimal rejection.offset ++ ": ".toList ++ problem ++
      "'".toList ++ rejection.fragment ++ "'".toList
  syntaxError (problem : String) : Text :=
    located "syntax error" (problem.toList ++ " at ".toList)

end RegexPattern
