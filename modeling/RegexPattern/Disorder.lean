import RegexPattern.Text

/-!
The two ways in which a pair of bounds can be the wrong way round. A value of `CharRange` or
`Multiplicity` never has them: their constructors answer a `Disorder` instead.
-/

namespace RegexPattern

inductive Disorder where
  /-- A range of characters whose first one comes after its last one. -/
  | range (first last : Char)
  /-- A quantifier that asks for at least `min` and at most `max`, with `max` below `min`. -/
  | bounds (min max : UInt32)
deriving DecidableEq

namespace Disorder

open Text

/-- The wording of the error. Characters stand in it as they are, without escapes. -/
def message : Disorder → Text
  | range first last =>
    "range '".toList ++ [first] ++ "'-'".toList ++ [last] ++ "' is out of order".toList
  | bounds min max =>
    "quantifier bounds \x7b".toList ++ decimal min.toNat ++ ",".toList ++ decimal max.toNat ++
      "\x7d are out of order".toList

end Disorder

end RegexPattern
