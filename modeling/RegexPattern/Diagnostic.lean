import RegexPattern.Text

/-!
Diagnostic lines: what they start with, in colour where colours are wanted.
-/

namespace RegexPattern

inductive Level where
  | error
  | warning
deriving DecidableEq

def paint (coloured : Bool) (start text : Text) : Text :=
  if coloured then start ++ text ++ "\x1b[m".toList else text

namespace Level

def colour : Level → Text
  | error => "\x1b[01;31m".toList
  | warning => "\x1b[01;33m".toList

def word : Level → Text
  | error => "error:".toList
  | warning => "warning:".toList

def heading (coloured : Bool) (level : Level) : Text := paint coloured level.colour level.word

end Level

end RegexPattern
