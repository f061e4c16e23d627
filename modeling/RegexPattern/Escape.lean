import RegexPattern.Text

/-!
Escapes in what is written. A backslash and five control characters are written as a backslash
and another character; a double quote too, but only where the text stands in double quotes.
-/

namespace RegexPattern

/-- A character as it is written; `quoting` tells that it stands in double quotes. -/
def escapeChar (quoting : Bool) : Char → Text
  | '\\' => ['\\', '\\']
  | '\n' => ['\\', 'n']
  | '\t' => ['\\', 't']
  | '\r' => ['\\', 'r']
  | '\x08' => ['\\', 'b']
  | '\x00' => ['\\', '0']
  | '"' => if quoting then ['\\', '"'] else ['"']
  | c => [c]

def escape (quoting : Bool) (text : Text) : Text := text.flatMap (escapeChar quoting)

@[simp] theorem escape_nil (quoting : Bool) : escape quoting [] = [] := rfl

@[simp] theorem escape_cons (quoting : Bool) (c : Char) (text : Text) :
    escape quoting (c :: text) = escapeChar quoting c ++ escape quoting text := rfl

@[simp] theorem escape_append (quoting : Bool) (front back : Text) :
    escape quoting (front ++ back) = escape quoting front ++ escape quoting back :=
  List.flatMap_append

end RegexPattern
