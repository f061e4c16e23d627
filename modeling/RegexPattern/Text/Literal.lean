import RegexPattern.Text
import RegexPattern.Text.Invisible
import RegexPattern.Text.Combining

/-!
Characters and texts in quotes, as a listing shows them. What could be mistaken for the end of
the quotation or could not be seen is escaped: a mark of the kind that stands around it, the
backslash, and by their code points the invisible and the combining characters.
-/

namespace RegexPattern.Text

def literalChar (mark : Char) (c : Char) : Text :=
  if c = '\x00' then ['\\', '0']
  else if c = '\t' then ['\\', 't']
  else if c = '\n' then ['\\', 'n']
  else if c = '\r' then ['\\', 'r']
  else if c = '\\' ∨ c = mark then ['\\', c]
  else if isInvisible c || isCombining c then
    ['\\', 'u', '{'] ++ hexadecimal c.toNat ++ ['}']
  else [c]

def literal (mark : Char) (text : Text) : Text :=
  [mark] ++ text.flatMap (literalChar mark) ++ [mark]

end RegexPattern.Text
