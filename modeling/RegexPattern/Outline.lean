import RegexPattern.Text

/-!
Indented outlines: a value on one line, or a head, the items one level deeper on lines of their
own with a comma after each, and a closing mark. A block without items takes no line of its own.
-/

namespace RegexPattern

inductive Outline where
  | line (text : Text)
  | named (name : Text) (body : Outline)
  /-- Items between a head and a closing mark. -/
  | block (head : Text) (items : List Outline) (close : Text)

namespace Outline

def indentation (level : Nat) : Text := List.replicate (4 * level) ' '

mutual

/-- The outline as text, its first line without indentation. -/
def render (level : Nat) : Outline → Text
  | line text => text
  | named name body => name ++ [':', ' '] ++ body.render level
  | block head items close =>
    head ++
      (if items.isEmpty then []
      else ['\n'] ++ renderItems (level + 1) items ++ indentation level) ++
      close

def renderItems (level : Nat) : List Outline → Text
  | [] => []
  | item :: rest => indentation level ++ item.render level ++ [',', '\n'] ++ renderItems level rest

end

end Outline

end RegexPattern
