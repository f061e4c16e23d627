/-!
Text as a list of characters. Patterns, labels and everything written are of this type, so that
reading and writing are recursions on a list. Positions in a text are counted in UTF-8 bytes:
the position of a rest is the byte length of what stands before it.
-/

namespace RegexPattern

/-- Text, one Unicode scalar value an item. -/
abbrev Text := List Char

namespace Text

def byteLength : Text → Nat
  | [] => 0
  | c :: rest => c.utf8Size + byteLength rest

@[simp] theorem byteLength_nil : byteLength [] = 0 := rfl

@[simp] theorem byteLength_cons (c : Char) (text : Text) :
    byteLength (c :: text) = c.utf8Size + byteLength text := rfl

@[simp] theorem byteLength_append (front back : Text) :
    byteLength (front ++ back) = byteLength front + byteLength back := by
  induction front with
  | nil => rw [List.nil_append, byteLength_nil, Nat.zero_add]
  | cons c front ih => rw [List.cons_append, byteLength_cons, byteLength_cons, ih, Nat.add_assoc]

def decimal (n : Nat) : Text := Nat.toDigits 10 n

@[simp] theorem ofDigitChars_decimal (n : Nat) : Nat.ofDigitChars 10 (decimal n) 0 = n :=
  Nat.ofDigitChars_toDigits (by decide) (by decide)

theorem isDigit_of_mem_decimal {n : Nat} {c : Char} (digit : c ∈ decimal n) : c.isDigit = true :=
  Nat.isDigit_of_mem_toDigits (by decide) (by decide) digit

def hexadecimal (n : Nat) : Text := Nat.toDigits 16 n

/-- A line drops one carriage return at its end when a newline closed it. -/
def withoutReturn (line : Text) : Text :=
  if line.getLast? = some '\r' then line.dropLast else line

/-- The lines of a text. Each ends at a newline, the last one also where the text ends, and an
empty last line is not counted. -/
def lines (text : Text) : List Text :=
  go [] text
where
  /-- Goes on with the characters of the current line in `line`, the latest first. -/
  go (line : Text) : Text → List Text
    | [] => if line = [] then [] else [line.reverse]
    | '\n' :: rest => withoutReturn line.reverse :: go [] rest
    | c :: rest => go (c :: line) rest

end Text

end RegexPattern
