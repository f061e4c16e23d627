import RegexPattern.Escape

/-!
How escapes change a text: a control character is never written as itself, and outside quotes only
the backslash and the control characters take a second character.
-/

namespace RegexPattern

def isControl (c : Char) : Bool := c ∈ ['\n', '\t', '\r', '\x08', '\x00']

theorem escapeChar_of_plain {c : Char} (visible : ¬ isControl c) (noSlash : c ≠ '\\') :
    escapeChar false c = [c] := by
  unfold escapeChar
  split <;> simp_all [isControl]

theorem not_control_of_mem_escapeChar {quoting : Bool} {c d : Char} (member : d ∈ escapeChar quoting c) :
    ¬ isControl d := by
  unfold escapeChar at member
  simp only [isControl]
  split at member <;> grind

theorem length_escapeChar_le (c : Char) : (escapeChar false c).length ≤ 2 := by
  unfold escapeChar
  split <;> simp

/-- The pair that stands for a character when it is read is written for the backslash only. -/
theorem eq_of_escapeChar_eq_pair {c : Char} (pair : escapeChar false c = ['\\', c]) : c = '\\' := by
  unfold escapeChar at pair
  split at pair <;> simp_all

theorem eq_of_escapeChar_append {c d : Char} {back more : Text} (same : escapeChar false c ++ back = d :: more)
    (noSlash : d ≠ '\\') : c = d := by
  unfold escapeChar at same
  split at same <;> grind

def Visible (text : Text) : Prop := ∀ c ∈ text, ¬ isControl c

@[simp] theorem visible_nil : Visible [] := nofun

@[simp] theorem visible_cons {c : Char} {text : Text} :
    Visible (c :: text) ↔ ¬ isControl c ∧ Visible text := List.forall_mem_cons

@[simp] theorem visible_append {front back : Text} :
    Visible (front ++ back) ↔ Visible front ∧ Visible back := List.forall_mem_append

theorem visible_flatMap {α : Type} {write : α → Text} {values : List α}
    (visible : ∀ value ∈ values, Visible (write value)) : Visible (values.flatMap write) := by
  intro c member
  obtain ⟨value, found, within⟩ := List.mem_flatMap.mp member
  exact visible value found c within

theorem visible_escapeChar (quoting : Bool) (c : Char) : Visible (escapeChar quoting c) :=
  fun _ member => not_control_of_mem_escapeChar member

theorem visible_escape (quoting : Bool) (text : Text) : Visible (escape quoting text) :=
  visible_flatMap fun c _ => visible_escapeChar quoting c

end RegexPattern
