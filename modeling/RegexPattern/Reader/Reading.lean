import RegexPattern.Rejection

/-!
What every reader answers. A reader takes a value off the front of a text, so that readers are
composed by handing on the rest.
-/

namespace RegexPattern.Reader

/-- A value and the text after it, or the fault that stopped the reader. -/
abbrev Reading (α : Type) := Except Fault (α × Text)

@[simp] theorem map_ok {α β : Type} {f : α → β} {a : α} :
    (Except.ok a : Except Fault α).map f = .ok (f a) := rfl

@[simp] theorem map_error {α β : Type} {f : α → β} {fault : Fault} :
    (Except.error fault : Except Fault α).map f = .error fault := rfl

@[simp] theorem map_eq_ok {α β : Type} {answer : Except Fault α} {f : α → β} {b : β} :
    answer.map f = .ok b ↔ ∃ a, answer = .ok a ∧ f a = b := by
  cases answer <;> simp [Except.map]

@[simp] theorem map_eq_error {α β : Type} {answer : Except Fault α} {f : α → β} {fault : Fault} :
    answer.map f = .error fault ↔ answer = .error fault := by
  cases answer <;> simp [Except.map]

theorem bind_eq_ok {α β : Type} {answer : Except Fault α} {f : α → Except Fault β} {b : β} :
    (answer >>= f) = .ok b ↔ ∃ a, answer = .ok a ∧ f a = .ok b := by
  cases answer <;> simp [bind, Except.bind]

theorem bind_eq_error {α β : Type} {answer : Except Fault α} {f : α → Except Fault β} {fault : Fault} :
    (answer >>= f) = .error fault ↔
      answer = .error fault ∨ ∃ a, answer = .ok a ∧ f a = .error fault := by
  cases answer <;> simp [bind, Except.bind]

end RegexPattern.Reader
