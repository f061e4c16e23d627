import RegexPattern.Proofs.Escape

/-!
Texts that come apart into the pieces they were put together from: behind characters of one kind, such as
the digits of a number, and at the ends of lines without control characters.
-/

namespace RegexPattern.Text

theorem append_cons_inj {kind : Char → Bool} {front front' rest rest' : Text} {c c' : Char}
    (inside : ∀ d ∈ front, kind d = true) (inside' : ∀ d ∈ front', kind d = true)
    (stops : kind c = false) (stops' : kind c' = false) (same : front ++ c :: rest = front' ++ c' :: rest') :
    front = front' ∧ c :: rest = c' :: rest' := by
  have cut {front rest : Text} {c : Char} (inside : ∀ d ∈ front, kind d = true) (stops : kind c = false) :
      (front ++ c :: rest).takeWhile kind = front := by
    rw [List.takeWhile_append_of_pos inside, List.takeWhile_cons_of_neg (by simp [stops]), List.append_nil]
  have fronts : front = front' := by rw [← cut inside stops, same, cut inside' stops']
  exact ⟨fronts, List.append_cancel_left (fronts ▸ same)⟩

theorem decimal_append_inj {m n : Nat} {rest rest' : Text} {c c' : Char} (stops : c.isDigit = false)
    (stops' : c'.isDigit = false) (same : decimal m ++ c :: rest = decimal n ++ c' :: rest') :
    m = n ∧ c :: rest = c' :: rest' := by
  obtain ⟨digits, rests⟩ := append_cons_inj (fun _ digit => isDigit_of_mem_decimal digit)
    (fun _ digit => isDigit_of_mem_decimal digit) stops stops' same
  have value := congrArg (Nat.ofDigitChars 10 · 0) digits
  simp only [ofDigitChars_decimal] at value
  exact ⟨value, rests⟩

theorem lines_go_append {line : Text} (noNewline : '\n' ∉ line) (front rest : Text) :
    lines.go front (line ++ '\n' :: rest) = withoutReturn (front.reverse ++ line) :: lines.go [] rest := by
  induction line generalizing front with
  | nil => simp [lines.go]
  | cons c line ih =>
    have ordinary : c ≠ '\n' := fun same => noNewline (same ▸ List.mem_cons_self)
    have later := ih (fun member => noNewline (List.mem_cons_of_mem _ member)) (c :: front)
    rw [List.cons_append, lines.go, later, List.reverse_cons, List.append_assoc]
    · rfl
    · exact ordinary

theorem lines_append_newline {line : Text} (visible : Visible line) (rest : Text) :
    lines (line ++ '\n' :: rest) = line :: lines rest := by
  have noNewline : '\n' ∉ line := fun member => visible _ member (by decide)
  have noReturn : line.getLast? ≠ some '\r' := by
    intro last
    exact visible _ (List.mem_of_getLast? last) (by decide)
  rw [lines, lines_go_append noNewline, List.reverse_nil, List.nil_append, withoutReturn, if_neg noReturn]
  rfl

def unlines (texts : List Text) : Text := texts.flatMap fun line => line ++ ['\n']

@[simp] theorem unlines_cons (line : Text) (texts : List Text) :
    unlines (line :: texts) = line ++ '\n' :: unlines texts := by
  simp [unlines]

@[simp] theorem unlines_append (front back : List Text) :
    unlines (front ++ back) = unlines front ++ unlines back :=
  List.flatMap_append

theorem lines_unlines {texts : List Text} (visible : ∀ line ∈ texts, Visible line) :
    lines (unlines texts) = texts := by
  induction texts with
  | nil => rfl
  | cons line texts ih =>
    rw [unlines_cons, lines_append_newline (visible line List.mem_cons_self)]
    rw [ih fun line member => visible line (List.mem_cons_of_mem _ member)]

end RegexPattern.Text
