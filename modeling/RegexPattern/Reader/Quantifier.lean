import RegexPattern.Multiplicity
import RegexPattern.Reader.Literal

/-!
Reading quantifiers. Bounds in braces are one number, a lower and an upper one, or only one of
the two with a comma. A number is a run of decimal digits with a value below 2^32, so that it is
never wrapped. Where no quantifier starts, the atom occurs exactly once.
-/

namespace RegexPattern.Reader

/-- The number that the digits at the front of the text write, unless there is no digit or the
value does not fit. -/
def readNumber (text : Text) : Option (UInt32 × Text) :=
  let digits := text.takeWhile Char.isDigit
  let value := Nat.ofDigitChars 10 digits 0
  if fits : digits ≠ [] ∧ value < UInt32.size then
    some (UInt32.ofNatLT value fits.2, text.dropWhile Char.isDigit)
  else none

inductive Bounds where
  | exactly (count : UInt32)
  /-- A comma between the two bounds. A missing lower bound is 0. -/
  | between (min : UInt32) (max : Option UInt32)

def readUpperBound (min : UInt32) (text : Text) : Option (Bounds × Text) :=
  match readNumber text with
  | some (max, '}' :: rest) => some (.between min (some max), rest)
  | _ => none

def readBounds (text : Text) : Option (Bounds × Text) :=
  match readNumber text with
  | some (count, '}' :: rest) => some (.exactly count, rest)
  | some (min, ',' :: '}' :: rest) => some (.between min none, rest)
  | some (min, ',' :: rest) => readUpperBound min rest
  | some _ => none
  | none =>
    match text with
    | ',' :: rest => readUpperBound 0 rest
    | _ => none

def readGreed (mult : Multiplicity) : Text → Multiplicity × Text
  | '?' :: rest => (mult.nonGreedy, rest)
  | text => (mult, text)

/-- The multiplicity that the quantifier at the front of the text stands for. Faults in the
bounds are reported at the opening brace. Neither a lone question mark nor a single number in
braces is followed by a mark for greed. -/
def readMultiplicity : Text → Reading Multiplicity
  | '?' :: rest => .ok (.optional, rest)
  | '+' :: rest => .ok (readGreed (.atLeast 1) rest)
  | '*' :: rest => .ok (readGreed (.atLeast 0) rest)
  | '{' :: rest =>
    match readBounds rest with
    | none => .error ⟨.malformedQuantifier, '{' :: rest⟩
    | some (.exactly count, after) => .ok (.exactly count, after)
    | some (.between min max, after) =>
      match Multiplicity.ofBounds min max with
      | .error disorder => .error ⟨.disorder disorder, '{' :: rest⟩
      | .ok mult => .ok (readGreed mult after)
  | text => .ok (.once, text)

theorem length_readNumber {text rest : Text} {n : UInt32}
    (read : readNumber text = some (n, rest)) : rest.length ≤ text.length := by
  simp only [readNumber] at read
  split at read
  · simp only [Option.some.injEq, Prod.mk.injEq] at read
    rw [← read.2]
    exact (List.dropWhile_sublist _).length_le
  · simp at read

theorem length_readUpperBound {text rest : Text} {min : UInt32} {bounds : Bounds}
    (read : readUpperBound min text = some (bounds, rest)) : rest.length ≤ text.length := by
  unfold readUpperBound at read
  split at read
  · next max after number =>
    have shorter := length_readNumber number
    simp only [Option.some.injEq, Prod.mk.injEq] at read
    simp only [List.length_cons] at shorter
    rw [← read.2]
    omega
  · simp at read

theorem length_readBounds {text rest : Text} {bounds : Bounds}
    (read : readBounds text = some (bounds, rest)) : rest.length ≤ text.length := by
  unfold readBounds at read
  split at read
  · next number =>
    have shorter := length_readNumber number
    cases read
    rw [List.length_cons] at shorter
    omega
  · next number =>
    have shorter := length_readNumber number
    cases read
    rw [List.length_cons, List.length_cons] at shorter
    omega
  · next number =>
    have shorter := length_readNumber number
    have later := length_readUpperBound read
    rw [List.length_cons] at shorter
    omega
  · simp at read
  · split at read
    · have later := length_readUpperBound read
      rw [List.length_cons]
      omega
    · simp at read

theorem length_readGreed (mult : Multiplicity) (text : Text) :
    (readGreed mult text).2.length ≤ text.length := by
  unfold readGreed
  split <;> simp

theorem length_readMultiplicity {text rest : Text} {mult : Multiplicity}
    (read : readMultiplicity text = .ok (mult, rest)) : rest.length ≤ text.length := by
  have greed (m : Multiplicity) (after : Text) (same : readGreed m after = (mult, rest)) :
      rest.length ≤ after.length := by
    simpa only [same] using length_readGreed m after
  unfold readMultiplicity at read
  split at read
  · cases read
    rw [List.length_cons]
    omega
  · have later := greed _ _ (Except.ok.inj read)
    rw [List.length_cons]
    omega
  · have later := greed _ _ (Except.ok.inj read)
    rw [List.length_cons]
    omega
  · rw [List.length_cons]
    split at read
    · simp at read
    · next bounds =>
      have shorter := length_readBounds bounds
      cases read
      omega
    · next bounds =>
      have shorter := length_readBounds bounds
      split at read
      · simp at read
      · have later := greed _ _ (Except.ok.inj read)
        omega
  · cases read
    exact Nat.le_refl _

end RegexPattern.Reader
