import RegexPattern.Reader.Quantifier
import RegexPattern.Proofs.Grammar

/-!
The readers of numbers, bounds and quantifiers against the grammar. A number is read as far as its
digits go, so that a comma or a closing brace behind them is what ends it.
-/

namespace RegexPattern.Grammar
open Reader Text

theorem numberOf_decimal (n : UInt32) : NumberOf n (decimal n.toNat) :=
  ⟨Nat.toDigits_ne_nil, fun _ digit => isDigit_of_mem_decimal digit, ofDigitChars_decimal _⟩

structure Digits (digits : Text) : Prop where
  filled : digits ≠ []
  isDigit : ∀ c ∈ digits, c.isDigit

/-- The number that the digits write, unless it takes more than 32 bits. -/
def number? (digits : Text) : Option UInt32 :=
  if fits : Nat.ofDigitChars 10 digits 0 < UInt32.size then some (.ofNatLT _ fits) else none

theorem NumberOf.digits {n : UInt32} {digits : Text} (derives : NumberOf n digits) : Digits digits :=
  ⟨derives.filled, derives.isDigit⟩

theorem NumberOf.number?_eq {n : UInt32} {digits : Text} (derives : NumberOf n digits) :
    number? digits = some n := by
  have fits : n.toNat < UInt32.size := n.toNat_lt
  simp [number?, derives.value, fits]

theorem Digits.numberOf {n : UInt32} {digits : Text} (isDigits : Digits digits) (value : number? digits = some n) :
    NumberOf n digits := by
  refine ⟨isDigits.filled, isDigits.isDigit, ?_⟩
  unfold number? at value
  split at value
  · cases value
    exact (UInt32.toNat_ofNatLT ..).symm
  · cases value

theorem Digits.readNumber_append {digits : Text} (isDigits : Digits digits) {c : Char} (stop : c.isDigit = false)
    (rest : Text) : readNumber (digits ++ c :: rest) = (number? digits).map (·, c :: rest) := by
  have front : (digits ++ c :: rest).takeWhile Char.isDigit = digits := by
    rw [List.takeWhile_append_of_pos isDigits.isDigit, List.takeWhile_cons_of_neg (by simp [stop]),
      List.append_nil]
  have back : (digits ++ c :: rest).dropWhile Char.isDigit = c :: rest := by
    rw [List.dropWhile_append_of_pos isDigits.isDigit, List.dropWhile_cons_of_neg (by simp [stop])]
  by_cases fits : Nat.ofDigitChars 10 digits 0 < UInt32.size <;>
    simp [readNumber, number?, front, back, isDigits.filled, fits]

theorem numberOf_of_readNumber {n : UInt32} {text rest : Text}
    (read : readNumber text = some (n, rest)) : ∃ digits, text = digits ++ rest ∧ NumberOf n digits := by
  simp only [readNumber] at read
  split at read
  · next fits =>
    simp only [Option.some.injEq, Prod.mk.injEq] at read
    obtain ⟨rfl, rfl⟩ := read
    refine ⟨text.takeWhile Char.isDigit, List.takeWhile_append_dropWhile.symm, fits.1, ?_, ?_⟩
    · exact fun c member => List.all_eq_true.mp List.all_takeWhile c member
    · exact (UInt32.toNat_ofNatLT ..).symm
  · simp at read

theorem ofBounds_eq_ok_iff {min : UInt32} {max : Option UInt32} {mult : Multiplicity} :
    Multiplicity.ofBounds min max = .ok mult ↔ mult.min = min ∧ mult.max = max ∧ mult.greedy = true := by
  obtain ⟨min', max', greedy, ordered⟩ := mult
  cases max with
  | none => simp [Multiplicity.ofBounds, Multiplicity.atLeast, eq_comm]
  | some max =>
    by_cases inOrder : min ≤ max
    · simp [Multiplicity.ofBounds, inOrder, eq_comm]
    · simp only [Multiplicity.ofBounds, inOrder, ↓reduceDIte, reduceCtorEq, false_iff, not_and]
      intro sameMin sameMax
      exact absurd (ordered max sameMax) (sameMin ▸ inOrder)

theorem Digits.readUpperBound_append (min : UInt32) {digits : Text} (isDigits : Digits digits) (rest : Text) :
    readUpperBound min (digits ++ '}' :: rest) =
      (number? digits).map fun max => (.between min (some max), rest) := by
  unfold readUpperBound
  rw [isDigits.readNumber_append (c := '}') rfl]
  cases number? digits <;> rfl

theorem boundsOf_of_readUpperBound {min : UInt32} {bounds : Bounds} {text rest : Text}
    (read : readUpperBound min text = some (bounds, rest)) :
    ∃ max digits, text = digits ++ '}' :: rest ∧ NumberOf max digits ∧
      bounds = .between min (some max) := by
  unfold readUpperBound at read
  split at read
  · next max after number =>
    cases read
    obtain ⟨digits, rfl, derives⟩ := numberOf_of_readNumber number
    exact ⟨max, digits, rfl, derives, rfl⟩
  · simp at read

theorem Digits.append_ne {digits : Text} (isDigits : Digits digits) {c : Char} (stop : c.isDigit = false)
    (rest more : Text) : digits ++ rest ≠ c :: more := by
  obtain ⟨filled, isDigit⟩ := isDigits
  intro same
  obtain ⟨d, tail, rfl⟩ := List.exists_cons_of_ne_nil filled
  obtain ⟨rfl, -⟩ := List.cons.inj same
  exact absurd (isDigit d List.mem_cons_self) (by simp [stop])

section

-- Digits whose number does not fit are not skipped: the text still starts with them, and so not with the comma or
-- the brace that would let the bounds go on without a number.
variable {digits lower upper : Text}

theorem Digits.readBounds_exactly (isDigits : Digits digits) (rest : Text) :
    readBounds (digits ++ '}' :: rest) = (number? digits).map fun count => (.exactly count, rest) := by
  have noComma (more : Text) := isDigits.append_ne (c := ',') rfl ('}' :: rest) more
  unfold readBounds
  rw [isDigits.readNumber_append (c := '}') rfl]
  cases number? digits with
  | none => simp
  | some count => rfl

theorem Digits.readBounds_atLeast (isDigits : Digits digits) (rest : Text) :
    readBounds (digits ++ ',' :: '}' :: rest) = (number? digits).map fun min => (.between min none, rest) := by
  have noComma (more : Text) := isDigits.append_ne (c := ',') rfl (',' :: '}' :: rest) more
  unfold readBounds
  rw [isDigits.readNumber_append (c := ',') rfl]
  cases number? digits with
  | none => simp
  | some min => rfl

theorem Digits.readBounds_between (below : Digits lower) (above : Digits upper) (rest : Text) :
    readBounds (lower ++ ',' :: (upper ++ '}' :: rest)) =
      (number? lower).bind fun min => (number? upper).map fun max => (.between min (some max), rest) := by
  have noComma (more : Text) := below.append_ne (c := ',') rfl (',' :: (upper ++ '}' :: rest)) more
  have noBrace (more : Text) := above.append_ne (c := '}') rfl ('}' :: rest) more
  unfold readBounds
  rw [below.readNumber_append (c := ',') rfl]
  cases number? lower with
  | none => simp
  | some min => simp [above.readUpperBound_append]

theorem Digits.readBounds_atMost (isDigits : Digits digits) (rest : Text) :
    readBounds (',' :: (digits ++ '}' :: rest)) =
      (number? digits).map fun max => (.between 0 (some max), rest) := by
  have noNumber (after : Text) : readNumber (',' :: after) = none := by simp [readNumber]
  unfold readBounds
  simp only [noNumber, isDigits.readUpperBound_append]

end

/-- Bounds are read before the mark for greed, which is looked for in what follows them. -/
theorem BoundsOf.readMultiplicity_append {mult : Multiplicity} {source : Text}
    (derives : BoundsOf mult.min mult.max source) (rest : Text) :
    readMultiplicity (source ++ rest) = .ok (readGreed { mult with greedy := true } rest) := by
  have made : Multiplicity.ofBounds mult.min mult.max = .ok { mult with greedy := true } :=
    ofBounds_eq_ok_iff.mpr ⟨rfl, rfl, rfl⟩
  obtain ⟨min, max, greedy, ordered⟩ := mult
  cases derives with
  | plus => rfl
  | star => rfl
  | atLeast number =>
    simp [readMultiplicity, number.digits.readBounds_atLeast, number.number?_eq, made]
  | between below above =>
    simp [readMultiplicity, below.digits.readBounds_between above.digits, below.number?_eq, above.number?_eq, made]
  | @atMost max _ number =>
    have made : Multiplicity.ofBounds 0 (some max) = .ok ⟨0, some max, true, ordered⟩ := made
    simp [readMultiplicity, number.digits.readBounds_atMost, number.number?_eq, made]

theorem QuantifierOf.readMultiplicity_append {mult : Multiplicity} {source rest : Text}
    (derives : QuantifierOf mult source rest) :
    readMultiplicity (source ++ rest) = .ok (mult, rest) := by
  cases derives with
  | optional => rfl
  | exactly number => simp [readMultiplicity, number.digits.readBounds_exactly, number.number?_eq]
  | greedy bounds greedy unmarked =>
    rw [bounds.readMultiplicity_append]
    obtain ⟨min, max, _, ordered⟩ := mult
    cases greedy
    unfold readGreed
    split
    · exact absurd rfl unmarked
    · rfl
  | nonGreedy bounds lazy =>
    rw [List.append_assoc, bounds.readMultiplicity_append]
    obtain ⟨min, max, _, ordered⟩ := mult
    cases lazy
    rfl
  | once unquantified =>
    unfold readMultiplicity
    split <;> simp_all [startsQuantifier, isOpener]

theorem boundsOf_of_readBounds {bounds : Bounds} {text rest : Text}
    (read : readBounds text = some (bounds, rest)) :
    (∃ count digits, text = digits ++ '}' :: rest ∧ NumberOf count digits ∧ bounds = .exactly count) ∨
    ∃ source min max, '{' :: text = source ++ rest ∧ bounds = .between min max ∧
      ((∀ limit ∈ max, min ≤ limit) → BoundsOf min max source) := by
  unfold readBounds at read
  split at read
  · next count after number =>
    cases read
    obtain ⟨digits, rfl, derives⟩ := numberOf_of_readNumber number
    exact .inl ⟨count, digits, rfl, derives, rfl⟩
  · next min after number =>
    cases read
    obtain ⟨digits, rfl, derives⟩ := numberOf_of_readNumber number
    exact .inr ⟨['{'] ++ digits ++ [',', '}'], min, none, by simp, rfl, fun _ => .atLeast derives⟩
  · next min after _ number =>
    obtain ⟨lower, rfl, below⟩ := numberOf_of_readNumber number
    obtain ⟨max, upper, rfl, above, rfl⟩ := boundsOf_of_readUpperBound read
    exact .inr ⟨['{'] ++ lower ++ [','] ++ upper ++ ['}'], min, some max, by simp, rfl,
      fun ordered => .between below above (ordered max rfl)⟩
  · simp at read
  · split at read
    · obtain ⟨max, upper, rfl, above, rfl⟩ := boundsOf_of_readUpperBound read
      exact .inr ⟨['{', ','] ++ upper ++ ['}'], 0, some max, by simp, rfl, fun _ => .atMost above⟩
    · simp at read

theorem readBounds_append {bounds : Bounds} {text rest : Text} (read : readBounds text = some (bounds, rest))
    (more : Text) : readBounds (text ++ more) = some (bounds, rest ++ more) := by
  unfold readBounds at read
  split at read
  · next number =>
    cases read
    obtain ⟨digits, rfl, derives⟩ := numberOf_of_readNumber number
    simpa [derives.number?_eq] using derives.digits.readBounds_exactly (rest ++ more)
  · next number =>
    cases read
    obtain ⟨digits, rfl, derives⟩ := numberOf_of_readNumber number
    simpa [derives.number?_eq] using derives.digits.readBounds_atLeast (rest ++ more)
  · next number =>
    obtain ⟨lower, rfl, below⟩ := numberOf_of_readNumber number
    obtain ⟨max, upper, rfl, above, rfl⟩ := boundsOf_of_readUpperBound read
    simpa [below.number?_eq, above.number?_eq] using below.digits.readBounds_between above.digits (rest ++ more)
  · cases read
  · split at read
    · obtain ⟨max, upper, rfl, above, rfl⟩ := boundsOf_of_readUpperBound read
      simpa [above.number?_eq] using above.digits.readBounds_atMost (rest ++ more)
    · cases read

theorem quantifierOf_of_readGreed {mult greedy : Multiplicity} {source text rest : Text}
    (bounds : BoundsOf greedy.min greedy.max source) (isGreedy : greedy.greedy = true)
    (read : readGreed greedy text = (mult, rest)) :
    ∃ mark, text = mark ++ rest ∧ QuantifierOf mult (source ++ mark) rest := by
  unfold readGreed at read
  split at read
  · cases read
    exact ⟨['?'], rfl, .nonGreedy bounds rfl⟩
  · next unmarked =>
    cases read
    refine ⟨[], rfl, ?_⟩
    rw [List.append_nil]
    apply QuantifierOf.greedy bounds isGreedy
    intro marked
    obtain ⟨more, rfl⟩ := List.head?_eq_some_iff.mp marked
    exact unmarked more rfl

theorem quantifierOf_of_readMultiplicity {mult : Multiplicity} {text rest : Text}
    (read : readMultiplicity text = .ok (mult, rest)) :
    ∃ source, text = source ++ rest ∧ QuantifierOf mult source rest := by
  unfold readMultiplicity at read
  split at read
  · cases read
    exact ⟨['?'], rfl, .optional⟩
  · obtain ⟨mark, rfl, derives⟩ := quantifierOf_of_readGreed .plus rfl (Except.ok.inj read)
    exact ⟨['+'] ++ mark, rfl, derives⟩
  · obtain ⟨mark, rfl, derives⟩ := quantifierOf_of_readGreed .star rfl (Except.ok.inj read)
    exact ⟨['*'] ++ mark, rfl, derives⟩
  · split at read
    · simp at read
    · next count after boundsRead =>
      cases read
      rcases boundsOf_of_readBounds boundsRead with ⟨count', digits, rfl, derives, same⟩ | ⟨_, _, _, _, same, _⟩
      · cases same
        exact ⟨['{'] ++ digits ++ ['}'], by simp, .exactly derives⟩
      · cases same
    · next min max after boundsRead =>
      rcases boundsOf_of_readBounds boundsRead with ⟨_, _, _, _, same⟩ | ⟨source, _, _, split, same, derives⟩
      · cases same
      · cases same
        split at read
        · simp at read
        · next greedy made =>
          obtain ⟨rfl, rfl, isGreedy⟩ := ofBounds_eq_ok_iff.mp made
          obtain ⟨mark, rfl, derives⟩ :=
            quantifierOf_of_readGreed (derives greedy.min_le_max) isGreedy (Except.ok.inj read)
          exact ⟨source ++ mark, by rw [split, List.append_assoc], derives⟩
  · next noMark noPlus noStar noBrace =>
    cases read
    refine ⟨[], rfl, .once ?_⟩
    cases text with
    | nil => simp [startsQuantifier]
    | cons c more => simp_all [startsQuantifier, isOpener]

end RegexPattern.Grammar
