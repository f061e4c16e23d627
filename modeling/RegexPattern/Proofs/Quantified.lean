import RegexPattern.Proofs.BarePattern
import RegexPattern.Proofs.Failure

/-!
Quantifiers, each behind a dot that is the whole pattern otherwise. Bounds in braces are read as the numbers
that their digits write, or refused at the brace where 32 bits do not hold them. What is written for a
multiplicity is read as it, up to greed that makes no difference, but for counts with a mark for greed.
-/

namespace RegexPattern

open Text Reader Grammar

def greedMark (greedy : Bool) : Text := if greedy then [] else ['?']

def refusedBounds (cause : Cause) (bounds : Text) : Except Rejection Tree := .error ⟨⟨cause, bounds⟩, 1⟩

section

variable {limit : Nat} {text rest : Text} {mult : Multiplicity}

theorem readTree_dot (read : readMultiplicity text = .ok (mult, rest)) (stops : TreeStops rest) (allowance : Nat) :
    readTree limit allowance ('.' :: text) = .ok ([[.leaf .anyChar mult]], rest) := by
  rw [readTree_leaf _ _ _ (by simp) (by simp)]
  simp [readLeaf, read, stops.readTree_eq, bind, Except.bind, Tree.consAtom]

theorem Grammar.QuantifierOf.parse_dot (quantified : QuantifierOf mult text []) (limit : Nat) :
    parse limit ('.' :: text) = .ok [[.leaf .anyChar mult]] := by
  have leaf : LeafOf .anyChar ['.'] (text ++ []) := .anyChar
  have atom : AtomOf (.leaf .anyChar mult) ('.' :: text) [] := .leaf leaf quantified
  exact atom.branchOf.parse_eq (by simp [Branch.nesting, Atom.nesting])

theorem parse_dot_marked (read : readMultiplicity text = .ok (mult, ['?'])) (limit : Nat) :
    parse limit ('.' :: text) = .error ⟨⟨.trailingInput, ['?']⟩, byteLength text⟩ := by
  have stops : TreeStops ['?'] := by simp [TreeStops, isOpener]
  rw [parse_eq_error_of_readTree (readTree_dot read stops limit) (by simp)]
  have sizes : '.'.utf8Size = 1 ∧ '?'.utf8Size = 1 := ⟨rfl, rfl⟩
  simp [Fault.within, sizes]

theorem parse_dot_refused {cause : Cause} (read : readMultiplicity text = .error ⟨cause, text⟩) (limit : Nat) :
    parse limit ('.' :: text) = refusedBounds cause text := by
  have stopped : readTree limit limit ('.' :: text) = .error ⟨cause, text⟩ := by
    rw [readTree_leaf _ _ _ (by simp) (by simp)]
    simp [readLeaf, read, bind, Except.bind]
  have size : '.'.utf8Size = 1 := rfl
  simp [parse, stopped, Fault.within, size, refusedBounds]

end

/-! ### Bounds in braces -/

namespace Grammar

theorem utf8Size_of_isDigit {c : Char} (digit : c.isDigit) : c.utf8Size = 1 := by
  have below : c.val.toNat ≤ 57 := by
    simp only [Char.isDigit, Bool.and_eq_true, decide_eq_true_eq, ge_iff_le, UInt32.le_iff_toNat_le] at digit
    exact digit.2
  have fits : c.val ≤ 127 := by
    rw [UInt32.le_iff_toNat_le]
    exact Nat.le_trans below (by decide)
  simp [Char.utf8Size, fits]

theorem Digits.byteLength_eq {digits : Text} (isDigits : Digits digits) : byteLength digits = digits.length := by
  obtain ⟨-, isDigit⟩ := isDigits
  induction digits with
  | nil => rfl
  | cons c digits ih =>
    rw [byteLength_cons, utf8Size_of_isDigit (isDigit c List.mem_cons_self),
      ih fun d member => isDigit d (List.mem_cons_of_mem _ member), List.length_cons, Nat.add_comm]

end Grammar

section

variable {digits lower upper : Text} (greedy : Bool) (limit : Nat)

theorem parse_dot_malformed {text : Text} (noBounds : readBounds text = none) :
    parse limit ('.' :: '{' :: text) = refusedBounds .malformedQuantifier ('{' :: text) :=
  parse_dot_refused (by simp [readMultiplicity, noBounds]) limit

theorem Grammar.BoundsOf.parse_dot {min : UInt32} {max : Option UInt32} {source : Text}
    (bounds : BoundsOf min max source) (ordered : ∀ bound ∈ max, min ≤ bound) :
    parse limit ('.' :: (source ++ greedMark greedy)) = .ok [[.leaf .anyChar ⟨min, max, greedy, ordered⟩]] := by
  have quantified : QuantifierOf ⟨min, max, greedy, ordered⟩ (source ++ greedMark greedy) [] :=
    @BoundsOf.quantifierOf ⟨min, max, greedy, ordered⟩ _ _ bounds (by simp [startsQuantifier])
  exact quantified.parse_dot limit

theorem parse_count (isDigits : Digits digits) :
    parse limit ('.' :: (['{'] ++ digits ++ ['}'] ++ greedMark greedy)) =
      match number? digits with
      | some count =>
        if greedy then .ok [[.leaf .anyChar (.exactly count)]]
        else .error ⟨⟨.trailingInput, ['?']⟩, digits.length + 3⟩
      | none => refusedBounds .malformedQuantifier (['{'] ++ digits ++ ['}'] ++ greedMark greedy) := by
  have bounds := isDigits.readBounds_exactly (greedMark greedy)
  cases value : number? digits with
  | none =>
    rw [value] at bounds
    simpa using parse_dot_malformed limit bounds
  | some count =>
    have read : readMultiplicity (['{'] ++ digits ++ ['}'] ++ greedMark greedy) =
        .ok (.exactly count, greedMark greedy) := by
      simp [readMultiplicity, bounds, value]
    cases greedy with
    | true =>
      have quantified : QuantifierOf (.exactly count) (['{'] ++ digits ++ ['}']) [] :=
        .exactly (isDigits.numberOf value)
      simpa [greedMark] using quantified.parse_dot limit
    | false =>
      have sizes : '{'.utf8Size = 1 ∧ '}'.utf8Size = 1 ∧ '?'.utf8Size = 1 := ⟨rfl, rfl, rfl⟩
      rw [parse_dot_marked read]
      simp [greedMark, sizes, isDigits.byteLength_eq]
      omega

theorem parse_atLeast (isDigits : Digits digits) :
    parse limit ('.' :: (['{'] ++ digits ++ [',', '}'] ++ greedMark greedy)) =
      match number? digits with
      | some min => .ok [[.leaf .anyChar ⟨min, none, greedy, by simp⟩]]
      | none => refusedBounds .malformedQuantifier (['{'] ++ digits ++ [',', '}'] ++ greedMark greedy) := by
  cases value : number? digits with
  | none =>
    have bounds := isDigits.readBounds_atLeast (greedMark greedy)
    rw [value] at bounds
    simpa using parse_dot_malformed limit bounds
  | some min => exact (BoundsOf.atLeast (isDigits.numberOf value)).parse_dot greedy limit (by simp)

theorem parse_atMost (isDigits : Digits digits) :
    parse limit ('.' :: (['{', ','] ++ digits ++ ['}'] ++ greedMark greedy)) =
      match number? digits with
      | some max => .ok [[.leaf .anyChar ⟨0, some max, greedy, by simp⟩]]
      | none => refusedBounds .malformedQuantifier (['{', ','] ++ digits ++ ['}'] ++ greedMark greedy) := by
  cases value : number? digits with
  | none =>
    have bounds := isDigits.readBounds_atMost (greedMark greedy)
    rw [value] at bounds
    simpa using parse_dot_malformed limit bounds
  | some max => exact (BoundsOf.atMost (isDigits.numberOf value)).parse_dot greedy limit (by simp)

theorem parse_between (below : Digits lower) (above : Digits upper) :
    parse limit ('.' :: (['{'] ++ lower ++ [','] ++ upper ++ ['}'] ++ greedMark greedy)) =
      match number? lower, number? upper with
      | some min, some max =>
        if ordered : min ≤ max then .ok [[.leaf .anyChar ⟨min, some max, greedy, by simpa using ordered⟩]]
        else refusedBounds (.disorder (.bounds min max))
          (['{'] ++ lower ++ [','] ++ upper ++ ['}'] ++ greedMark greedy)
      | _, _ =>
        refusedBounds .malformedQuantifier (['{'] ++ lower ++ [','] ++ upper ++ ['}'] ++ greedMark greedy) := by
  have bounds := below.readBounds_between above (greedMark greedy)
  cases least : number? lower with
  | none =>
    rw [least] at bounds
    simpa using parse_dot_malformed limit bounds
  | some min =>
    cases most : number? upper with
    | none =>
      rw [least, most] at bounds
      simpa using parse_dot_malformed limit bounds
    | some max =>
      by_cases ordered : min ≤ max
      · have between := BoundsOf.between (below.numberOf least) (above.numberOf most) ordered
        simpa [ordered] using between.parse_dot greedy limit (by simpa using ordered)
      · have read : readMultiplicity (['{'] ++ lower ++ [','] ++ upper ++ ['}'] ++ greedMark greedy) =
            .error ⟨.disorder (.bounds min max),
              ['{'] ++ lower ++ [','] ++ upper ++ ['}'] ++ greedMark greedy⟩ := by
          simp [readMultiplicity, bounds, least, most, Multiplicity.ofBounds, ordered]
        simpa [ordered] using parse_dot_refused read limit

end

/-- Bounds in braces have the values of their digits, whatever the leading zeros, and those that 32 bits do not
hold are refused, before anything is said of their order or of the mark for greed. A count takes no mark. -/
theorem parse_bounds {lower upper : Text} (below : Digits lower) (above : Digits upper) (greedy : Bool)
    (limit : Nat) :
    let least := Nat.ofDigitChars 10 lower 0
    let most := Nat.ofDigitChars 10 upper 0
    let count := ['{'] ++ lower ++ ['}'] ++ greedMark greedy
    let atLeast := ['{'] ++ lower ++ [',', '}'] ++ greedMark greedy
    let atMost := ['{', ','] ++ upper ++ ['}'] ++ greedMark greedy
    let between := ['{'] ++ lower ++ [','] ++ upper ++ ['}'] ++ greedMark greedy
    (parse limit ('.' :: count) =
      if fits : least < UInt32.size then
        if greedy then .ok [[.leaf .anyChar (.exactly (.ofNatLT least fits))]]
        else .error ⟨⟨.trailingInput, ['?']⟩, lower.length + 3⟩
      else refusedBounds .malformedQuantifier count) ∧
    (parse limit ('.' :: atLeast) =
      if fits : least < UInt32.size then
        .ok [[.leaf .anyChar ⟨.ofNatLT least fits, none, greedy, by simp⟩]]
      else refusedBounds .malformedQuantifier atLeast) ∧
    (parse limit ('.' :: atMost) =
      if fits : most < UInt32.size then
        .ok [[.leaf .anyChar ⟨0, some (.ofNatLT most fits), greedy, by simp⟩]]
      else refusedBounds .malformedQuantifier atMost) ∧
    (parse limit ('.' :: between) =
      if fits : least < UInt32.size ∧ most < UInt32.size then
        if ordered : least ≤ most then
          .ok [[.leaf .anyChar ⟨.ofNatLT least fits.1, some (.ofNatLT most fits.2), greedy,
            by simpa [UInt32.le_iff_toNat_le] using ordered⟩]]
        else refusedBounds (.disorder (.bounds (.ofNatLT least fits.1) (.ofNatLT most fits.2))) between
      else refusedBounds .malformedQuantifier between) := by
  intro least most count atLeast atMost between
  refine ⟨?_, ?_, ?_, ?_⟩
  · rw [parse_count greedy limit below, number?]
    split_ifs <;> rfl
  · rw [parse_atLeast greedy limit below, number?]
    split_ifs <;> rfl
  · rw [parse_atMost greedy limit above, number?]
    split_ifs <;> rfl
  · rw [parse_between greedy limit below above, number?, number?]
    by_cases small : least < UInt32.size
    · by_cases small' : most < UInt32.size
      · simp [small, small', least, most, between, UInt32.le_iff_toNat_le]
      · simp [small, small', least, most, between]
    · simp [small, least, most, between]

theorem parse_bounds_inverted :
    let lower : Text := ['0', '0', '7']
    let upper : Text := ['5']
    let large := "4294967296".toList
    Digits lower ∧ Digits upper ∧ Digits large ∧
      parse 0 (['.', '{'] ++ lower ++ ['}', '?']) = .error ⟨⟨.trailingInput, ['?']⟩, 6⟩ ∧
      parse 0 (['.', '{'] ++ lower ++ [',', '}', '?']) = .ok [[.leaf .anyChar ⟨7, none, false, by simp⟩]] ∧
      parse 0 (['.', '{', ','] ++ upper ++ ['}', '?']) = .ok [[.leaf .anyChar ⟨0, some 5, false, by simp⟩]] ∧
      parse 0 (['.', '{'] ++ lower ++ [','] ++ upper ++ ['}', '?']) =
        refusedBounds (.disorder (.bounds 7 5)) (['{'] ++ lower ++ [','] ++ upper ++ ['}', '?']) ∧
      parse 0 (['.', '{'] ++ large ++ [','] ++ upper ++ ['}', '?']) =
        refusedBounds .malformedQuantifier (['{'] ++ large ++ [','] ++ upper ++ ['}', '?']) := by
  intro lower upper large
  have below : Digits lower := ⟨by decide, List.all_eq_true.mp rfl⟩
  have above : Digits upper := ⟨by decide, List.all_eq_true.mp rfl⟩
  have tooLarge : Digits large := ⟨by decide, List.all_eq_true.mp rfl⟩
  have read := parse_bounds below above false 0
  have refused := parse_bounds tooLarge above false 0
  exact ⟨below, above, tooLarge, read.1, read.2.1, read.2.2.1, read.2.2.2, refused.2.2.2⟩

/-! ### Quantifiers as they are written -/

namespace Multiplicity

variable {mult : Multiplicity}

theorem parse_dot_text (noCount : ¬ mult.LazyCount) (limit : Nat) :
    parse limit ('.' :: mult.text) = .ok [[.leaf .anyChar mult.drawn]] := by
  have quantified : QuantifierOf mult.drawn mult.drawn.text [] :=
    (faithful_drawn noCount).quantifierOf (by simp [startsQuantifier])
  rw [text_drawn] at quantified
  exact quantified.parse_dot limit

theorem LazyCount.text_eq (lazy : mult.LazyCount) :
    mult.text = ['{'] ++ decimal mult.min.toNat ++ ['}'] ++ greedMark false := by
  obtain ⟨min, max, greedy, ordered⟩ := mult
  obtain ⟨rfl, rfl, several⟩ : greedy = false ∧ max = some min ∧ 2 ≤ min := lazy
  have several : 1 < min := UInt32.lt_of_lt_of_le (by decide) several
  have notOne : min ≠ 1 := fun one => absurd (one ▸ several) (by decide)
  simp [text, boundsText, repeating, several, notOne, greedMark]

theorem LazyCount.parse_dot_text (lazy : mult.LazyCount) (limit : Nat) :
    parse limit ('.' :: mult.text) =
      .error ⟨⟨.trailingInput, ['?']⟩, (decimal mult.min.toNat).length + 3⟩ := by
  have number := numberOf_decimal mult.min
  rw [lazy.text_eq, parse_count false limit number.digits, number.number?_eq]
  rfl

end Multiplicity

/-- What is written for the multiplicity of any atom of a pattern is a quantifier with the same bounds, and with
the same greed where it makes a difference, unless it is a count with a mark for greed. -/
theorem parse_quantifier_text {limit : Nat} {pattern : Text} {tree : Tree} (other : Nat) :
    parse limit pattern = .ok tree → ∀ atom ∈ Tree.atoms tree,
      ((∃ again, parse other ('.' :: atom.mult.text) = .ok [[.leaf .anyChar again]] ∧
        again.min = atom.mult.min ∧ again.max = atom.mult.max ∧
        (atom.mult.repeating → again.greedy = atom.mult.greedy)) ↔ ¬ atom.mult.LazyCount) := by
  intro _ atom _
  constructor
  · rintro ⟨again, read, -⟩ lazy
    rw [lazy.parse_dot_text] at read
    cases read
  · intro noCount
    refine ⟨atom.mult.drawn, Multiplicity.parse_dot_text noCount other, Multiplicity.min_drawn, ?_, ?_⟩
    · rw [Multiplicity.drawn_eq]
    · intro repeating
      rw [Multiplicity.drawn, if_pos repeating]

theorem parse_quantifier_text_optional :
    let atom : Atom := .leaf (.literal ['a']) ⟨0, some 1, false, by simp⟩
    let tree : Tree := [[.group [[atom], []] (.atLeast 3)]]
    parse 1 "(a{,1}?|){3,}".toList = .ok tree ∧ atom ∈ Tree.atoms tree ∧ ¬ atom.mult.LazyCount ∧
      ∃ again, parse 0 ('.' :: atom.mult.text) = .ok [[.leaf .anyChar again]] ∧
        again.min = atom.mult.min ∧ again.max = atom.mult.max ∧
        (atom.mult.repeating → again.greedy = atom.mult.greedy) := by
  intro atom tree
  have read : parse 1 "(a{,1}?|){3,}".toList = .ok tree := by decide +kernel
  have inside : atom ∈ Tree.atoms tree := by decide +kernel
  have noCount : ¬ atom.mult.LazyCount := by decide
  exact ⟨read, inside, noCount, (parse_quantifier_text 0 read atom inside).mpr noCount⟩

/-- Bounds that are equal take a mark when both are given, and are then written as a count, which takes none. -/
theorem parse_quantifier_text_count :
    let lazy : Multiplicity := ⟨2, some 2, false, by simp⟩
    parse 0 ".{2,2}?".toList = .ok [[.leaf .anyChar lazy]] ∧ lazy.text = "{2}?".toList ∧
      parse 0 ('.' :: lazy.text) = .error ⟨⟨.trailingInput, ['?']⟩, 4⟩ ∧
      ¬ ∃ again, parse 0 ('.' :: lazy.text) = .ok [[.leaf .anyChar again]] := by
  intro lazy
  have refused : parse 0 ('.' :: lazy.text) = .error ⟨⟨.trailingInput, ['?']⟩, 4⟩ := by decide +kernel
  refine ⟨by decide +kernel, by decide, refused, ?_⟩
  rintro ⟨again, read⟩
  rw [refused] at read
  cases read

end RegexPattern
