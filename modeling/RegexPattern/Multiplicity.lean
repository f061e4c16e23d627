import RegexPattern.Disorder

/-!
How often an atom may occur: at least `min` times, at most `max` times or without a limit, and
whether as often as possible (greedy) or as seldom as possible.
-/

namespace RegexPattern

/-- The bounds on the number of occurrences of an atom; no `max` means no upper limit. -/
structure Multiplicity where
  min : UInt32
  max : Option UInt32
  greedy : Bool
  min_le_max : ∀ limit ∈ max, min ≤ limit := by simp
deriving DecidableEq

namespace Multiplicity

/-- Exactly one occurrence, which is what an atom without a quantifier has. -/
def once : Multiplicity := { min := 1, max := some 1, greedy := true }

def optional : Multiplicity := { min := 0, max := some 1, greedy := true }

def atLeast (min : UInt32) : Multiplicity := { min, max := none, greedy := true }

def exactly (count : UInt32) : Multiplicity := { min := count, max := some count, greedy := true }

def ofBounds (min : UInt32) : Option UInt32 → Except Disorder Multiplicity
  | none => .ok (atLeast min)
  | some max =>
    if ordered : min ≤ max then
      .ok { min, max := some max, greedy := true, min_le_max := by simpa using ordered }
    else .error (.bounds min max)

theorem ofBounds_eq_error_iff {min : UInt32} {max : Option UInt32} {disorder : Disorder} :
    ofBounds min max = .error disorder ↔
      ∃ limit ∈ max, limit < min ∧ disorder = .bounds min limit := by
  cases max with
  | none => simp [ofBounds]
  | some limit =>
    by_cases ordered : min ≤ limit
    · have notBelow : ¬ limit < min := UInt32.not_lt.2 ordered
      simp [ofBounds, ordered, notBelow]
    · have below : limit < min := UInt32.not_le.1 ordered
      simp [ofBounds, ordered, below, eq_comm]

def nonGreedy (mult : Multiplicity) : Multiplicity := { mult with greedy := false }

def unbounded (mult : Multiplicity) : Bool := mult.max.isNone

def repeating (mult : Multiplicity) : Bool := mult.max.all (1 < ·)

end Multiplicity

end RegexPattern
