import RegexPattern.Metachar
import RegexPattern.Reader.Reading

/-!
Reading literals. A literal is a run of units, each an escaped pair or a plain character. A
quantifier binds to one unit only, so the run ends before a unit that a quantifier follows; such
a unit makes a literal of its own.
-/

namespace RegexPattern.Reader

def readUnit : Text → Except Fault (Option (Char × Text))
  | [] => .ok none
  | '\\' :: c :: rest => .ok (some (c, rest))
  | ['\\'] => .error ⟨.danglingEscape, ['\\']⟩
  | c :: rest => .ok (if isPlain c then some (c, rest) else none)

theorem length_readUnit {text rest : Text} {c : Char}
    (unit : readUnit text = .ok (some (c, rest))) : rest.length < text.length := by
  unfold readUnit at unit
  split at unit
  · simp at unit
  · simp only [Except.ok.injEq, Option.some.injEq, Prod.mk.injEq] at unit
    rw [← unit.2, List.length_cons, List.length_cons]
    omega
  · simp at unit
  · simp only [Except.ok.injEq, Option.ite_none_right_eq_some, Option.some.injEq,
      Prod.mk.injEq] at unit
    rw [← unit.2.2, List.length_cons]
    omega

def readRun (text : Text) : Reading Text :=
  match _ : readUnit text with
  | .error fault => .error fault
  | .ok none => .ok ([], text)
  | .ok (some (c, rest)) =>
    if startsQuantifier rest then .ok ([], text)
    else (readRun rest).map fun (run, after) => (c :: run, after)
termination_by text.length
decreasing_by exact length_readUnit ‹_›

/-- A literal: one unit that a quantifier follows, or else a run. -/
def readLiteral (text : Text) : Reading Text :=
  match readUnit text with
  | .error fault => .error fault
  | .ok none => .ok ([], text)
  | .ok (some (c, rest)) =>
    if startsQuantifier rest then .ok ([c], rest)
    else (readRun rest).map fun (run, after) => (c :: run, after)

theorem length_readRun {text run rest : Text} (read : readRun text = .ok (run, rest)) :
    rest.length ≤ text.length := by
  fun_induction readRun text generalizing run with
  | case1 => simp at read
  | case2 => simp_all
  | case3 => simp_all
  | case4 text c after unit _ ih =>
    obtain ⟨⟨run', rest'⟩, read', same⟩ := map_eq_ok.1 read
    cases same
    have shorter := length_readUnit unit
    have later := ih read'
    omega

theorem length_readLiteral {text run rest : Text} (read : readLiteral text = .ok (run, rest)) :
    run = [] ∧ rest = text ∨ rest.length < text.length := by
  unfold readLiteral at read
  split at read
  · simp at read
  · simp_all
  · next c after unit =>
    have shorter := length_readUnit unit
    split at read
    · simp_all
    · obtain ⟨⟨run', rest'⟩, read', same⟩ := map_eq_ok.1 read
      have later := length_readRun read'
      cases same
      exact .inr (by omega)

end RegexPattern.Reader
