import RegexPattern.Reader.Literal
import RegexPattern.Proofs.Grammar

/-!
The readers of units, runs and literals against the grammar. A backslash at the end of the text is
the one rest at which the grammar may stop and the reader refuses the text.
-/

namespace RegexPattern.Grammar
open Reader

theorem UnitOf.readUnit_append {c : Char} {unit : Text} (derives : UnitOf c unit) (rest : Text) :
    readUnit (unit ++ rest) = .ok (some (c, rest)) := by
  cases derives with
  | escaped => rfl
  | plain plain =>
    rw [List.cons_append, List.nil_append]
    unfold readUnit
    split <;> simp_all [isPlain, isMetachar]

theorem unitOf_of_readUnit {c : Char} {text rest : Text} (read : readUnit text = .ok (some (c, rest))) :
    ∃ unit, text = unit ++ rest ∧ UnitOf c unit := by
  unfold readUnit at read
  split at read
  · simp at read
  · cases read
    exact ⟨_, rfl, .escaped c⟩
  · simp at read
  · next first after _ _ =>
    simp only [Except.ok.injEq, Option.ite_none_right_eq_some, Option.some.injEq, Prod.mk.injEq] at read
    obtain ⟨plain, rfl, rfl⟩ := read
    exact ⟨[first], rfl, .plain plain⟩

theorem readUnit_eq_none {text : Text} (ends : RunEnds text)
    (bare : ∀ c rest, readUnit text ≠ .ok (some (c, rest))) (closed : text ≠ ['\\']) :
    readUnit text = .ok none := by
  unfold readUnit at bare ⊢
  split at bare
  · rfl
  · exact absurd rfl (bare _ _)
  · exact absurd rfl closed
  · split
    · next c after _ _ plain =>
      rw [if_pos plain] at bare
      exact absurd rfl (bare c after)
    · rfl

theorem RunEnds.readRun_eq {rest : Text} (ends : RunEnds rest) (closed : rest ≠ ['\\']) :
    readRun rest = .ok ([], rest) := by
  unfold readRun
  split
  · next fault read =>
    have := readUnit_eq_none ends (by simp [read]) closed
    simp [this] at read
  · rfl
  · next c after read =>
    obtain ⟨unit, rfl, derives⟩ := unitOf_of_readUnit read
    rw [if_pos (ends c unit after derives rfl)]

theorem UnitOf.readRun_append {c : Char} {unit rest : Text} (derives : UnitOf c unit)
    (unquantified : ¬ startsQuantifier rest) :
    readRun (unit ++ rest) = (readRun rest).map fun (run, after) => (c :: run, after) := by
  rw [readRun]
  split
  · next read => simp [derives.readUnit_append] at read
  · next read => simp [derives.readUnit_append] at read
  · next read =>
    rw [derives.readUnit_append] at read
    cases read
    rw [if_neg unquantified]

theorem RunOf.readRun_append {run source rest : Text} (derives : RunOf run source rest)
    (closed : rest ≠ ['\\']) : readRun (source ++ rest) = .ok (run, rest) := by
  induction derives with
  | nil ends => exact ends.readRun_eq closed
  | cons unit unquantified _ ih =>
    rw [List.append_assoc, unit.readRun_append unquantified, ih closed]
    rfl

theorem runOf_of_readRun {text run rest : Text} (read : readRun text = .ok (run, rest)) :
    ∃ source, text = source ++ rest ∧ RunOf run source rest := by
  fun_induction readRun text generalizing run with
  | case1 => simp at read
  | case2 text noUnit =>
    cases read
    refine ⟨[], rfl, .nil ?_⟩
    intro c unit after derives same
    subst same
    simp [derives.readUnit_append] at noUnit
  | case3 text c after unitRead quantified =>
    cases read
    refine ⟨[], rfl, .nil ?_⟩
    intro c' unit after' derives same
    subst same
    rw [derives.readUnit_append] at unitRead
    cases unitRead
    exact quantified
  | case4 text c after unitRead unquantified ih =>
    obtain ⟨⟨run', rest'⟩, read', same⟩ := map_eq_ok.1 read
    cases same
    obtain ⟨unit, rfl, derives⟩ := unitOf_of_readUnit unitRead
    obtain ⟨source, rfl, runs⟩ := ih read'
    exact ⟨unit ++ source, (List.append_assoc ..).symm, .cons derives unquantified runs⟩

theorem LiteralOf.readLiteral_append {run source rest : Text} (derives : LiteralOf run source rest)
    (closed : rest ≠ ['\\']) : readLiteral (source ++ rest) = .ok (run, rest) := by
  unfold readLiteral
  cases derives with
  | single unit _ quantified => simp only [unit.readUnit_append, if_pos quantified]
  | run runs filled _ =>
    cases runs with
    | nil => exact absurd rfl filled
    | cons unit unquantified more =>
      simp only [List.append_assoc, unit.readUnit_append, if_neg unquantified, more.readRun_append closed]
      rfl

theorem literalOf_of_readLiteral {text run rest : Text} (read : readLiteral text = .ok (run, rest))
    (filled : run ≠ []) (noCharset : text.head? ≠ some '[') :
    ∃ source, text = source ++ rest ∧ LiteralOf run source rest := by
  unfold readLiteral at read
  split at read
  · simp at read
  · cases read
    exact absurd rfl filled
  · next c after unitRead =>
    obtain ⟨unit, rfl, derives⟩ := unitOf_of_readUnit unitRead
    split at read
    · next quantified =>
      cases read
      refine ⟨unit, rfl, .single derives ?_ quantified⟩
      cases derives with
      | escaped => simp
      | plain => exact noCharset
    · next unquantified =>
      obtain ⟨⟨run', rest'⟩, read', same⟩ := map_eq_ok.1 read
      cases same
      obtain ⟨source, rfl, runs⟩ := runOf_of_readRun read'
      refine ⟨unit ++ source, (List.append_assoc ..).symm, .run (.cons derives unquantified runs) filled ?_⟩
      cases derives with
      | escaped => simp
      | plain => exact noCharset

end RegexPattern.Grammar
