import Mathlib.Control.Monad.Basic
import RegexPattern.Proofs.Failure

/-!
Where rejections point. A reader that stops answers the last part of its text, which starts with what the
cause is about; handing a fault on to the reader of a longer text keeps it as it is.
-/

namespace RegexPattern

open Grammar Reader Text

/-- The fragment is one that the cause points at, where at most `limit` groups may be open. -/
def Cause.PointsAt (limit : Nat) (fragment : Text) : Cause → Prop
  | unterminatedCharset => fragment = []
  | danglingEscape => fragment = ['\\']
  | malformedQuantifier => fragment.head? = some '{'
  | unclosedGroup => ∀ c ∈ fragment.head?, isOpener c
  | nestingTooDeep named => named = limit ∧ fragment.head? = some '('
  | trailingInput => ∃ c ∈ fragment.head?, c = ')' ∨ isOpener c
  | disorder (.bounds min max) => max < min ∧ fragment.head? = some '{'
  | disorder (.range first last) => last < first ∧ ∃ source source' rest, MemberOf first source ∧
      MemberOf last source' ∧ fragment = source ++ ['-'] ++ source' ++ rest

/-- The fault is one of a reader of the text: its fragment is the last part of the text, and one that its
cause points at. -/
structure Fault.PointsInto (limit : Nat) (text : Text) (fault : Fault) : Prop where
  isSuffix : fault.fragment <:+ text
  pointsAt : fault.cause.PointsAt limit fault.fragment

theorem Fault.PointsInto.append {limit : Nat} {text : Text} {fault : Fault}
    (points : fault.PointsInto limit text) (front : Text) : fault.PointsInto limit (front ++ text) :=
  ⟨points.isSuffix.trans (List.suffix_append front text), points.pointsAt⟩

theorem Fault.offset_within (fault : Fault) (front : Text) :
    (fault.within (front ++ fault.fragment)).offset = byteLength front := by
  rw [within, byteLength_append, Nat.add_sub_cancel]

namespace Reader

variable {limit allowance : Nat} {text rest : Text} {fault : Fault}

theorem pointsInto_of_readUnit (read : readUnit text = .error fault) : fault.PointsInto limit text := by
  unfold readUnit at read
  split at read
  · cases read
  · cases read
  · cases read
    exact ⟨List.suffix_refl _, rfl⟩
  · cases read

theorem pointsInto_of_readRun (read : readRun text = .error fault) : fault.PointsInto limit text := by
  fun_induction readRun text with
  | case1 text _ stopped =>
    cases read
    exact pointsInto_of_readUnit stopped
  | case2 => cases read
  | case3 => cases read
  | case4 text c rest unitRead _ ih =>
    obtain ⟨unit, rfl, -⟩ := unitOf_of_readUnit unitRead
    exact (ih (map_eq_error.mp read)).append unit

theorem pointsInto_of_readLiteral (read : readLiteral text = .error fault) :
    fault.PointsInto limit text := by
  unfold readLiteral at read
  split at read
  · next stopped =>
    cases read
    exact pointsInto_of_readUnit stopped
  · cases read
  · next c rest unitRead =>
    obtain ⟨unit, rfl, -⟩ := unitOf_of_readUnit unitRead
    split at read
    · cases read
    · exact (pointsInto_of_readRun (map_eq_error.mp read)).append unit

theorem pointsInto_of_readMember (read : readMember text = .error fault) : fault.PointsInto limit text := by
  unfold readMember at read
  split at read
  · cases read
    exact ⟨List.suffix_refl _, rfl⟩
  · cases read
  · cases read
    exact ⟨List.suffix_refl _, rfl⟩
  · cases read

theorem pointsInto_of_readElement (read : readElement text = .error fault) :
    fault.PointsInto limit text := by
  unfold readElement at read
  split at read
  · next stopped =>
    cases read
    exact pointsInto_of_readMember stopped
  · next first after memberRead =>
    obtain ⟨source, rfl, member⟩ := memberOf_of_readMember memberRead
    split at read
    · next starts =>
      obtain ⟨c, more, rfl, -⟩ := startsRangeEnd_eq_true starts
      split at read
      · next stopped =>
        cases read
        have points : fault.PointsInto limit (c :: more) := pointsInto_of_readMember stopped
        simpa using points.append (source ++ ['-'])
      · next last rest memberRead' =>
        obtain ⟨source', split, member'⟩ := memberOf_of_readMember memberRead'
        split at read
        · next disorder refused =>
          cases read
          obtain ⟨inverted, rfl⟩ := CharRange.ofEnds_eq_error_iff.mp refused
          refine ⟨List.suffix_refl _, inverted, source, source', rest, member, member', ?_⟩
          rw [List.tail_cons] at split
          simp [split]
        · cases read
    · cases read

theorem pointsInto_of_readElements (read : readElements text = .error fault) :
    fault.PointsInto limit text := by
  fun_induction readElements text with
  | case1 =>
    cases read
    exact ⟨List.suffix_refl _, rfl⟩
  | case2 => cases read
  | case3 c text _ _ stopped =>
    cases read
    exact pointsInto_of_readElement stopped
  | case4 c text _ element after elementRead ih =>
    obtain ⟨source, split, -⟩ := elementOf_of_readElement elementRead
    rw [split]
    exact (ih (map_eq_error.mp read)).append source

theorem pointsInto_of_readCharset (read : readCharset text = .error fault) :
    fault.PointsInto limit text := by
  unfold readCharset at read
  split at read
  · exact (pointsInto_of_readElements (map_eq_error.mp read)).append ['^']
  · exact pointsInto_of_readElements (map_eq_error.mp read)

theorem pointsInto_of_readLeaf (read : readLeaf text = .error fault) : fault.PointsInto limit text := by
  unfold readLeaf at read
  split at read
  · exact (pointsInto_of_readCharset (map_eq_error.mp read)).append ['[']
  · cases read
  · cases read
  · cases read
  · exact pointsInto_of_readLiteral (map_eq_error.mp read)

theorem pointsInto_of_readMultiplicity (read : readMultiplicity text = .error fault) :
    fault.PointsInto limit text := by
  unfold readMultiplicity at read
  split at read
  · cases read
  · cases read
  · cases read
  · split at read
    · cases read
      exact ⟨List.suffix_refl _, rfl⟩
    · cases read
    · next min max after _ =>
      split at read
      · next disorder refused =>
        cases read
        obtain ⟨upper, _, inverted, rfl⟩ := Multiplicity.ofBounds_eq_error_iff.mp refused
        exact ⟨List.suffix_refl _, inverted, rfl⟩
      · cases read
  · cases read

theorem head_of_readUnit_eq_none (read : readUnit text = .ok none) :
    ∀ c ∈ text.head?, c ≠ '\\' ∧ ¬ isPlain c := by
  unfold readUnit at read
  split at read
  · nofun
  · cases read
  · cases read
  · next c rest noPair noSlash =>
    intro d first
    cases first
    refine ⟨?_, by simpa using read⟩
    rintro rfl
    cases rest with
    | nil => exact noSlash rfl rfl
    | cons c more => exact noPair c more rfl rfl

theorem readUnit_eq_none_of_readLiteral (read : readLiteral text = .ok ([], rest)) :
    readUnit text = .ok none := by
  unfold readLiteral at read
  split at read
  · cases read
  · next noUnit => exact noUnit
  · split at read
    · cases read
    · obtain ⟨_, -, same⟩ := map_eq_ok.mp read
      cases same

theorem treeStops_of_readLeaf_eq_none (noBar : ∀ more, text ≠ '|' :: more) (noGroup : ∀ more, text ≠ '(' :: more)
    (read : readLeaf text = .ok none) : TreeStops text := by
  unfold readLeaf at read
  split at read
  · obtain ⟨_, -, same⟩ := map_eq_ok.mp read
    cases same
  · cases read
  · cases read
  · cases read
  · next _ noDot noCaret noDollar =>
    obtain ⟨⟨run, after⟩, literalRead, same⟩ := map_eq_ok.mp read
    simp only [ite_eq_left_iff, reduceCtorEq, imp_false, not_not] at same
    subst same
    intro c first
    obtain ⟨more, rfl⟩ := List.head?_eq_some_iff.mp first
    obtain ⟨noSlash, special⟩ := head_of_readUnit_eq_none (readUnit_eq_none_of_readLiteral literalRead) c first
    have apart : c ≠ '.' ∧ c ≠ '^' ∧ c ≠ '$' ∧ c ≠ '|' ∧ c ≠ '(' :=
      ⟨fun same => noDot more (same ▸ rfl), fun same => noCaret more (same ▸ rfl),
        fun same => noDollar more (same ▸ rfl), fun same => noBar more (same ▸ rfl),
        fun same => noGroup more (same ▸ rfl)⟩
    simp only [isPlain, isMetachar, isOpener, List.mem_cons, List.not_mem_nil, decide_eq_true_eq] at special ⊢
    grind

theorem treeStops_of_readTree {tree : Tree} (read : readTree limit allowance text = .ok (tree, rest)) :
    TreeStops rest := by
  induction size : text.length using Nat.strongRecOn generalizing text tree allowance with
  | ind bound ih =>
    subst size
    by_cases bar : ∃ more, text = '|' :: more
    · obtain ⟨more, rfl⟩ := bar
      rw [readTree_bar] at read
      obtain ⟨⟨tree', after⟩, read', same⟩ := map_eq_ok.mp read
      cases same
      exact ih _ (by simp) read' rfl
    by_cases group : ∃ more, text = '(' :: more
    · obtain ⟨more, rfl⟩ := group
      obtain _ | inner := allowance
      · rw [readTree_group_zero] at read
        cases read
      obtain ⟨content, after, mult, after', tree', inside, quantified, read', -⟩ := readTree_group_eq_ok read
      have shorter := length_readTree inside
      have shorter' := length_readMultiplicity quantified
      refine ih after'.length ?_ read' rfl
      rw [List.length_cons] at shorter ⊢
      omega
    · have noBar (more : Text) : text ≠ '|' :: more := fun same => bar ⟨more, same⟩
      have noGroup (more : Text) : text ≠ '(' :: more := fun same => group ⟨more, same⟩
      rcases readTree_leaf_eq_ok noBar noGroup read with
        ⟨-, rfl, noLeaf⟩ | ⟨leaf, after, mult, after', tree', leafRead, quantified, read', -⟩
      · exact treeStops_of_readLeaf_eq_none noBar noGroup noLeaf
      · have shorter := length_readLeaf leafRead
        have shorter' := length_readMultiplicity quantified
        exact ih after'.length (by omega) read' rfl

theorem pointsInto_of_closeGroup (stops : TreeStops text) (read : closeGroup text = .error fault) :
    fault.PointsInto limit text := by
  obtain ⟨open_, rfl⟩ := closeGroup_eq_error_iff.mp read
  refine ⟨List.suffix_refl _, fun c first => (stops c first).resolve_left ?_⟩
  rintro rfl
  exact open_ first

/-- Wherever a reader of trees stops, it points at the cause. -/
theorem pointsInto_of_readTree (read : readTree limit allowance text = .error fault) :
    fault.PointsInto limit text := by
  have fails := failsWith_of_readTree read
  clear read
  induction fails with
  | bar _ ih => exact ih.append ['|']
  | refused => exact ⟨List.suffix_refl _, rfl, rfl⟩
  | inside _ ih => exact ih.append ['(']
  | unclosed inside stopped =>
    obtain ⟨source, rfl, -⟩ := treeOf_of_readTree inside
    exact (pointsInto_of_closeGroup (treeStops_of_readTree inside) stopped).append ('(' :: source)
  | @groupQuantifier _ _ after _ fault inside stopped =>
    obtain ⟨source, rfl, -⟩ := treeOf_of_readTree inside
    have points : fault.PointsInto limit after := pointsInto_of_readMultiplicity stopped
    simpa using points.append ('(' :: source ++ [')'])
  | leaf _ _ stopped => exact pointsInto_of_readLeaf stopped
  | leafQuantifier _ _ leafRead stopped =>
    obtain ⟨source, rfl, -⟩ := leafOf_of_readLeaf leafRead
    exact (pointsInto_of_readMultiplicity stopped).append source
  | @behind _ source _ _ _ _ _ _ ih => exact ih.append source

end Reader

variable {limit : Nat} {pattern : Text} {rejection : Rejection}

theorem exists_fault_of_parse (read : parse limit pattern = .error rejection) :
    ∃ fault : Fault, fault.PointsInto limit pattern ∧ rejection = fault.within pattern := by
  rcases parse_eq_error read with ⟨fault, stopped, rfl⟩ | ⟨tree, rest, filled, stopped, rfl⟩
  · exact ⟨fault, pointsInto_of_readTree stopped, rfl⟩
  · obtain ⟨source, rfl, -⟩ := treeOf_of_readTree stopped
    refine ⟨_, ⟨List.suffix_append source rest, ?_⟩, rfl⟩
    obtain ⟨c, more, rfl⟩ := List.exists_cons_of_ne_nil filled
    exact ⟨c, rfl, treeStops_of_readTree stopped c rfl⟩

/-- A rejection points at its cause: the fragment is what is left of the pattern at the offset, and it starts
with what the cause is about. -/
theorem points_of_parse_eq_error (read : parse limit pattern = .error rejection) :
    (∃ front, pattern = front ++ rejection.fragment ∧ rejection.offset = byteLength front) ∧
      rejection.cause.PointsAt limit rejection.fragment := by
  obtain ⟨fault, ⟨⟨front, rfl⟩, points⟩, rfl⟩ := exists_fault_of_parse read
  exact ⟨⟨front, rfl, fault.offset_within front⟩, points⟩

theorem points_of_parse_range :
    let pattern : Text := ['é', '(', '[', 'z', '-', '\\', 'a', ']']
    let rejection : Rejection := ⟨⟨.disorder (.range 'z' 'a'), ['z', '-', '\\', 'a', ']']⟩, 4⟩
    parse 1 pattern = .error rejection ∧
      (∃ front, pattern = front ++ rejection.fragment ∧ rejection.offset = byteLength front) ∧
        rejection.cause.PointsAt 1 rejection.fragment := by
  intro pattern rejection
  have read : parse 1 pattern = .error rejection := by decide +kernel
  exact ⟨read, points_of_parse_eq_error read⟩

end RegexPattern
