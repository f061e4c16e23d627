import Mathlib.Algebra.Group.Nat.Defs
import Mathlib.Tactic.SplitIfs
import RegexPattern.Canonical
import RegexPattern.Proofs.Escape
import RegexPattern.Proofs.Grammar
import RegexPattern.Proofs.TreeParts

/-!
Canonical texts are shortest: no construct is written longer than the source it was read from, as
long as that source has no control characters. Canonical texts have none themselves.
-/

namespace RegexPattern

open Text

theorem visible_decimal (n : Nat) : Visible (decimal n) := by
  intro c member
  have digit := isDigit_of_mem_decimal member
  intro control
  simp only [isControl] at control
  have cases : c = '\n' ∨ c = '\t' ∨ c = '\r' ∨ c = '\x08' ∨ c = '\x00' := by simpa using control
  rcases cases with rfl | rfl | rfl | rfl | rfl <;> exact absurd digit (by decide)

theorem Multiplicity.visible_text (mult : Multiplicity) : Visible mult.text := by
  have bounds : Visible mult.boundsText := by
    unfold boundsText
    split
    · split_ifs <;> simp [visible_decimal, isControl]
    · split_ifs <;> simp [visible_decimal, isControl]
  have mark : Visible (if mult.repeating && !mult.greedy then ['?'] else []) := by
    split_ifs <;> simp [isControl]
  exact visible_append.mpr ⟨bounds, mark⟩

theorem Element.visible_text (element : Element) : Visible element.text := by
  cases element with
  | char c => exact visible_escapeChar false c
  | range r => simp [text, CharRange.text, visible_escapeChar, isControl]

theorem Charset.visible_text (set : Charset) : Visible set.text := by
  have elements : Visible (set.elements.toList.flatMap Element.text) :=
    visible_flatMap fun element _ => element.visible_text
  have caret : Visible (if set.negated then ['^'] else []) := by
    split_ifs <;> simp [isControl]
  simp [text, elements, caret, isControl]

theorem Leaf.visible_text (leaf : Leaf) : Visible leaf.text := by
  cases leaf with
  | charset set => exact set.visible_text
  | literal run => exact visible_escape false run
  | _ => simp [text, isControl]

theorem Tree.canonical_cons (branch : Branch) {tree : Tree} (filled : tree ≠ []) :
    Tree.canonical (branch :: tree) = Branch.canonical branch ++ ['|'] ++ Tree.canonical tree := by
  cases tree with
  | nil => exact absurd rfl filled
  | cons => rfl

mutual

theorem Atom.visible_canonical : (atom : Atom) → Visible atom.canonical
  | .leaf leaf mult => visible_append.mpr ⟨leaf.visible_text, mult.visible_text⟩
  | .group content mult => by
    simp [Atom.canonical, Tree.visible_canonical content, mult.visible_text, isControl]

theorem Branch.visible_canonical : (branch : List Atom) → Visible (Branch.canonical branch)
  | [] => visible_nil
  | atom :: rest => visible_append.mpr ⟨Atom.visible_canonical atom, Branch.visible_canonical rest⟩

theorem Tree.visible_canonical : (tree : List (List Atom)) → Visible (Tree.canonical tree)
  | [] => visible_nil
  | [branch] => Branch.visible_canonical branch
  | branch :: next :: rest => by
    simp [Tree.canonical, Branch.visible_canonical branch, Tree.visible_canonical (next :: rest), isControl]

end

namespace Grammar

theorem UnitOf.length_escapeChar_le {c : Char} {unit : Text} (derives : UnitOf c unit)
    (visible : Visible unit) : (escapeChar false c).length ≤ unit.length := by
  cases derives with
  | escaped => exact RegexPattern.length_escapeChar_le c
  | plain plain =>
    have noSlash : c ≠ '\\' := by
      intro slash
      subst slash
      exact absurd plain (by decide)
    exact Nat.le_of_eq (congrArg List.length (escapeChar_of_plain (visible c List.mem_cons_self) noSlash))

theorem RunOf.length_escape_le {run source rest : Text} (derives : RunOf run source rest)
    (visible : Visible source) : (escape false run).length ≤ source.length := by
  induction derives with
  | nil => exact Nat.le_refl _
  | cons unit _ _ ih =>
    obtain ⟨front, back⟩ := visible_append.mp visible
    rw [escape_cons, List.length_append, List.length_append]
    exact Nat.add_le_add (unit.length_escapeChar_le front) (ih back)

theorem LiteralOf.length_escape_le {run source rest : Text} (derives : LiteralOf run source rest)
    (visible : Visible source) : (escape false run).length ≤ source.length := by
  cases derives with
  | single unit => simpa using unit.length_escapeChar_le visible
  | run derives => exact derives.length_escape_le visible

theorem ofDigitChars_lt (digits : Text) (isDigit : ∀ c ∈ digits, c.isDigit) (start : Nat) :
    Nat.ofDigitChars 10 digits start < (start + 1) * 10 ^ digits.length := by
  induction digits generalizing start with
  | nil => simp
  | cons c digits ih =>
    have later := ih (fun d member => isDigit d (List.mem_cons_of_mem _ member))
      (10 * start + (c.toNat - '0'.toNat))
    have digit := isDigit c List.mem_cons_self
    have below : c.toNat - '0'.toNat < 10 := by
      have zero : '0'.toNat = 48 := rfl
      simp [Char.isDigit, UInt32.le_iff_toNat_le] at digit
      omega
    rw [Nat.ofDigitChars_cons, List.length_cons, Nat.pow_succ]
    calc
      _ < (10 * start + (c.toNat - '0'.toNat) + 1) * 10 ^ digits.length := later
      _ ≤ ((start + 1) * 10) * 10 ^ digits.length := Nat.mul_le_mul_right _ (by omega)
      _ = (start + 1) * (10 ^ digits.length * 10) := by rw [Nat.mul_assoc, Nat.mul_comm 10]

theorem NumberOf.length_decimal_le {n : UInt32} {digits : Text} (derives : NumberOf n digits) :
    (decimal n.toNat).length ≤ digits.length := by
  have below := ofDigitChars_lt digits derives.isDigit 0
  rw [derives.value, Nat.zero_add, Nat.one_mul] at below
  exact (Nat.length_toDigits_le_iff (by decide) (List.length_pos_iff.mpr derives.filled)).mpr below

theorem BoundsOf.length_boundsText_le {mult : Multiplicity} {source : Text}
    (derives : BoundsOf mult.min mult.max source) : mult.boundsText.length ≤ source.length := by
  obtain ⟨min, max, greedy, ordered⟩ := mult
  cases derives with
  | plus => exact Nat.le_refl _
  | star => exact Nat.le_refl _
  | atLeast number =>
    have shorter := number.length_decimal_le
    simp only [Multiplicity.boundsText]
    split_ifs
    · simp
    · simp
    · simpa using shorter
  | @between _ max lower upper below above =>
    have lower : (decimal min.toNat).length ≤ lower.length := below.length_decimal_le
    have upper : (decimal max.toNat).length ≤ upper.length := above.length_decimal_le
    simp only [Multiplicity.boundsText]
    split_ifs <;> simp <;> omega
  | @atMost max digits number =>
    have shorter : (decimal max.toNat).length ≤ digits.length := number.length_decimal_le
    simp only [Multiplicity.boundsText]
    split_ifs
    · simp
    · simpa using Nat.le_succ_of_le shorter
    · simp
    · simpa using shorter
    · contradiction

theorem QuantifierOf.length_text_le {mult : Multiplicity} {source rest : Text}
    (derives : QuantifierOf mult source rest) : mult.text.length ≤ source.length := by
  cases derives with
  | optional => exact Nat.le_refl _
  | exactly number =>
    have shorter := number.length_decimal_le
    simp only [Multiplicity.text, Multiplicity.boundsText, Multiplicity.exactly]
    split_ifs <;> simp_all
  | greedy bounds greedy =>
    simpa [Multiplicity.text, greedy] using bounds.length_boundsText_le
  | nonGreedy bounds lazy =>
    have shorter := bounds.length_boundsText_le
    simp only [Multiplicity.text]
    split_ifs <;> simp <;> omega
  | once => exact Nat.le_refl _

theorem MemberOf.length_escapeChar_le {c : Char} {source : Text} (derives : MemberOf c source)
    (visible : Visible source) : (escapeChar false c).length ≤ source.length := by
  cases derives with
  | escaped => exact RegexPattern.length_escapeChar_le c
  | raw noSlash =>
    exact Nat.le_of_eq (congrArg List.length (escapeChar_of_plain (visible c List.mem_cons_self) noSlash))

theorem ElementOf.length_text_le {element : Element} {source rest : Text}
    (derives : ElementOf element source rest) (visible : Visible source) :
    element.text.length ≤ source.length := by
  cases derives with
  | char member => exact member.length_escapeChar_le visible
  | range member member' =>
    simp only [visible_append] at visible
    have first := member.length_escapeChar_le visible.1.1
    have last := member'.length_escapeChar_le visible.2
    simp only [Element.text, CharRange.text, List.length_append]
    omega

theorem length_place_le (element : Element) (elements : List Element) :
    ((ElementSet.place element elements).flatMap Element.text).length ≤
      element.text.length + (elements.flatMap Element.text).length := by
  induction elements with
  | nil => simp [ElementSet.place]
  | cons first rest ih =>
    unfold ElementSet.place
    split_ifs <;> simp only [List.flatMap_cons, List.length_append] at * <;> omega

theorem ElementsOf.length_text_le {set : ElementSet} {source : Text} (derives : ElementsOf set source)
    (visible : Visible source) : (set.toList.flatMap Element.text).length ≤ source.length := by
  induction derives with
  | nil => exact Nat.le_refl _
  | @cons element set source more _ derives _ ih =>
    obtain ⟨front, back⟩ := visible_append.mp visible
    have first := derives.length_text_le front
    have later := ih back
    have placed := length_place_le element set.toList
    rw [List.length_append]
    change ((ElementSet.place element set.toList).flatMap Element.text).length ≤ _
    omega

theorem CharsetOf.length_text_le {set : Charset} {source : Text} (derives : CharsetOf set source)
    (visible : Visible source) : set.text.length ≤ source.length := by
  cases derives with
  | plain derives =>
    simp only [visible_append] at visible
    simpa [Charset.text] using derives.length_text_le visible.1.2
  | negated derives =>
    simp only [visible_append] at visible
    simpa [Charset.text] using derives.length_text_le visible.1.2

theorem LeafOf.length_text_le {leaf : Leaf} {source rest : Text} (derives : LeafOf leaf source rest)
    (visible : Visible source) : leaf.text.length ≤ source.length := by
  cases derives with
  | charset derives => exact derives.length_text_le visible
  | literal derives => exact derives.length_escape_le visible
  | _ => exact Nat.le_refl _

def WrittenShort (tree : Tree) : Prop :=
  ∀ source rest, TreeOf tree source rest → Visible source → (Tree.canonical tree).length ≤ source.length

theorem AtomOf.length_canonical_le_of {atom : Atom} {source rest : Text}
    (inside : ∀ content ∈ atom.content?, WrittenShort content) (derives : AtomOf atom source rest)
    (visible : Visible source) : atom.canonical.length ≤ source.length := by
  cases derives with
  | leaf leaf quantified =>
    have front := leaf.length_text_le (visible_append.mp visible).1
    have back := quantified.length_text_le
    simp only [Atom.canonical, List.length_append]
    omega
  | group content quantified =>
    simp only [visible_append] at visible
    have front := inside _ rfl _ _ content visible.1.1.2
    have back := quantified.length_text_le
    simp only [Atom.canonical, List.length_append]
    omega

theorem BranchOf.length_canonical_le_of {branch : Branch} {source rest : Text}
    (inside : ∀ atom ∈ branch, ∀ content ∈ atom.content?, WrittenShort content)
    (derives : BranchOf branch source rest) (visible : Visible source) :
    (Branch.canonical branch).length ≤ source.length := by
  induction branch generalizing source with
  | nil => exact Nat.zero_le _
  | cons atom branch ih =>
    cases derives with
    | cons first derives =>
      obtain ⟨front, back⟩ := visible_append.mp visible
      have shorter := first.length_canonical_le_of (inside atom List.mem_cons_self) front
      have later := ih (fun atom member => inside atom (List.mem_cons_of_mem _ member)) derives back
      rw [Branch.canonical, List.length_append, List.length_append]
      exact Nat.add_le_add shorter later

theorem writtenShort (tree : Tree) : WrittenShort tree := by
  induction tree using Tree.induct with
  | step tree inside =>
    intro source rest derives visible
    induction tree generalizing source with
    | nil => exact Nat.zero_le _
    | cons branch tree ih =>
      have here := inside branch List.mem_cons_self
      cases derives with
      | last derives => exact derives.length_canonical_le_of here visible
      | cons first derives =>
        simp only [visible_append] at visible
        have shorter := first.length_canonical_le_of here visible.1.1
        have later := ih (fun branch member => inside branch (List.mem_cons_of_mem _ member)) _
          derives visible.2
        rw [Tree.canonical_cons branch derives.ne_nil]
        simp only [List.length_append]
        omega

theorem AtomOf.length_canonical_le {atom : Atom} {source rest : Text} (derives : AtomOf atom source rest)
    (visible : Visible source) : atom.canonical.length ≤ source.length :=
  derives.length_canonical_le_of (fun content _ => writtenShort content) visible

theorem BranchOf.length_canonical_le {branch : Branch} {source rest : Text}
    (derives : BranchOf branch source rest) (visible : Visible source) :
    (Branch.canonical branch).length ≤ source.length :=
  derives.length_canonical_le_of (fun _ _ content _ => writtenShort content) visible

end Grammar

end RegexPattern
