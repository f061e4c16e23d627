import RegexPattern.Reader.Charset
import RegexPattern.Proofs.Grammar

/-!
The reader of charsets against the grammar. Whether a dash makes a range is decided inside the
brackets, so that no charset depends on what follows it.
-/

namespace RegexPattern.Grammar
open Reader

theorem MemberOf.readMember_append {c : Char} {source : Text} (derives : MemberOf c source)
    (rest : Text) : readMember (source ++ rest) = .ok (c, rest) := by
  cases derives with
  | escaped => rfl
  | raw noEscape =>
    rw [List.cons_append, List.nil_append]
    unfold readMember
    split <;> simp_all

theorem memberOf_of_readMember {c : Char} {text rest : Text} (read : readMember text = .ok (c, rest)) :
    ∃ source, text = source ++ rest ∧ MemberOf c source := by
  unfold readMember at read
  split at read
  · simp at read
  · cases read
    exact ⟨['\\', c], rfl, .escaped c⟩
  · simp at read
  · next first after noPair noSlash =>
    cases read
    refine ⟨[c], rfl, .raw ?_⟩
    intro same
    subst same
    cases rest with
    | nil => exact noSlash rfl rfl
    | cons d more => exact noPair d more rfl rfl

theorem startsRangeEnd_eq_false_iff {text : Text} :
    startsRangeEnd text = false ↔ ∀ next more, text = '-' :: next :: more → next = ']' := by
  unfold startsRangeEnd
  split
  · simp
  · next noDash => simp_all

/-- Behind an element nothing past the closing bracket is looked at. -/
theorem ElementOf.of_closing {element : Element} {source more rest rest' : Text}
    (derives : ElementOf element source (more ++ ']' :: rest)) :
    ElementOf element source (more ++ ']' :: rest') := by
  cases derives with
  | range first last open_ => exact .range first last open_
  | char member alone =>
    apply ElementOf.char member
    intro next after same
    match more with
    | [] => simp at same
    | [_] =>
      obtain ⟨-, same⟩ := List.cons.inj same
      exact (List.cons.inj same).1.symm
    | first :: second :: tail =>
      obtain ⟨dash, same⟩ := List.cons.inj same
      obtain ⟨isNext, -⟩ := List.cons.inj same
      exact isNext ▸ alone second (tail ++ ']' :: rest) (by rw [dash]; rfl)

theorem ElementOf.readElement_append {element : Element} {source rest : Text}
    (derives : ElementOf element source rest) : readElement (source ++ rest) = .ok (element, rest) := by
  unfold readElement
  cases derives with
  | char member alone =>
    simp only [member.readMember_append, startsRangeEnd_eq_false_iff.mpr alone]
    rfl
  | @range range first last _ member member' open_ =>
    have starts : startsRangeEnd ('-' :: (last ++ rest)) = true := by
      obtain ⟨d, more, rfl, distinct⟩ := member'.head
      simp [startsRangeEnd, distinct open_]
    simp [List.append_assoc, member.readMember_append, member'.readMember_append, starts,
      CharRange.ofEnds, range.first_le_last]

theorem startsRangeEnd_eq_true {text : Text} (starts : startsRangeEnd text = true) :
    ∃ c more, text = '-' :: c :: more ∧ c ≠ ']' := by
  unfold startsRangeEnd at starts
  split at starts
  · next c more => exact ⟨c, more, rfl, by simpa using starts⟩
  · simp at starts

theorem elementOf_of_readElement {element : Element} {text rest : Text}
    (read : readElement text = .ok (element, rest)) :
    ∃ source, text = source ++ rest ∧ ElementOf element source rest := by
  unfold readElement at read
  split at read
  · simp at read
  · next first after memberRead =>
    obtain ⟨source, rfl, member⟩ := memberOf_of_readMember memberRead
    split at read
    · next starts =>
      obtain ⟨c, more, rfl, open_⟩ := startsRangeEnd_eq_true starts
      split at read
      · simp at read
      · next last after' memberRead' =>
        obtain ⟨source', same, member'⟩ := memberOf_of_readMember memberRead'
        split at read
        · simp at read
        · next range ends =>
          cases read
          unfold CharRange.ofEnds at ends
          split at ends
          · cases ends
            refine ⟨source ++ ['-'] ++ source', ?_, .range member member' ?_⟩
            · rw [List.append_assoc, List.append_assoc, ← same]
              rfl
            · intro closing
              rw [closing] at same
              exact open_ (List.cons.inj same).1
          · simp at ends
    · next alone =>
      cases read
      exact ⟨source, rfl, .char member (startsRangeEnd_eq_false_iff.mp (by simpa using alone))⟩

theorem ElementOf.readElements_append {element : Element} {source rest : Text}
    (derives : ElementOf element source rest) (open_ : source.head? ≠ some ']') :
    readElements (source ++ rest) =
      (readElements rest).map fun (set, after) => (set.insert element, after) := by
  have read := derives.readElement_append
  obtain ⟨c, tail, rfl⟩ := List.exists_cons_of_ne_nil derives.ne_nil
  have notClosing : c ≠ ']' := fun same => open_ (same ▸ rfl)
  rw [List.cons_append] at read ⊢
  rw [readElements]
  · split
    · next failed => simp [read] at failed
    · next read' =>
      rw [read] at read'
      cases read'
      rfl
  · exact notClosing

theorem readElements_of_readElement_eq_error {c : Char} {text : Text} {fault : Fault}
    (failed : readElement (c :: text) = .error fault) (open_ : c ≠ ']') :
    readElements (c :: text) = .error fault := by
  rw [readElements]
  · split
    · next failed' =>
      rw [failed] at failed'
      cases failed'
      rfl
    · next read => simp [failed] at read
  · exact open_

theorem ElementsOf.readElements_append {set : ElementSet} {source : Text} (derives : ElementsOf set source)
    (rest : Text) : readElements (source ++ ']' :: rest) = .ok (set, rest) := by
  induction derives with
  | nil => rw [List.nil_append, readElements]
  | @cons element set source more open_ derives _ ih =>
    have closing : ElementOf element source (more ++ ']' :: rest) := derives.of_closing
    rw [List.append_assoc, closing.readElements_append open_, ih]
    rfl

theorem elementsOf_of_readElements {set : ElementSet} {text rest : Text}
    (read : readElements text = .ok (set, rest)) :
    ∃ source, text = source ++ ']' :: rest ∧ ElementsOf set source := by
  fun_induction readElements text generalizing set with
  | case1 => simp at read
  | case2 =>
    cases read
    exact ⟨[], rfl, .nil⟩
  | case3 => simp at read
  | case4 c text notClosing element after elementRead ih =>
    obtain ⟨⟨set', rest'⟩, read', same⟩ := map_eq_ok.1 read
    cases same
    obtain ⟨source, split, derives⟩ := elementOf_of_readElement elementRead
    obtain ⟨more, rfl, elements⟩ := ih read'
    refine ⟨source ++ more, by rw [split, List.append_assoc], .cons ?_ derives.of_closing elements⟩
    obtain ⟨d, tail, rfl⟩ := List.exists_cons_of_ne_nil derives.ne_nil
    obtain ⟨rfl, -⟩ := List.cons.inj split
    simpa using notClosing

theorem CharsetOf.readCharset_append {set : Charset} {source : Text} (derives : CharsetOf set source)
    (rest : Text) : ∃ inner, source ++ rest = '[' :: inner ∧ readCharset inner = .ok (set, rest) := by
  cases derives with
  | @plain set source elements noCaret =>
    refine ⟨source ++ ']' :: rest, by simp, ?_⟩
    unfold readCharset
    split
    · next text after caret =>
      cases source with
      | nil => simp at caret
      | cons c more => exact absurd (congrArg some (List.cons.inj caret).1) noCaret
    · rw [elements.readElements_append]
      rfl
  | @negated set source elements =>
    refine ⟨'^' :: (source ++ ']' :: rest), by simp, ?_⟩
    simp [readCharset, elements.readElements_append]

theorem charsetOf_of_readCharset {set : Charset} {text rest : Text}
    (read : readCharset text = .ok (set, rest)) :
    ∃ source, '[' :: text = source ++ rest ∧ CharsetOf set source := by
  unfold readCharset at read
  split at read
  · obtain ⟨⟨set', rest'⟩, read', same⟩ := map_eq_ok.1 read
    cases same
    obtain ⟨source, rfl, elements⟩ := elementsOf_of_readElements read'
    exact ⟨['[', '^'] ++ source ++ [']'], by simp, .negated elements⟩
  · next noCaret =>
    obtain ⟨⟨set', rest'⟩, read', same⟩ := map_eq_ok.1 read
    cases same
    obtain ⟨source, rfl, elements⟩ := elementsOf_of_readElements read'
    refine ⟨['['] ++ source ++ [']'], by simp, .plain elements ?_⟩
    intro caret
    obtain ⟨more, rfl⟩ := List.head?_eq_some_iff.mp caret
    exact noCaret _ rfl

end RegexPattern.Grammar
