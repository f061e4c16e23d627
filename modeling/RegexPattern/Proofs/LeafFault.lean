import RegexPattern.Proofs.Exchange
import RegexPattern.Proofs.Reader.Tree

/-!
What a fault in a leaf or a quantifier means for longer texts. Either the text ended too early, and there is
a text that completes it, or something in it is out of order, and the fault is the same when the text goes
on. Malformed bounds may be either.
-/

namespace RegexPattern

open Grammar Reader

namespace Fault

def extend (more : Text) (fault : Fault) : Fault := { fault with fragment := fault.fragment ++ more }

def EndsEarly (fault : Fault) : Prop :=
  fault.cause = .unterminatedCharset ∨ fault.cause = .danglingEscape

def IsDisorder (fault : Fault) : Prop := ∃ disorder, fault.cause = .disorder disorder

end Fault

variable {text rest more : Text} {fault : Fault}

namespace Grammar

/-- A run fails only at a backslash that nothing follows; a second one completes it. -/
theorem runOf_of_readRun_eq_error (read : readRun text = .error fault) :
    fault.cause = .danglingEscape ∧
      ∃ run, run ≠ [] ∧ ∀ after, Boundary after → RunOf run (text ++ ['\\']) after := by
  fun_induction readRun text with
  | case1 text fault unitRead =>
    cases read
    unfold readUnit at unitRead
    split at unitRead
    · cases unitRead
    · cases unitRead
    · cases unitRead
      refine ⟨rfl, ['\\'], by simp, fun after boundary => ?_⟩
      have run : RunOf ['\\'] (['\\', '\\'] ++ []) after :=
        .cons (.escaped '\\') (by simp [boundary.unquantified]) (.nil boundary.runEnds)
      exact run
    · cases unitRead
  | case2 => cases read
  | case3 => cases read
  | case4 text c rest unitRead unquantified ih =>
    obtain ⟨cause, run, -, runs⟩ := ih (map_eq_error.mp read)
    obtain ⟨unit, rfl, derives⟩ := unitOf_of_readUnit unitRead
    refine ⟨cause, c :: run, by simp, fun after boundary => ?_⟩
    rw [List.append_assoc]
    refine .cons derives ?_ (runs after boundary)
    cases rest with
    | nil => simp [startsQuantifier, isOpener]
    | cons => exact unquantified

theorem readRun_of_readLiteral_eq_error (read : readLiteral text = .error fault) : readRun text = .error fault := by
  unfold readLiteral at read
  rw [readRun]
  split at read
  · next unitRead =>
    cases read
    split <;> simp_all
  · cases read
  · next unitRead =>
    split at read
    · cases read
    · split <;> simp_all

theorem literalOf_of_readLiteral_eq_error (read : readLiteral text = .error fault)
    (noCharset : text.head? ≠ some '[') :
    fault.cause = .danglingEscape ∧
      ∃ run, ∀ after, Boundary after → LiteralOf run (text ++ ['\\']) after := by
  obtain ⟨cause, run, filled, runs⟩ := runOf_of_readRun_eq_error (readRun_of_readLiteral_eq_error read)
  refine ⟨cause, run, fun after boundary => .run (runs after boundary) filled ?_⟩
  cases text with
  | nil => simp
  | cons => exact noCharset

theorem readMember_eq_error (read : readMember text = .error fault) (filled : text ≠ []) :
    text = ['\\'] ∧ fault.cause = .danglingEscape := by
  unfold readMember at read
  split at read
  · exact absurd rfl filled
  · cases read
  · cases read
    exact ⟨rfl, rfl⟩
  · cases read

theorem readElement_eq_error (read : readElement text = .error fault) (filled : text ≠ []) :
    (fault.cause = .danglingEscape ∧ ∃ more element, ElementOf element (text ++ more) [']']) ∨
      fault.IsDisorder ∧ ∀ more, readElement (text ++ more) = .error (fault.extend more) := by
  unfold readElement at read
  split at read
  · next stopped =>
    cases read
    obtain ⟨rfl, cause⟩ := readMember_eq_error stopped filled
    exact .inl ⟨cause, ['\\'], .char '\\', .char (.escaped '\\') (by simp)⟩
  · next first after memberRead =>
    obtain ⟨source, rfl, member⟩ := memberOf_of_readMember memberRead
    split at read
    · next starts =>
      obtain ⟨c, tail, rfl, -⟩ := startsRangeEnd_eq_true starts
      split at read
      · next stopped =>
        cases read
        obtain ⟨slash, cause⟩ := readMember_eq_error stopped (by simp)
        refine .inl ⟨cause, [first], .range ⟨first, first, Char.le_refl first⟩, ?_⟩
        rw [List.tail_cons] at slash
        have range : ElementOf (.range ⟨first, first, Char.le_refl first⟩) (source ++ ['-'] ++ ['\\', first]) [']'] :=
          .range member (.escaped first) (by simp)
        simpa [slash] using range
      · next last rest memberRead' =>
        obtain ⟨source', split, member'⟩ := memberOf_of_readMember memberRead'
        rw [List.tail_cons] at split
        split at read
        · next disorder refused =>
          cases read
          refine .inr ⟨⟨disorder, rfl⟩, fun more => ?_⟩
          have starts : startsRangeEnd ('-' :: (c :: tail ++ more)) = true := starts
          have last := member'.readMember_append (rest ++ more)
          rw [← List.append_assoc, ← split] at last
          simp only [readElement, List.append_assoc, List.cons_append, member.readMember_append] at starts last ⊢
          simp [starts, last, refused, Fault.extend]
        · cases read
    · cases read

/-- Whether a dash makes a range is settled by the character behind it. -/
theorem startsRangeEnd_append (filled : rest ≠ []) (settled : rest ≠ ['-']) (more : Text) :
    startsRangeEnd (rest ++ more) = startsRangeEnd rest := by
  rcases rest with _ | ⟨c, _ | ⟨d, tail⟩⟩
  · exact absurd rfl filled
  · have noDash : c ≠ '-' := fun same => settled (same ▸ rfl)
    simp [startsRangeEnd, noDash]
  · by_cases dash : c = '-'
    · subst dash
      rfl
    · simp [startsRangeEnd, dash]

theorem startsRangeEnd_append_closing (rest : Text) : startsRangeEnd (rest ++ [']']) = startsRangeEnd rest := by
  by_cases filled : rest = []
  · subst filled
    rfl
  by_cases settled : rest = ['-']
  · subst settled
    rfl
  exact startsRangeEnd_append filled settled _

theorem ElementOf.append {element : Element} {source : Text} (derives : ElementOf element source rest)
    (same : startsRangeEnd (rest ++ more) = startsRangeEnd rest) : ElementOf element source (rest ++ more) := by
  cases derives with
  | range first last open_ => exact .range first last open_
  | char member alone =>
    refine .char member (startsRangeEnd_eq_false_iff.mp ?_)
    rw [same]
    exact startsRangeEnd_eq_false_iff.mpr alone

theorem startsRangeEnd_append_of_readElements (read : readElements text = .error fault)
    (cause : fault.cause ≠ .unterminatedCharset) (more : Text) :
    startsRangeEnd (text ++ more) = startsRangeEnd text := by
  apply startsRangeEnd_append
  · rintro rfl
    rw [readElements] at read
    cases read
    exact cause rfl
  · rintro rfl
    have dash : ElementOf (.char '-') ['-'] [] := .char (.raw (by decide)) (by simp)
    rw [← List.append_nil ['-'], dash.readElements_append (by decide), readElements] at read
    cases read
    exact cause rfl

/-- Elements that are not closed are closed by a bracket, elements that end in a backslash may be completed,
and a range that is out of order stays so. -/
theorem readElements_eq_error (read : readElements text = .error fault) :
    (fault.cause = .unterminatedCharset ∧ ∃ set, ElementsOf set text) ∨
      (fault.cause = .danglingEscape ∧ ∃ more set, ElementsOf set (text ++ more)) ∨
      fault.IsDisorder ∧ ∀ more, readElements (text ++ more) = .error (fault.extend more) := by
  fun_induction readElements text with
  | case1 =>
    cases read
    exact .inl ⟨rfl, .empty, .nil⟩
  | case2 => cases read
  | case3 c text closing stopped failed =>
    cases read
    rcases readElement_eq_error failed (by simp) with ⟨cause, more, element, derives⟩ | ⟨disorder, later⟩
    · refine .inr (.inl ⟨cause, more, .insert element .empty, ?_⟩)
      rw [← List.append_nil (c :: text ++ more)]
      exact .cons (by simpa using closing) derives .nil
    · refine .inr (.inr ⟨disorder, fun more => ?_⟩)
      exact readElements_of_readElement_eq_error (later more) closing
  | case4 c text closing element after elementRead ih =>
    obtain ⟨source, split, derives⟩ := elementOf_of_readElement elementRead
    have read := map_eq_error.mp read
    have open_ : source.head? ≠ some ']' := by
      obtain ⟨first, tail, rfl⟩ := List.exists_cons_of_ne_nil derives.ne_nil
      obtain ⟨rfl, -⟩ := List.cons.inj split
      simpa using closing
    rw [split]
    rcases ih read with ⟨cause, set, elements⟩ | ⟨cause, more, set, elements⟩ | ⟨disorder, later⟩
    · exact .inl ⟨cause, _, .cons open_ (derives.append (startsRangeEnd_append_closing after)) elements⟩
    · refine .inr (.inl ⟨cause, more, set.insert element, ?_⟩)
      rw [List.append_assoc]
      refine .cons open_ ?_ elements
      rw [List.append_assoc]
      exact derives.append (startsRangeEnd_append_of_readElements read (by simp [cause]) _)
    · refine .inr (.inr ⟨disorder, fun more => ?_⟩)
      obtain ⟨disorder, cause⟩ := disorder
      have further : ElementOf element source (after ++ more) :=
        derives.append (startsRangeEnd_append_of_readElements read (by simp [cause]) more)
      rw [List.append_assoc, further.readElements_append open_, later]
      rfl

theorem readCharset_eq_error (read : readCharset text = .error fault) :
    (fault.EndsEarly ∧ ∃ more set, CharsetOf set ('[' :: text ++ more)) ∨
      fault.IsDisorder ∧ ∀ more, readCharset (text ++ more) = .error (fault.extend more) := by
  unfold readCharset at read
  split at read
  · next text =>
    have closed {more : Text} {set : ElementSet} (elements : ElementsOf set (text ++ more)) :
        CharsetOf ⟨true, set⟩ ('[' :: '^' :: text ++ (more ++ [']'])) := by
      simpa using CharsetOf.negated elements
    rcases readElements_eq_error (map_eq_error.mp read) with
      ⟨cause, set, elements⟩ | ⟨cause, more, set, elements⟩ | ⟨disorder, later⟩
    · exact .inl ⟨.inl cause, [] ++ [']'], ⟨true, set⟩, closed (by simpa using elements)⟩
    · exact .inl ⟨.inr cause, more ++ [']'], ⟨true, set⟩, closed elements⟩
    · exact .inr ⟨disorder, fun more => by simp [readCharset, later]⟩
  · next noCaret =>
    have read := map_eq_error.mp read
    obtain _ | ⟨c, text⟩ := text
    · rw [readElements] at read
      cases read
      exact .inl ⟨.inl rfl, [']'], ⟨false, .empty⟩, .plain .nil (by simp)⟩
    have open_ : c ≠ '^' := fun caret => noCaret text (caret ▸ rfl)
    have closed {more : Text} {set : ElementSet} (elements : ElementsOf set (c :: text ++ more)) :
        CharsetOf ⟨false, set⟩ ('[' :: (c :: text) ++ (more ++ [']'])) := by
      simpa using CharsetOf.plain elements (by simpa using open_)
    rcases readElements_eq_error read with
      ⟨cause, set, elements⟩ | ⟨cause, more, set, elements⟩ | ⟨disorder, later⟩
    · exact .inl ⟨.inl cause, [] ++ [']'], ⟨false, set⟩, closed (by simpa using elements)⟩
    · exact .inl ⟨.inr cause, more ++ [']'], ⟨false, set⟩, closed elements⟩
    · refine .inr ⟨disorder, fun more => ?_⟩
      have failed := later more
      rw [List.cons_append] at failed ⊢
      unfold readCharset
      split
      · next caret => exact absurd (List.cons.inj caret).1 open_
      · rw [failed, map_error]

/-- A leaf that the end of the text interrupts may be completed to one that ends wherever neither a unit nor
a quantifier starts. -/
theorem readLeaf_eq_error (read : readLeaf text = .error fault) :
    (fault.EndsEarly ∧ ∃ more leaf, ∀ after, Boundary after → LeafOf leaf (text ++ more) after) ∨
      fault.IsDisorder ∧ ∀ more, readLeaf (text ++ more) = .error (fault.extend more) := by
  unfold readLeaf at read
  split at read
  · rcases readCharset_eq_error (map_eq_error.mp read) with ⟨cause, more, set, derives⟩ | ⟨disorder, later⟩
    · exact .inl ⟨cause, more, .charset set, fun _ _ => .charset derives⟩
    · exact .inr ⟨disorder, fun more => by simp [readLeaf, later]⟩
  · cases read
  · cases read
  · cases read
  · next noCharset _ _ _ =>
    have noCharset : text.head? ≠ some '[' := by
      intro bracket
      obtain ⟨more, rfl⟩ := List.head?_eq_some_iff.mp bracket
      exact noCharset more rfl
    obtain ⟨cause, run, literals⟩ := literalOf_of_readLiteral_eq_error (map_eq_error.mp read) noCharset
    exact .inl ⟨.inr cause, ['\\'], .literal run, fun after boundary => .literal (literals after boundary)⟩

theorem readMultiplicity_eq_error (read : readMultiplicity text = .error fault) :
    fault.cause = .malformedQuantifier ∨
      fault.IsDisorder ∧ ∀ more, readMultiplicity (text ++ more) = .error (fault.extend more) := by
  unfold readMultiplicity at read
  split at read
  · cases read
  · cases read
  · cases read
  · split at read
    · cases read
      exact .inl rfl
    · cases read
    · next bounds =>
      split at read
      · next disorder refused =>
        cases read
        refine .inr ⟨⟨disorder, rfl⟩, fun more => ?_⟩
        simp [readMultiplicity, readBounds_append bounds more, refused, Fault.extend]
      · cases read
  · cases read

end Grammar

end RegexPattern
