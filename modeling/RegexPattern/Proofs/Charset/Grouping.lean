import RegexPattern.Canonical
import RegexPattern.Proofs.Escape
import RegexPattern.Proofs.Grammar

/-!
How the characters of a charset are grouped when its canonical text is read. Escapes keep characters apart,
so that the text is read as a sequence of characters; a dash in it makes a range of its neighbours wherever
it has two of them.
-/

namespace RegexPattern

open Grammar

def Element.ends : Element → Text
  | char c => [c]
  | range r => [r.first, r.last]

def CharRange.chars (range : CharRange) : Text := [range.first, '-', range.last]

def Element.chars : Element → Text
  | char c => [c]
  | range r => r.chars

theorem Element.text_eq_escape (element : Element) : element.text = escape false element.chars := by
  cases element with
  | char c => simp [text, chars]
  | range r =>
    have dash : escapeChar false '-' = ['-'] := rfl
    simp [text, chars, CharRange.text, CharRange.chars, dash]

/-- The elements that the characters are read as, from the left. -/
inductive Grouped : List Element → Text → Prop where
  | nil : Grouped [] []
  | char {c : Char} {elements : List Element} {rest : Text} : (∀ last more, rest ≠ '-' :: last :: more) →
      Grouped elements rest → Grouped (.char c :: elements) (c :: rest)
  | range {range : CharRange} {elements : List Element} {rest : Text} : Grouped elements rest →
      Grouped (.range range :: elements) (range.chars ++ rest)

section

variable {c : Char} {chars rest : Text} {elements : List Element}

@[simp] theorem grouped_nil_iff : Grouped elements [] ↔ elements = [] := by
  constructor
  · intro grouped
    generalize empty : ([] : Text) = chars at grouped
    cases grouped with
    | nil => rfl
    | char => cases empty
    | range => cases empty
  · rintro rfl
    exact .nil

theorem grouped_cons_iff (alone : ∀ last more, rest ≠ '-' :: last :: more) :
    Grouped elements (c :: rest) ↔ ∃ others, elements = .char c :: others ∧ Grouped others rest := by
  constructor
  · intro grouped
    generalize same : c :: rest = chars at grouped
    cases grouped with
    | nil => cases same
    | char _ grouped =>
      obtain ⟨rfl, rfl⟩ := List.cons.inj same
      exact ⟨_, rfl, grouped⟩
    | range => exact absurd (List.cons.inj same).2 (alone _ _)
  · rintro ⟨others, rfl, grouped⟩
    exact .char alone grouped

theorem grouped_range_iff {first last : Char} : Grouped elements (first :: '-' :: last :: rest) ↔
    ∃ ordered : first ≤ last, ∃ others, elements = .range ⟨first, last, ordered⟩ :: others ∧
      Grouped others rest := by
  constructor
  · intro grouped
    generalize same : first :: '-' :: last :: rest = chars at grouped
    cases grouped with
    | nil => cases same
    | char alone =>
      obtain ⟨rfl, rfl⟩ := List.cons.inj same
      exact absurd rfl (alone _ _)
    | @range range _ _ grouped =>
      obtain ⟨first, last, ordered⟩ := range
      cases same
      exact ⟨ordered, _, rfl, grouped⟩
  · rintro ⟨ordered, others, rfl, grouped⟩
    exact .range grouped

end

namespace Grammar

variable {c : Char} {source more chars : Text} {set : ElementSet} {elements : List Element}

theorem memberOf_escapeChar (visible : ¬ isControl c) : MemberOf c (escapeChar false c) := by
  by_cases slash : c = '\\'
  · subst slash
    exact .escaped _
  · rw [escapeChar_of_plain visible slash]
    exact .raw slash

theorem head?_escapeChar_ne (open_ : c ≠ ']') (more : Text) : (escapeChar false c ++ more).head? ≠ some ']' := by
  intro closing
  obtain ⟨tail, same⟩ := List.head?_eq_some_iff.mp closing
  exact open_ (eq_of_escapeChar_append same (by decide))

/-- A member of a charset takes as much of a canonical text as its character is written with. -/
theorem MemberOf.exists_cons (derives : MemberOf c source) (visible : Visible chars)
    (split : source ++ more = escape false chars) :
    ∃ rest, chars = c :: rest ∧ source = escapeChar false c ∧ more = escape false rest := by
  obtain _ | ⟨d, rest⟩ := chars
  · cases derives <;> cases split
  obtain ⟨visible, -⟩ := visible_cons.mp visible
  rw [escape_cons] at split
  suffices same : c = d ∧ source = escapeChar false d ∧ more = escape false rest by
    obtain ⟨rfl, written, later⟩ := same
    exact ⟨rest, rfl, written, later⟩
  by_cases slash : d = '\\'
  · subst slash
    have written : escapeChar false '\\' = ['\\', '\\'] := rfl
    rw [written] at split ⊢
    cases derives with
    | escaped => simpa using split
    | raw noSlash => exact absurd (List.cons.inj split).1 noSlash
  · rw [escapeChar_of_plain visible slash] at split ⊢
    cases derives with
    | escaped => exact absurd (List.cons.inj split).1.symm slash
    | raw => simpa using split

/-- An element takes as much of a canonical text as its characters are written with. A bracket among them
would close the charset, as it is not escaped. -/
theorem ElementOf.exists_chars {element : Element} {behind : Text} (derives : ElementOf element source behind)
    (open_ : source.head? ≠ some ']') (visible : Visible chars) (split : source ++ more = escape false chars) :
    ∃ rest, chars = element.chars ++ rest ∧ more = escape false rest ∧ ']' ∉ element.chars := by
  cases derives with
  | @char c _ _ member =>
    obtain ⟨rest, rfl, rfl, later⟩ := member.exists_cons visible split
    have notClosing : c ≠ ']' := by
      rintro rfl
      exact open_ rfl
    exact ⟨rest, rfl, later, by simp [Element.chars, notClosing.symm]⟩
  | @range range first last _ member member' closing =>
    have dash : MemberOf '-' ['-'] := .raw (by decide)
    have fromFirst : first ++ (['-'] ++ last ++ more) = escape false chars := by simpa using split
    obtain ⟨rest, rfl, rfl, fromDash⟩ := member.exists_cons visible fromFirst
    rw [List.append_assoc] at fromDash
    obtain ⟨rest, rfl, -, fromLast⟩ := dash.exists_cons (visible_cons.mp visible).2 fromDash
    have visible := (visible_cons.mp (visible_cons.mp visible).2).2
    obtain ⟨rest, rfl, rfl, later⟩ := member'.exists_cons visible fromLast
    have notClosing : range.first ≠ ']' := by
      intro same
      rw [same] at open_
      exact open_ rfl
    have notClosing' : range.last ≠ ']' := by
      intro same
      rw [same] at closing
      exact closing rfl
    refine ⟨rest, rfl, later, ?_⟩
    simp [Element.chars, CharRange.chars, notClosing.symm, notClosing'.symm]

theorem ElementsOf.exists_grouped (derives : ElementsOf set source) (visible : Visible chars)
    (written : source = escape false chars) :
    ']' ∉ chars ∧ ∃ elements, Grouped elements chars ∧ set = .ofList elements := by
  induction derives generalizing chars with
  | nil =>
    cases chars with
    | nil => exact ⟨by simp, [], .nil, rfl⟩
    | cons c rest =>
      obtain ⟨first, tail, same, -⟩ := (memberOf_escapeChar (visible_cons.mp visible).1).head
      simp [same] at written
  | @cons element set source more open_ derives _ ih =>
    obtain ⟨rest, rfl, later, noBracket⟩ := derives.exists_chars open_ visible written
    obtain ⟨noBracket', elements, grouped, rfl⟩ := ih (visible_append.mp visible).2 later
    refine ⟨by simp [noBracket, noBracket'], element :: elements, ?_, rfl⟩
    cases derives with
    | range => exact .range grouped
    | char _ alone =>
      refine .char ?_ grouped
      rintro last rest rfl
      -- What follows the dash is no bracket, so that the dash would make a range.
      obtain ⟨next, tail, same⟩ := List.exists_cons_of_ne_nil
        (show escapeChar false last ++ (escape false rest ++ [']']) ≠ [] by simp)
      have closing : next = ']' := alone next tail (by simpa [later, escapeChar] using same)
      have noClosing : last ≠ ']' := by
        rintro rfl
        simp at noBracket'
      exact head?_escapeChar_ne noClosing _ (by rw [same, closing]; rfl)

theorem elementsOf_of_grouped (grouped : Grouped elements chars) (visible : Visible chars)
    (noBracket : ']' ∉ chars) : ElementsOf (.ofList elements) (escape false chars) := by
  induction grouped with
  | nil => exact .nil
  | @char c elements rest alone grouped ih =>
    obtain ⟨visible, visibleRest⟩ := visible_cons.mp visible
    obtain ⟨open_, noBracket⟩ : ']' ≠ c ∧ ']' ∉ rest := by simpa using noBracket
    rw [escape_cons]
    refine .cons ?_ (.char (memberOf_escapeChar visible) ?_) (ih visibleRest noBracket)
    · simpa using head?_escapeChar_ne open_.symm []
    · intro next more same
      obtain _ | ⟨d, rest⟩ := rest
      · cases same
      rw [escape_cons, List.append_assoc] at same
      obtain rfl := eq_of_escapeChar_append same (by decide)
      obtain _ | ⟨e, rest⟩ := rest
      · have last : [']'] = next :: more := (List.cons.inj same).2
        exact (List.cons.inj last).1.symm
      · exact absurd rfl (alone e rest)
  | @range range elements rest grouped ih =>
    have dash : escapeChar false '-' = ['-'] := rfl
    have written : escape false (range.chars ++ rest) =
        escapeChar false range.first ++ ['-'] ++ escapeChar false range.last ++ escape false rest := by
      simp [CharRange.chars, dash]
    simp only [CharRange.chars, List.cons_append, List.nil_append, visible_cons] at visible
    obtain ⟨visible, -, visible', visibleRest⟩ := visible
    obtain ⟨open_, open', noBracket⟩ : ']' ≠ range.first ∧ ']' ≠ range.last ∧ ']' ∉ rest := by
      simpa [CharRange.chars] using noBracket
    rw [written]
    refine .cons ?_ (.range (memberOf_escapeChar visible) (memberOf_escapeChar visible') ?_)
      (ih visibleRest noBracket)
    · rw [List.append_assoc]
      exact head?_escapeChar_ne open_.symm _
    · intro closing
      exact head?_escapeChar_ne open'.symm [] (by rw [closing]; rfl)

theorem MemberOf.mem (derives : MemberOf c source) : c ∈ source := by
  cases derives <;> simp

theorem ElementsOf.ends_subset (derives : ElementsOf set source) :
    ∀ element ∈ set.toList, element.ends ⊆ source := by
  induction derives with
  | nil => simp
  | cons _ derives _ ih =>
    intro other found
    rcases ElementSet.mem_toList_insert.mp found with rfl | found
    · cases derives with
      | char member => simp [Element.ends, member.mem]
      | range member member' => simp [Element.ends, member.mem, member'.mem]
    · exact List.subset_append_of_subset_right _ (ih other found)

end Grammar

theorem Element.forall_mem_chars_iff {property : Char → Prop} (dash : property '-') {elements : List Element} :
    (∀ c ∈ elements.flatMap Element.chars, property c) ↔
      ∀ element ∈ elements, ∀ c ∈ element.ends, property c := by
  have here (element : Element) : (∀ c ∈ element.chars, property c) ↔ ∀ c ∈ element.ends, property c := by
    cases element <;> simp [Element.chars, CharRange.chars, Element.ends, dash]
  simp only [List.mem_flatMap, ← here]
  grind

/-- The canonical text of a set is read as the set when no character has to be escaped for it and the
characters are grouped as they are in the set. -/
theorem ElementSet.elementsOf_text_iff (set : ElementSet) :
    ElementsOf set (set.toList.flatMap Element.text) ↔
      (∀ element ∈ set.toList, ∀ c ∈ element.ends, c ≠ ']' ∧ ¬ isControl c) ∧
        ∃ elements, Grouped elements (set.toList.flatMap Element.chars) ∧ ofList elements = set := by
  have written : set.toList.flatMap Element.text = escape false (set.toList.flatMap Element.chars) := by
    rw [escape, List.flatMap_assoc]
    exact congrArg (set.toList.flatMap ·) (funext Element.text_eq_escape)
  rw [← Element.forall_mem_chars_iff ⟨by decide, by decide⟩, written]
  constructor
  · intro derives
    have visible : Visible (set.toList.flatMap Element.chars) :=
      (Element.forall_mem_chars_iff (by decide)).mpr fun element found c named =>
        visible_escape false _ c (derives.ends_subset element found named)
    obtain ⟨noBracket, elements, grouped, same⟩ := derives.exists_grouped visible rfl
    refine ⟨fun c found => ⟨?_, visible c found⟩, elements, grouped, same.symm⟩
    rintro rfl
    exact noBracket found
  · rintro ⟨ordinary, elements, grouped, same⟩
    have derives := elementsOf_of_grouped grouped (fun c found => (ordinary c found).2)
      fun found => (ordinary _ found).1 rfl
    rwa [same] at derives

end RegexPattern
