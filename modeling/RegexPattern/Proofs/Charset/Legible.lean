import RegexPattern.Proofs.CanonicalForm
import RegexPattern.Proofs.Charset.Grouping

/-!
The charsets whose canonical text is read as the charset itself. The elements stand in it without
separators, the single characters before the ranges, so that a dash may group other characters than the set
does. It does so unless it has no two neighbours, but the elements may be those of the set even then.
-/

namespace RegexPattern

def Element.char? : Element → Option Char
  | char c => some c
  | range _ => none

def Element.range? : Element → Option CharRange
  | char _ => none
  | range r => some r

namespace ElementSet

def singles (set : ElementSet) : Text := set.toList.filterMap Element.char?

def ranges (set : ElementSet) : List CharRange := set.toList.filterMap Element.range?

/-- No dash among the elements has a character on both of its sides: a single one is the first or the last
thing that is written, and no single character stands in front of a range from the dash. -/
def DashesApart (set : ElementSet) : Prop :=
  ('-' ∈ set.singles → (∀ c ∈ set.singles, ¬ c < '-') ∨ set.toList.getLast? = some (.char '-')) ∧
    (set.singles ≠ [] → ∀ range ∈ set.ranges.head?, range.first ≠ '-')

/-- The last single character is a dash, and it makes a range of the character in front of it and the first
range. This range is in the set, and what it leaves of the first range are members again. -/
def DashesRegroup (set : ElementSet) : Prop :=
  ∃ others : Text, set.singles = others ++ ['-'] ∧
    ∃ single rest, set.ranges = single :: rest ∧
      single.first = others.getLast?.getD '-' ∧ single.last = others.getLast?.getD '-' ∧
      ∀ range ∈ rest.head?, range.first ≠ '-'

theorem toList_eq (set : ElementSet) : set.toList = set.singles.map .char ++ set.ranges.map .range := by
  obtain ⟨elements, sorted⟩ := set
  simp only [singles, ranges]
  induction elements with
  | nil => rfl
  | cons element elements ih =>
    obtain ⟨above, sorted⟩ := List.pairwise_cons.mp sorted
    have later := ih sorted
    cases element with
    | char c => simpa [List.filterMap_cons, Element.char?, Element.range?] using later
    | range r =>
      have noSingle : elements.filterMap Element.char? = [] := by
        rw [List.filterMap_eq_nil_iff]
        intro other found
        cases other with
        | char d => exact absurd (above _ found) Element.not_range_lt_char
        | range => rfl
      rw [noSingle] at later
      simpa [List.filterMap_cons, Element.char?, Element.range?, noSingle] using later

@[simp] theorem char_mem_toList {set : ElementSet} {c : Char} : .char c ∈ set.toList ↔ c ∈ set.singles := by
  simp [toList_eq]

@[simp] theorem range_mem_toList {set : ElementSet} {range : CharRange} :
    .range range ∈ set.toList ↔ range ∈ set.ranges := by
  simp [toList_eq]

theorem sorted_singles (set : ElementSet) : set.singles.Pairwise (· < ·) := by
  have sorted := set.sorted
  rw [toList_eq, List.pairwise_append] at sorted
  simpa [List.pairwise_map] using sorted.1

theorem sorted_ranges (set : ElementSet) : set.ranges.Pairwise fun r s => Element.range r < .range s := by
  have sorted := set.sorted
  rw [toList_eq, List.pairwise_append] at sorted
  exact List.pairwise_map.mp sorted.2.1

theorem chars_eq (set : ElementSet) :
    set.toList.flatMap Element.chars = set.singles ++ set.ranges.flatMap CharRange.chars := by
  rw [toList_eq]
  simp [List.flatMap_map, Element.chars]

end ElementSet

section

variable {elements : List Element} {singles rest : Text} {ranges : List CharRange}

theorem grouped_ranges_iff : Grouped elements (ranges.flatMap CharRange.chars) ↔ elements = ranges.map .range := by
  induction ranges generalizing elements with
  | nil => simp
  | cons range ranges ih =>
    have ordered := range.first_le_last
    rw [List.flatMap_cons]
    simp only [CharRange.chars, List.cons_append, List.nil_append, grouped_range_iff, List.map_cons]
    constructor
    · rintro ⟨_, others, rfl, grouped⟩
      rw [ih.mp grouped]
    · rintro rfl
      exact ⟨ordered, _, rfl, ih.mpr rfl⟩

theorem grouped_singles_iff (apart : ∀ c ∈ singles.tail, c ≠ '-')
    (settled : singles ≠ [] → ∀ last more, rest ≠ '-' :: last :: more) :
    Grouped elements (singles ++ rest) ↔
      ∃ others, elements = singles.map .char ++ others ∧ Grouped others rest := by
  induction singles generalizing elements with
  | nil => simp
  | cons c singles ih =>
    have alone (last : Char) (more : Text) : singles ++ rest ≠ '-' :: last :: more := by
      cases singles with
      | nil => exact settled (by simp) last more
      | cons d singles =>
        intro same
        exact apart d List.mem_cons_self (List.cons.inj same).1
    rw [List.cons_append, grouped_cons_iff alone]
    have later (elements : List Element) : Grouped elements (singles ++ rest) ↔
        ∃ others, elements = singles.map .char ++ others ∧ Grouped others rest :=
      ih (fun d found => apart d (List.mem_of_mem_tail found)) fun _ => settled (by simp)
    constructor
    · rintro ⟨others, rfl, grouped⟩
      obtain ⟨behind, rfl, grouped'⟩ := (later _).mp grouped
      exact ⟨behind, rfl, grouped'⟩
    · rintro ⟨others, rfl, grouped⟩
      exact ⟨singles.map .char ++ others, rfl, (later _).mpr ⟨others, rfl, grouped⟩⟩

/-- A dash behind single characters makes a range of the last one and of what follows the dash. -/
theorem grouped_front_iff {front : Text} {c d : Char} (apart : ∀ b ∈ (front ++ [c]).tail, b ≠ '-') :
    Grouped elements (front ++ c :: '-' :: d :: rest) ↔
      ∃ ordered : c ≤ d, ∃ others, elements = front.map .char ++ .range ⟨c, d, ordered⟩ :: others ∧
        Grouped others rest := by
  have inFront (b : Char) (found : b ∈ front.tail) : b ≠ '-' :=
    apart b ((List.sublist_append_left front [c]).tail.subset found)
  have settled (filled : front ≠ []) (last : Char) (more : Text) :
      c :: '-' :: d :: rest ≠ '-' :: last :: more := by
    intro same
    obtain ⟨b, front, rfl⟩ := List.exists_cons_of_ne_nil filled
    exact apart c (by simp) (List.cons.inj same).1
  simp only [grouped_singles_iff inFront settled, grouped_range_iff]
  constructor
  · rintro ⟨_, rfl, ordered, others, rfl, left⟩
    exact ⟨ordered, others, rfl, left⟩
  · rintro ⟨ordered, others, rfl, left⟩
    exact ⟨_, rfl, ordered, others, rfl, left⟩

/-- Behind a dash no other one is found: a range of a larger character and a dash would be out of order. -/
theorem eq_of_grouped (above : ∀ c ∈ singles, '-' < c)
    (grouped : Grouped elements (singles ++ ranges.flatMap CharRange.chars)) :
    elements = singles.map .char ++ ranges.map .range := by
  induction singles generalizing elements with
  | nil => exact grouped_ranges_iff.mp grouped
  | cons c singles ih =>
    obtain ⟨first, above⟩ := List.forall_mem_cons.mp above
    have alone (last : Char) (more : Text) : singles ++ ranges.flatMap CharRange.chars ≠ '-' :: last :: more := by
      intro same
      obtain _ | ⟨d, singles⟩ := singles
      · obtain _ | ⟨range, ranges⟩ := ranges
        · cases same
        have dashes : last = '-' := (List.cons.inj (List.cons.inj same).2).1.symm
        rw [List.cons_append, same, grouped_range_iff, dashes] at grouped
        obtain ⟨ordered, -⟩ := grouped
        exact absurd ordered (Char.not_le.mpr first)
      · have dash : d = '-' := (List.cons.inj same).1
        exact absurd (above d List.mem_cons_self) (dash ▸ Char.lt_irrefl _)
    rw [List.cons_append, grouped_cons_iff alone] at grouped
    obtain ⟨others, rfl, grouped⟩ := grouped
    rw [ih above grouped]
    rfl

end

namespace ElementSet

variable {set : ElementSet} {elements : List Element}

theorem lt_of_mem_front {front back : Text} {c d : Char} (split : set.singles = front ++ d :: back)
    (found : c ∈ front) : c < d := by
  have sorted := set.sorted_singles
  rw [split, List.pairwise_append] at sorted
  exact sorted.2.2 c found d List.mem_cons_self

theorem lt_of_mem_back {front back : Text} {c d : Char} (split : set.singles = front ++ d :: back)
    (found : c ∈ back) : d < c := by
  have sorted := set.sorted_singles
  rw [split, List.pairwise_append] at sorted
  exact (List.pairwise_cons.mp sorted.2.1).1 c found

theorem ne_dash_of_mem_front {front back : Text} (split : set.singles = front ++ '-' :: back) :
    ∀ c ∈ front.tail, c ≠ '-' :=
  fun _ found => Char.ne_of_lt (lt_of_mem_front split (List.mem_of_mem_tail found))

theorem ne_dash_of_mem_tail (least : '-' ∈ set.singles → ∀ c ∈ set.singles, ¬ c < '-') :
    ∀ c ∈ set.singles.tail, c ≠ '-' := by
  rintro c found rfl
  have member := List.mem_of_mem_tail found
  cases split : set.singles with
  | nil => simp [split] at found
  | cons d others =>
    rw [split] at found
    have below : d < '-' := lt_of_mem_back (show set.singles = [] ++ d :: others from split) found
    exact least member d (by simp [split]) below

theorem chars_ne_of_head {ranges : List CharRange} (clear : ∀ range ∈ ranges.head?, range.first ≠ '-')
    (last : Char) (more : Text) : ranges.flatMap CharRange.chars ≠ '-' :: last :: more := by
  cases ranges with
  | nil => simp
  | cons range ranges =>
    intro same
    exact clear range rfl (List.cons.inj same).1

theorem exists_front_of_getLast? (last : set.toList.getLast? = some (.char '-')) :
    set.ranges = [] ∧ ∃ front, set.singles = front ++ ['-'] := by
  rw [toList_eq, List.getLast?_append] at last
  obtain none | ⟨ranges, range, some⟩ := List.eq_nil_or_concat' set.ranges
  · refine ⟨none, ?_⟩
    rw [none] at last
    obtain none | ⟨front, c, some⟩ := List.eq_nil_or_concat' set.singles
    · simp [none] at last
    · exact ⟨front, by simpa [some] using last⟩
  · simp [some] at last

theorem DashesApart.grouped (apart : set.DashesApart) :
    Grouped set.toList (set.singles ++ set.ranges.flatMap CharRange.chars) := by
  obtain ⟨lone, clear⟩ := apart
  rw [toList_eq]
  by_cases last : set.toList.getLast? = some (.char '-')
  · obtain ⟨none, front, split⟩ := exists_front_of_getLast? last
    rw [none, split]
    have dash : Grouped [.char '-'] ['-'] := .char (by simp) .nil
    simpa using (grouped_singles_iff (ne_dash_of_mem_front split) (by simp)).mpr ⟨_, rfl, dash⟩
  · have least := fun dash => (lone dash).resolve_right last
    refine (grouped_singles_iff (ne_dash_of_mem_tail least) ?_).mpr ⟨_, rfl, grouped_ranges_iff.mpr rfl⟩
    exact fun filled => chars_ne_of_head (clear filled)

/-- The dash behind the range that it has made stands for itself, and so does the end of the first range. -/
theorem DashesRegroup.exists_grouped (regroup : set.DashesRegroup) :
    ∃ elements, Grouped elements (set.singles ++ set.ranges.flatMap CharRange.chars) ∧ ofList elements = set := by
  obtain ⟨others, split, single, rest, here, first, last, clear⟩ := regroup
  have ranges : Grouped (rest.map .range) (rest.flatMap CharRange.chars) := grouped_ranges_iff.mpr rfl
  rw [split, here, List.flatMap_cons]
  obtain rfl | ⟨front, c, rfl⟩ := List.eq_nil_or_concat' others
  · have spelled : single.chars = ['-', '-', '-'] := by simp [CharRange.chars, first, last]
    have dash : Grouped _ (single.chars ++ '-' :: rest.flatMap CharRange.chars) :=
      .range (.char (chars_ne_of_head clear) ranges)
    refine ⟨_, by simpa [spelled] using dash, ext_mem fun e => ?_⟩
    rw [mem_toList_ofList, set.toList_eq, split, here]
    simp [or_left_comm]
  · obtain ⟨first, last⟩ : single.first = c ∧ single.last = c := by simpa using And.intro first last
    obtain rfl : single = ⟨c, c, Char.le_refl c⟩ := by cases single; simp_all
    have smaller : c < '-' := lt_of_mem_front split (by simp)
    have left : Grouped _ ('-' :: c :: rest.flatMap CharRange.chars) :=
      .char (by simp [Char.ne_of_lt smaller]) (.char (chars_ne_of_head clear) ranges)
    have chars := (grouped_front_iff (ne_dash_of_mem_front split)).mpr ⟨Char.le_refl c, _, rfl, left⟩
    refine ⟨_, by simpa [CharRange.chars] using chars, ext_mem fun e => ?_⟩
    rw [mem_toList_ofList, set.toList_eq, split, here]
    simp [or_left_comm]

theorem first_le_of_mem {least range : CharRange} {rest : List CharRange}
    (sorted : (least :: rest).Pairwise fun r s => Element.range r < .range s) (found : range ∈ least :: rest) :
    least.first < range.first ∨ least.first = range.first ∧ least.last ≤ range.last := by
  rcases List.mem_cons.mp found with rfl | found
  · exact .inr ⟨rfl, Char.le_refl _⟩
  · have above := (List.pairwise_cons.mp sorted).1 range found
    rw [Element.range_lt_range] at above
    grind

theorem eq_of_mem_ranges {least : CharRange} {rest : List CharRange} {c : Char} {ordered : c ≤ least.first}
    (here : set.ranges = least :: rest) (found : ⟨c, least.first, ordered⟩ ∈ set.ranges) :
    least.first = c ∧ least.last = c := by
  have sorted := set.sorted_ranges
  have ordered := least.first_le_last
  rw [here] at sorted found
  have first := first_le_of_mem sorted found
  grind

section

/-! The elements are grouped as those of the set, if not in its order. -/

variable (grouped : Grouped elements (set.singles ++ set.ranges.flatMap CharRange.chars))
  (same : ofList elements = set)

include same in
theorem mem_iff (element : Element) : element ∈ elements ↔ element ∈ set.toList := by
  rw [← same, mem_toList_ofList]

include grouped same

theorem back_eq_nil {front back : Text} {c : Char} (split : set.singles = front ++ [c] ++ '-' :: back) :
    back = [] := by
  cases back with
  | nil => rfl
  | cons d back =>
    have chars : set.singles ++ set.ranges.flatMap CharRange.chars =
        front ++ c :: '-' :: d :: (back ++ set.ranges.flatMap CharRange.chars) := by simp [split]
    rw [chars] at grouped
    obtain ⟨ordered, others, rfl, left⟩ := (grouped_front_iff (ne_dash_of_mem_front split)).mp grouped
    have above (b : Char) (found : b ∈ back) : '-' < b := lt_of_mem_back split (List.mem_cons_of_mem _ found)
    cases eq_of_grouped above left
    have lost : '-' ∈ front ∨ '-' ∈ back := by
      simpa using (mem_iff same (.char '-')).mpr (by simp [split])
    rcases lost with lost | lost
    · exact absurd (lt_of_mem_front split (List.mem_append_left _ lost)) (Char.lt_irrefl _)
    · exact absurd (above _ lost) (Char.lt_irrefl _)

theorem exists_first_range {front more : Text} {c : Char} {least : CharRange} {rest : List CharRange}
    (here : set.ranges = least :: rest)
    (chars : set.singles ++ set.ranges.flatMap CharRange.chars = front ++ c :: '-' :: least.first :: more)
    (apart : ∀ b ∈ (front ++ [c]).tail, b ≠ '-') :
    least.first = c ∧ least.last = c ∧ ∃ ordered : c ≤ least.first, ∃ others,
      elements = front.map .char ++ .range ⟨c, least.first, ordered⟩ :: others ∧ Grouped others more := by
  rw [chars, grouped_front_iff apart] at grouped
  obtain ⟨ordered, others, made, left⟩ := grouped
  have found := (mem_iff same (.range ⟨c, least.first, ordered⟩)).mp (by simp [made])
  obtain ⟨first, last⟩ := eq_of_mem_ranges here (range_mem_toList.mp found)
  exact ⟨first, last, ordered, others, made, left⟩

theorem dashesRegroup_of_front {front : Text} {c : Char} (split : set.singles = front ++ [c] ++ ['-'])
    {least : CharRange} {rest : List CharRange} (here : set.ranges = least :: rest) : set.DashesRegroup := by
  have before : c < '-' := lt_of_mem_front split (by simp)
  have chars : set.singles ++ set.ranges.flatMap CharRange.chars =
      front ++ c :: '-' :: least.first :: '-' :: least.last :: rest.flatMap CharRange.chars := by
    simp [split, here, CharRange.chars]
  obtain ⟨first, last, _, others, rfl, left⟩ :=
    exists_first_range grouped same here chars (ne_dash_of_mem_front split)
  refine ⟨front ++ [c], split, least, rest, here, by simpa using first, by simpa using last, ?_⟩
  intro range next starts
  obtain ⟨rest, rfl⟩ := List.head?_eq_some_iff.mp next
  -- What the first range has left makes another range with the dash that the second one starts with.
  have second : Grouped others ('-' :: c :: '-' :: '-' :: range.last :: rest.flatMap CharRange.chars) := by
    simpa [CharRange.chars, starts, last] using left
  obtain ⟨others, rfl, third⟩ := (grouped_cons_iff (by simp [Char.ne_of_lt before])).mp second
  obtain ⟨ordered', others, rfl, -⟩ := grouped_range_iff.mp third
  have made := (mem_iff same (.range ⟨c, '-', ordered'⟩)).mp (by simp)
  rw [range_mem_toList, here, List.mem_cons] at made
  rcases made with made | made
  · rw [← made] at last
    exact Char.ne_of_lt before last.symm
  · have sorted := set.sorted_ranges
    rw [here] at sorted
    have later := first_le_of_mem sorted.tail made
    rw [starts] at later
    grind

theorem dashesRegroup_of_range (filled : set.singles ≠ []) {least : CharRange} {rest : List CharRange}
    (here : set.ranges = least :: rest) (starts : least.first = '-')
    (dash : '-' ∈ set.singles → ∀ c ∈ set.singles, ¬ c < '-') : set.DashesRegroup := by
  obtain none | ⟨front, c, split⟩ := List.eq_nil_or_concat' set.singles
  · exact absurd none filled
  have chars : set.singles ++ set.ranges.flatMap CharRange.chars =
      front ++ c :: '-' :: least.first :: least.last :: rest.flatMap CharRange.chars := by
    simp [split, here, CharRange.chars, starts]
  obtain ⟨first, last, _, others, rfl, left⟩ :=
    exists_first_range grouped same here chars (split ▸ ne_dash_of_mem_tail dash)
  obtain rfl : c = '-' := first.symm.trans starts
  obtain rfl : front = [] := by
    rw [List.eq_nil_iff_forall_not_mem]
    intro d found
    exact dash (by simp [split]) d (by simp [split, found]) (lt_of_mem_front split found)
  refine ⟨[], split, least, rest, here, starts, last, fun range next starts' => ?_⟩
  obtain ⟨rest, rfl⟩ := List.head?_eq_some_iff.mp next
  -- The second range is taken apart like the first one, and no dash is left that stands for itself.
  have second : Grouped others ('-' :: '-' :: '-' :: range.last :: rest.flatMap CharRange.chars) := by
    simpa [CharRange.chars, starts', last] using left
  obtain ⟨_, others, rfl, behind⟩ := grouped_range_iff.mp second
  have above : '-' < range.last := by
    have sorted := set.sorted_ranges
    rw [here] at sorted
    have above := (List.pairwise_cons.mp sorted).1 range List.mem_cons_self
    rw [Element.range_lt_range] at above
    grind
  have behind : Grouped others ([range.last] ++ rest.flatMap CharRange.chars) := behind
  cases eq_of_grouped (by simpa using above) behind
  have lost : '-' = range.last := by
    simpa using (mem_iff same (.char '-')).mpr (by simp [split])
  exact Char.ne_of_lt above lost

theorem dashesRegroup_of_lt {c : Char} (found : c ∈ set.singles) (smaller : c < '-')
    (dash : '-' ∈ set.singles) (within : set.toList.getLast? ≠ some (.char '-')) : set.DashesRegroup := by
  obtain ⟨front, back, split⟩ := List.append_of_mem dash
  obtain rfl | ⟨front, d, rfl⟩ := List.eq_nil_or_concat' front
  · rw [split, List.nil_append, List.mem_cons] at found
    rcases found with rfl | found
    · exact absurd smaller (Char.lt_irrefl _)
    · exact absurd (Char.lt_trans smaller (lt_of_mem_back split found)) (Char.lt_irrefl _)
  obtain rfl := back_eq_nil grouped same split
  cases here : set.ranges with
  | nil => simp [toList_eq, split, here] at within
  | cons least rest => exact dashesRegroup_of_front grouped same split here

end

/-- The characters of the set are grouped to its elements, in whatever order, in exactly two cases. -/
theorem exists_grouped_iff : (∃ elements, Grouped elements (set.toList.flatMap Element.chars) ∧
    ofList elements = set) ↔ set.DashesApart ∨ set.DashesRegroup := by
  rw [chars_eq]
  constructor
  · rintro ⟨elements, grouped, same⟩
    by_cases lone : '-' ∈ set.singles →
        (∀ c ∈ set.singles, ¬ c < '-') ∨ set.toList.getLast? = some (.char '-')
    · by_cases clear : set.singles ≠ [] → ∀ range ∈ set.ranges.head?, range.first ≠ '-'
      · exact .inl ⟨lone, clear⟩
      · push Not at clear
        obtain ⟨filled, least, first, starts⟩ := clear
        obtain ⟨rest, here⟩ := List.head?_eq_some_iff.mp first
        refine .inr (dashesRegroup_of_range grouped same filled here starts fun dash => ?_)
        refine (lone dash).resolve_right fun last => ?_
        simp [(exists_front_of_getLast? last).1] at here
    · push Not at lone
      obtain ⟨dash, ⟨c, found, smaller⟩, within⟩ := lone
      exact .inr (dashesRegroup_of_lt grouped same found smaller dash within)
  · rintro (apart | regroup)
    · exact ⟨set.toList, apart.grouped, ext_mem fun _ => mem_toList_ofList⟩
    · exact regroup.exists_grouped

end ElementSet

namespace Charset

/-- No character of the set would end, negate or change its text, and the dashes do not change the set. -/
structure Legible (set : Charset) : Prop where
  ordinary : ∀ element ∈ set.elements.toList, ∀ c ∈ element.ends, c ≠ ']' ∧ ¬ isControl c
  noCaret : set.negated = false → (set.elements.toList.flatMap Element.text).head? ≠ some '^'
  dashes : set.elements.DashesApart ∨ set.elements.DashesRegroup

open Grammar in
theorem charsetOf_text_iff {set : Charset} :
    CharsetOf set set.text ↔ ElementsOf set.elements (set.elements.toList.flatMap Element.text) ∧
      (set.negated = false → (set.elements.toList.flatMap Element.text).head? ≠ some '^') := by
  obtain ⟨negated, elements⟩ := set
  simp only [text]
  generalize elements.toList.flatMap Element.text = source
  cases negated with
  | false =>
    constructor
    · intro derives
      generalize written : ['['] ++ (if false then ['^'] else []) ++ source ++ [']'] = text at derives
      cases derives with
      | plain derives noCaret =>
        obtain rfl : source = _ := by simpa using written
        exact ⟨derives, fun _ => noCaret⟩
    · rintro ⟨derives, noCaret⟩
      simpa using CharsetOf.plain derives (noCaret rfl)
  | true =>
    constructor
    · intro derives
      generalize written : ['['] ++ (if true then ['^'] else []) ++ source ++ [']'] = text at derives
      cases derives with
      | negated derives =>
        obtain rfl : source = _ := by simpa using written
        exact ⟨derives, by simp⟩
    · rintro ⟨derives, -⟩
      simpa using CharsetOf.negated derives

/-- The charsets that are read back from their text, under whatever limit. -/
theorem parse_text_iff_legible (set : Charset) (limit : Nat) :
    parse limit set.text = .ok [[.leaf (.charset set) .once]] ↔ set.Legible := by
  rw [parse_text_eq_iff, charsetOf_text_iff, ElementSet.elementsOf_text_iff, ElementSet.exists_grouped_iff]
  constructor
  · rintro ⟨⟨ordinary, dashes⟩, noCaret⟩
    exact ⟨ordinary, noCaret, dashes⟩
  · rintro ⟨ordinary, noCaret, dashes⟩
    exact ⟨⟨ordinary, dashes⟩, noCaret⟩

/-- Here the dash makes a range, and the set is the same for all that. -/
example : let set : Charset := ⟨false, .ofList [.char '+', .char '-', .range ⟨'+', '+', by decide⟩]⟩
    set.text = ['[', '+', '-', '+', '-', '+', ']'] ∧
      parse 0 set.text = .ok [[.leaf (.charset set) .once]] := by decide +kernel

end Charset

end RegexPattern
