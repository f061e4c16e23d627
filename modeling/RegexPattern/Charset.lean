import RegexPattern.Disorder

/-!
Sets of characters as a pattern writes them: single characters and ranges, kept in one order
(single characters by code point, then ranges by first and last character) and without
duplicates. Two sets with the same members are therefore equal, whatever the order in which
their members were written.
-/

namespace RegexPattern

/-- The characters from `first` to `last`, both included. -/
structure CharRange where
  first : Char
  last : Char
  first_le_last : first ≤ last
deriving DecidableEq

namespace CharRange

def ofEnds (first last : Char) : Except Disorder CharRange :=
  if ordered : first ≤ last then .ok ⟨first, last, ordered⟩ else .error (.range first last)

theorem ofEnds_eq_error_iff {first last : Char} {disorder : Disorder} :
    ofEnds first last = .error disorder ↔ last < first ∧ disorder = .range first last := by
  by_cases ordered : first ≤ last
  · have notAfter : ¬ last < first := Char.not_lt.2 ordered
    simp [ofEnds, ordered, notAfter]
  · have after : last < first := Char.not_le.1 ordered
    simp [ofEnds, ordered, after, eq_comm]

end CharRange

inductive Element where
  | char (c : Char)
  | range (r : CharRange)
deriving DecidableEq

namespace Element

/-- Single characters come before ranges; ranges are ordered by their first character, then by
their last one. -/
def Before : Element → Element → Prop
  | char c, char d => c < d
  | char _, range _ => True
  | range _, char _ => False
  | range r, range s => r.first < s.first ∨ r.first = s.first ∧ r.last < s.last

instance : LT Element := ⟨Before⟩

instance decidableLT : (e f : Element) → Decidable (e < f)
  | char c, char d => inferInstanceAs (Decidable (c < d))
  | char _, range _ => isTrue trivial
  | range _, char _ => isFalse id
  | range r, range s =>
    inferInstanceAs (Decidable (r.first < s.first ∨ r.first = s.first ∧ r.last < s.last))

@[simp] theorem char_lt_char {c d : Char} : char c < char d ↔ c < d := Iff.rfl

@[simp] theorem char_lt_range {c : Char} {r : CharRange} : char c < range r := trivial

@[simp] theorem not_range_lt_char {c : Char} {r : CharRange} : ¬ range r < char c := id

@[simp] theorem range_lt_range {r s : CharRange} :
    range r < range s ↔ r.first < s.first ∨ r.first = s.first ∧ r.last < s.last := Iff.rfl

theorem lt_irrefl (e : Element) : ¬ e < e := by
  cases e <;> simp

theorem ne_of_lt {e f : Element} (before : e < f) : e ≠ f := by
  rintro rfl
  exact lt_irrefl e before

theorem lt_trans {e f g : Element} (first : e < f) (second : f < g) : e < g := by
  cases e <;> cases f <;> cases g <;> simp_all
  · exact Char.lt_trans first second
  · rcases first with first | ⟨same, first⟩ <;> rcases second with second | ⟨same', second⟩
    · exact .inl (Char.lt_trans first second)
    · exact .inl (same' ▸ first)
    · exact .inl (same ▸ second)
    · exact .inr ⟨same.trans same', Char.lt_trans first second⟩

theorem lt_or_eq_or_gt (e f : Element) : e < f ∨ e = f ∨ f < e := by
  have chars (c d : Char) : c < d ∨ c = d ∨ d < c := by
    by_cases below : c ≤ d
    · by_cases above : d ≤ c
      · exact .inr (.inl (Char.le_antisymm below above))
      · exact .inl (Char.not_le.1 above)
    · exact .inr (.inr (Char.not_le.1 below))
  cases e with
  | char c => cases f with
    | char d => simpa using chars c d
    | range s => simp
  | range r => cases f with
    | char d => simp
    | range s =>
      obtain ⟨first, last, _⟩ := r
      obtain ⟨first', last', _⟩ := s
      have firsts := chars first first'
      have lasts := chars last last'
      simp only [range_lt_range, range.injEq, CharRange.mk.injEq]
      grind

end Element

/-- A set of elements: a strictly increasing list, so that each set has one representation. -/
structure ElementSet where
  toList : List Element
  sorted : toList.Pairwise (· < ·)
deriving DecidableEq

namespace ElementSet

def place (e : Element) : List Element → List Element
  | [] => [e]
  | f :: rest => if e < f then e :: f :: rest else if e = f then f :: rest else f :: place e rest

@[simp] theorem mem_place {e f : Element} {elements : List Element} :
    f ∈ place e elements ↔ f = e ∨ f ∈ elements := by
  induction elements with
  | nil => simp [place]
  | cons g rest ih =>
    simp only [place]
    split
    · simp
    · split
      · next same => simp [same]
      · simp [ih, or_left_comm]

theorem sorted_place {e : Element} {elements : List Element}
    (sorted : elements.Pairwise (· < ·)) : (place e elements).Pairwise (· < ·) := by
  induction elements with
  | nil => simp [place]
  | cons f rest ih =>
    obtain ⟨above, sortedRest⟩ := List.pairwise_cons.1 sorted
    simp only [place]
    split
    · next before =>
      refine List.pairwise_cons.2 ⟨fun g member => ?_, sorted⟩
      rcases List.mem_cons.1 member with rfl | member
      · exact before
      · exact Element.lt_trans before (above g member)
    · next notBefore =>
      split
      · exact sorted
      · next distinct =>
        refine List.pairwise_cons.2 ⟨fun g member => ?_, ih sortedRest⟩
        rcases mem_place.1 member with rfl | member
        · rcases Element.lt_or_eq_or_gt g f with before | same | after
          · exact absurd before notBefore
          · exact absurd same distinct
          · exact after
        · exact above g member

def empty : ElementSet := ⟨[], .nil⟩

def insert (e : Element) (set : ElementSet) : ElementSet :=
  ⟨place e set.toList, sorted_place set.sorted⟩

def ofList (elements : List Element) : ElementSet := elements.foldr insert empty

@[simp] theorem toList_empty : empty.toList = [] := rfl

@[simp] theorem mem_toList_insert {e f : Element} {set : ElementSet} :
    f ∈ (set.insert e).toList ↔ f = e ∨ f ∈ set.toList := mem_place

@[simp] theorem mem_toList_ofList {e : Element} {elements : List Element} :
    e ∈ (ofList elements).toList ↔ e ∈ elements := by
  induction elements with
  | nil => simp [ofList]
  | cons f rest ih => simpa [ofList] using or_congr_right ih

theorem ext_mem {s t : ElementSet} (same : ∀ e, e ∈ s.toList ↔ e ∈ t.toList) : s = t := by
  have lists : s.toList = t.toList := by
    have perm := (List.perm_ext_iff_of_nodup (s.sorted.imp Element.ne_of_lt)
      (t.sorted.imp Element.ne_of_lt)).2 same
    exact perm.eq_of_pairwise
      (fun e f _ _ before after => absurd (Element.lt_trans before after) (Element.lt_irrefl e))
      s.sorted t.sorted
  cases s
  cases t
  simpa using lists

end ElementSet

/-- A bracketed set: any one character of it, or any one outside it when it is negated. -/
structure Charset where
  negated : Bool
  elements : ElementSet
deriving DecidableEq

end RegexPattern
