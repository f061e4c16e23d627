import Mathlib.Tactic.SplitIfs
import RegexPattern.Graph
import RegexPattern.Proofs.Pieces
import RegexPattern.Proofs.ReadBack
import RegexPattern.Proofs.Unescape

/-!
The labels of nodes. A label is a caption with a quantifier behind it, and it shows both: captions end in a
letter or a mark, quantifiers consist of other characters. A quantifier shows the bounds, and whether it
is greedy only if it is repeating.
-/

namespace RegexPattern

open Text

namespace Multiplicity

/-- What is drawn of a multiplicity: greed makes no difference unless it is repeating. -/
def drawn (mult : Multiplicity) : Multiplicity :=
  if mult.repeating then mult else { mult with greedy := true }

def marked (mult : Multiplicity) : Bool := mult.repeating && !mult.greedy

variable {mult other : Multiplicity}

theorem text_eq : mult.text = mult.boundsText ++ if mult.marked then ['?'] else [] := rfl

theorem text_of_marked (mark : mult.marked = true) : mult.text = mult.boundsText ++ ['?'] := by
  simp [text_eq, mark]

theorem text_of_unmarked (noMark : mult.marked = false) : mult.text = mult.boundsText := by
  simp [text_eq, noMark]

theorem drawn_eq : mult.drawn = { mult with greedy := !mult.marked } := by
  unfold drawn marked
  cases repeating : mult.repeating with
  | true => simp
  | false => rfl

@[simp] theorem min_drawn : mult.drawn.min = mult.min := by rw [drawn_eq]

@[simp] theorem text_drawn : mult.drawn.text = mult.text := by
  have marks : { mult with greedy := !mult.marked : Multiplicity }.marked = mult.marked := by
    show (mult.repeating && !!mult.marked) = mult.marked
    simp [marked]
  rw [drawn_eq, text_eq, marks]
  rfl

@[simp] theorem loops_drawn (id : Nat) : mult.drawn.loops id = mult.loops id := by
  cases repeating : mult.repeating with
  | true => rw [drawn, if_pos repeating]
  | false =>
    have single : mult.drawn.repeating = false := by
      rw [drawn_eq]
      exact repeating
    simp [loops, single, repeating]

theorem bounds_eq_of_boundsText_eq (same : mult.boundsText = other.boundsText) :
    mult.min = other.min ∧ mult.max = other.max := by
  have read (mult : Multiplicity) :
      Reader.readMultiplicity mult.boundsText = .ok ({ mult with greedy := true }, []) := by
    have faithful : Faithful { mult with greedy := true } := .inl rfl
    have unquantified : ¬ startsQuantifier [] := by simp [startsQuantifier]
    have derives := (faithful.quantifierOf unquantified).readMultiplicity_append
    rwa [text_of_unmarked (by simp [marked]), List.append_nil] at derives
  have values := (read mult).symm.trans (same ▸ read other)
  simpa using values

theorem boundsText_cases (mult : Multiplicity) :
    mult.boundsText ∈ [[], ['*'], ['+'], ['?']] ∨
      ∃ inside, mult.boundsText = '{' :: inside ++ ['}'] ∧ ∀ c ∈ inside, c.isDigit = true ∨ c = ',' := by
  have digits {n : Nat} {c : Char} (digit : c ∈ decimal n) : c.isDigit = true := isDigit_of_mem_decimal digit
  unfold boundsText
  split
  · split_ifs
    · exact .inl (by simp)
    · exact .inl (by simp)
    · refine .inr ⟨decimal mult.min.toNat ++ [','], by simp, ?_⟩
      grind
  · next max _ =>
    split_ifs
    · exact .inl (by simp)
    · exact .inr ⟨decimal max.toNat, by simp, fun c digit => .inl (digits digit)⟩
    · exact .inl (by simp)
    · refine .inr ⟨',' :: decimal max.toNat, by simp, ?_⟩
      grind
    · refine .inr ⟨decimal mult.min.toNat ++ ',' :: decimal max.toNat, by simp, ?_⟩
      grind

theorem boundsText_eq_of_getLast (last : mult.boundsText.getLast? = some '?') : mult.boundsText = ['?'] := by
  rcases mult.boundsText_cases with short | ⟨inside, braces, -⟩
  · simp only [List.mem_cons, List.not_mem_nil, or_false] at short
    rcases short with same | same | same | same <;> rw [same] at last
    · exact absurd last (by decide)
    · exact absurd last (by decide)
    · exact absurd last (by decide)
    · exact same
  · rw [braces, List.getLast?_append] at last
    exact absurd last (by simp)

theorem append_mark_ne_boundsText (mark : mult.marked = true) :
    mult.boundsText ++ ['?'] ≠ other.boundsText := by
  intro same
  have alone : other.boundsText = ['?'] := boundsText_eq_of_getLast (by simp [← same])
  have nothing : mult.boundsText = once.boundsText := List.append_cancel_right (same.trans alone)
  have single := (bounds_eq_of_boundsText_eq nothing).2
  rw [marked, repeating, single] at mark
  exact absurd mark (by simp [once])

theorem marked_eq_of_text_eq (same : mult.text = other.text) : mult.marked = other.marked := by
  cases mark : mult.marked with
  | true =>
    cases mark' : other.marked with
    | true => rfl
    | false =>
      rw [text_of_marked mark, text_of_unmarked mark'] at same
      exact absurd same (append_mark_ne_boundsText mark)
  | false =>
    cases mark' : other.marked with
    | true =>
      rw [text_of_unmarked mark, text_of_marked mark'] at same
      exact absurd same.symm (append_mark_ne_boundsText mark')
    | false => rfl

theorem drawn_eq_of_text_eq (same : mult.text = other.text) : mult.drawn = other.drawn := by
  have marks := marked_eq_of_text_eq same
  rw [text_eq, text_eq, marks] at same
  obtain ⟨mins, maxes⟩ := bounds_eq_of_boundsText_eq (List.append_cancel_right same)
  simp only [drawn_eq, marks, mins, maxes]

def isQuantifierChar (c : Char) : Bool := c.isDigit || c ∈ ['*', '+', '?', '{', ',', '}']

theorem isQuantifierChar_of_mem_boundsText {c : Char} (member : c ∈ mult.boundsText) :
    isQuantifierChar c = true := by
  rcases mult.boundsText_cases with short | ⟨inside, braces, plain⟩
  · have marks : ∀ text ∈ [[], ['*'], ['+'], ['?']], text.all isQuantifierChar = true := by decide
    exact List.all_eq_true.mp (marks _ short) c member
  · rw [braces] at member
    simp only [List.mem_append, List.mem_cons, List.not_mem_nil, or_false] at member
    rcases member with (rfl | member) | rfl
    · decide
    · rcases plain c member with digit | rfl
      · simp [isQuantifierChar, digit]
      · decide
    · decide

theorem isQuantifierChar_of_mem_text {c : Char} (member : c ∈ mult.text) : isQuantifierChar c = true := by
  rcases List.mem_append.mp member with bounds | mark
  · exact isQuantifierChar_of_mem_boundsText bounds
  · split at mark
    · cases List.mem_singleton.mp mark
      decide
    · cases mark

end Multiplicity

theorem exists_quoted_eq (text : Text) :
    ∃ mark ∈ ['\'', '"'], quoted text = mark :: (escape false text ++ [mark]) := by
  unfold quoted
  by_cases single : text.length = 1
  · exact ⟨'\'', by decide, by simp [single]⟩
  · exact ⟨'"', by decide, by simp [single]⟩

namespace Part

/-- Elements look like literals; they are told apart by the charset above them. -/
def isElement : Part → Bool
  | element _ => true
  | _ => false

def isCharset : Part → Bool
  | charset _ => true
  | _ => false

def worded : List Part :=
  [empty, alternative, sequence, group, matchStart, matchEnd, anyChar, charset false, charset true]

def ofCaption (caption : Text) : Part :=
  (worded.find? (·.caption = caption)).getD (literal (unescape caption.tail.dropLast))

theorem ofCaption_quoted (text : Text) : ofCaption (quoted text) = literal text := by
  obtain ⟨mark, isMark, written⟩ := exists_quoted_eq text
  have words : ∀ part ∈ worded, part.caption.head?.all (· ∉ ['\'', '"']) = true := by decide
  have notWord : worded.find? (·.caption = quoted text) = none := by
    rw [List.find?_eq_none]
    intro part member same
    rw [decide_eq_true_eq, written] at same
    have notMark := words part member
    rw [same, List.head?_cons, Option.all_some, decide_eq_true_eq] at notMark
    exact notMark isMark
  rw [ofCaption, notWord, written, List.tail_cons, List.dropLast_concat, unescape_escape]
  rfl

theorem ofCaption_caption {part : Part} (other : part.isElement = false) : ofCaption part.caption = part := by
  cases part with
  | literal text => exact ofCaption_quoted text
  | charset negated => cases negated <;> rfl
  | element element => cases other
  | _ => rfl

theorem caption_char (c : Char) :
    (element (.char c)).caption = '\'' :: (escapeChar false c ++ ['\'']) := by
  show quoted [c] = _
  simp [quoted]

theorem caption_range (r : CharRange) :
    (element (.range r)).caption =
      '\'' :: (escapeChar false r.first ++ '…' :: (escapeChar false r.last ++ ['\''])) := by
  show ['\''] ++ escapeChar false r.first ++ ['…'] ++ escapeChar false r.last ++ ['\''] = _
  simp only [List.append_assoc, List.cons_append, List.nil_append]

theorem caption_char_ne_caption_range (c : Char) (r : CharRange) :
    (element (.char c)).caption ≠ (element (.range r)).caption := by
  intro same
  rw [caption_char, caption_range] at same
  have behind := (escapeChar_append_inj (List.tail_eq_of_cons_eq same)).2
  exact absurd (List.head_eq_of_cons_eq behind) (by decide)

theorem element_eq_of_caption_eq {first second : Element}
    (same : (element first).caption = (element second).caption) : first = second := by
  cases first with
  | char c =>
    cases second with
    | char d =>
      rw [caption_char, caption_char] at same
      rw [(escapeChar_append_inj (List.tail_eq_of_cons_eq same)).1]
    | range s => exact absurd same (caption_char_ne_caption_range c s)
  | range r =>
    cases second with
    | char d => exact absurd same.symm (caption_char_ne_caption_range d r)
    | range s =>
      rw [caption_range, caption_range] at same
      obtain ⟨firsts, behind⟩ := escapeChar_append_inj (List.tail_eq_of_cons_eq same)
      obtain ⟨lasts, -⟩ := escapeChar_append_inj (List.tail_eq_of_cons_eq behind)
      obtain ⟨first, last, ordered⟩ := r
      obtain ⟨first', last', ordered'⟩ := s
      cases firsts
      cases lasts
      rfl

theorem eq_of_caption_eq {part other : Part} (kinds : part.isElement = other.isElement)
    (same : part.caption = other.caption) : part = other := by
  cases kind : part.isElement with
  | false => rw [← ofCaption_caption kind, same, ofCaption_caption (kinds ▸ kind)]
  | true =>
    cases part with
    | element first =>
      cases other with
      | element second => rw [element_eq_of_caption_eq same]
      | _ => cases kinds
    | _ => cases kind

theorem exists_getLast_caption (part : Part) :
    ∃ last, part.caption.getLast? = some last ∧ Multiplicity.isQuantifierChar last = false := by
  cases part with
  | literal text =>
    obtain ⟨mark, isMark, written⟩ := exists_quoted_eq text
    have marks : ['\'', '"'].all (!Multiplicity.isQuantifierChar ·) = true := by decide
    refine ⟨mark, ?_, by simpa using List.all_eq_true.mp marks mark isMark⟩
    show (quoted text).getLast? = some mark
    rw [written, ← List.cons_append, List.getLast?_concat]
  | element element =>
    refine ⟨'\'', ?_, by decide⟩
    cases element with
    | char c => rw [caption_char, ← List.cons_append, List.getLast?_concat]
    | range r =>
      rw [caption_range, List.append_cons, ← List.append_assoc, ← List.cons_append, List.getLast?_concat]
  | charset negated => cases negated <;> exact ⟨'t', rfl, by decide⟩
  | _ => exact ⟨_, rfl, by decide⟩

/-- A label shows where its quantifier begins. -/
theorem label_inj {part other : Part} {mult mult' : Multiplicity}
    (same : part.caption ++ mult.text = other.caption ++ mult'.text) :
    part.caption = other.caption ∧ mult.text = mult'.text := by
  obtain ⟨last, ends, stops⟩ := part.exists_getLast_caption
  obtain ⟨last', ends', stops'⟩ := other.exists_getLast_caption
  obtain ⟨front, written⟩ := List.getLast?_eq_some_iff.mp ends
  obtain ⟨front', written'⟩ := List.getLast?_eq_some_iff.mp ends'
  have inside (mult : Multiplicity) : ∀ c ∈ mult.text.reverse, Multiplicity.isQuantifierChar c = true :=
    fun c member => Multiplicity.isQuantifierChar_of_mem_text (List.mem_reverse.mp member)
  -- The quantifier is the longest part at the end without letters and marks: the label is cut from behind.
  have backwards : mult.text.reverse ++ last :: front.reverse = mult'.text.reverse ++ last' :: front'.reverse := by
    simpa [written, written'] using congrArg List.reverse same
  obtain ⟨quantifiers, captions⟩ := append_cons_inj (inside mult) (inside mult') stops stops' backwards
  constructor
  · rw [written, written']
    simpa using congrArg List.reverse captions
  · exact List.reverse_injective quantifiers

theorem node_inj {part other : Part} {mult mult' : Multiplicity} {id id' : Nat}
    (kinds : part.isElement = other.isElement) (same : part.node mult id = other.node mult' id') :
    part = other ∧ mult.drawn = mult'.drawn ∧ id = id' := by
  obtain ⟨captions, quantifiers⟩ := label_inj (congrArg Node.label same)
  exact ⟨eq_of_caption_eq kinds captions, Multiplicity.drawn_eq_of_text_eq quantifiers, congrArg Node.id same⟩

@[simp] theorem node_drawn (part : Part) (mult : Multiplicity) (id : Nat) :
    part.node mult.drawn id = part.node mult id := by
  simp only [node, nodeAttributes, Multiplicity.text_drawn, Multiplicity.min_drawn]

end Part

end RegexPattern
