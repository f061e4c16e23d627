import RegexPattern.Proofs.ReadBack

/-!
How literals may be spelled. Whichever of its characters are escaped, a text is read as one literal;
a quantifier behind it is that of its last character alone, in front of which the literal is cut.
What is written for a text is one of these spellings, of a text without its control characters.
-/

namespace RegexPattern

open Text

def Branch.ofText (run : Text) : Branch := if run = [] then [] else [.text run]

@[simp] theorem Branch.nesting_ofText_append (run : Text) (branch : Branch) :
    nesting (ofText run ++ branch) = nesting branch := by
  unfold ofText
  split <;> simp [nesting, Atom.nesting, Atom.text]

namespace Grammar

variable {run rest : Text} {units : List Text}

theorem UnitOf.head?_ne {c : Char} {unit : Text} (derives : UnitOf c unit) (noCharset : unit ≠ ['[']) :
    unit.head? ≠ some '[' := by
  cases derives with
  | escaped => simp
  | plain => simpa using noCharset

theorem head?_flatten_ne (spelled : List.Forall₂ UnitOf run units) (noCharset : units.head? ≠ some ['[']) :
    units.flatten.head? ≠ some '[' := by
  cases spelled with
  | nil => simp
  | @cons c unit run units derives =>
    obtain ⟨first, more, rfl, -⟩ := derives.head
    exact derives.head?_ne (by simpa using noCharset)

theorem branchOf_units (spelled : List.Forall₂ UnitOf run units) (noCharset : units.head? ≠ some ['['])
    (unquantified : ¬ startsQuantifier rest) (ends : RunEnds rest) :
    BranchOf (Branch.ofText run) units.flatten rest := by
  unfold Branch.ofText
  split
  · next empty =>
    subst empty
    cases spelled
    exact .nil
  · next filled =>
    have leaf : LeafOf (.literal run) units.flatten rest :=
      .literal (.run (runOf_units spelled unquantified ends) filled (head?_flatten_ne spelled noCharset))
    exact (leaf.atomOf unquantified).branchOf

theorem exists_units_concat {c : Char} (spelled : List.Forall₂ UnitOf (run ++ [c]) units) :
    ∃ front unit, units = front ++ [unit] ∧ List.Forall₂ UnitOf run front ∧ UnitOf c unit := by
  induction run generalizing units with
  | nil =>
    cases spelled with
    | @cons _ unit _ _ derives spelled =>
      cases spelled
      exact ⟨[], unit, rfl, .nil, derives⟩
  | cons d run ih =>
    cases spelled with
    | @cons _ first _ _ derives spelled =>
      obtain ⟨front, unit, rfl, spelled, derives'⟩ := ih spelled
      exact ⟨first :: front, unit, rfl, .cons derives spelled, derives'⟩

theorem BranchOf.append {branch branch' : Branch} {source source' : Text}
    (derives : BranchOf branch source (source' ++ rest)) (derives' : BranchOf branch' source' rest) :
    BranchOf (branch ++ branch') (source ++ source') rest := by
  induction branch generalizing source with
  | nil =>
    cases derives
    exact derives'
  | cons atom branch ih =>
    cases derives with
    | @cons _ _ first more _ atom derives =>
      rw [List.append_assoc]
      refine .cons ?_ (ih derives)
      rwa [List.append_assoc]

/-- The run ends in front of the unit that the quantifier binds to, which is a literal of its own. -/
theorem branchOf_units_quantified {c : Char} {unit : Text} {mult : Multiplicity}
    (spelled : List.Forall₂ UnitOf run units) (noCharset : units.head? ≠ some ['[']) (derives : UnitOf c unit)
    (noCharset' : unit ≠ ['[']) (faithful : mult.Faithful) (several : mult ≠ .once) :
    BranchOf (Branch.ofText run ++ [.leaf (.literal [c]) mult]) (units.flatten ++ (unit ++ mult.text)) [] := by
  have quantified : startsQuantifier (mult.text ++ []) := faithful.startsQuantifier_text several []
  have literal : LiteralOf [c] unit (mult.text ++ []) := .single derives (derives.head?_ne noCharset') quantified
  have last : AtomOf (.leaf (.literal [c]) mult) (unit ++ mult.text) [] :=
    .leaf (.literal literal) (faithful.quantifierOf (by simp [startsQuantifier]))
  have first : BranchOf (Branch.ofText run) units.flatten (unit ++ (mult.text ++ [])) :=
    branchOf_units spelled noCharset (derives.unquantified _) (derives.runEnds quantified)
  rw [← List.append_assoc] at first
  exact first.append last.branchOf

theorem parse_spelled (limit : Nat) (filled : run ≠ []) (spelled : List.Forall₂ UnitOf run units)
    (noCharset : units.head? ≠ some ['[']) : parse limit units.flatten = .ok [[.text run]] := by
  have bare : ¬ startsQuantifier [] := by simp [startsQuantifier]
  have branch := branchOf_units spelled noCharset bare (runEnds_of_head (by simp))
  rw [Branch.ofText, if_neg filled] at branch
  exact branch.parse_eq (by simp [Branch.nesting, Atom.nesting, Atom.text])

end Grammar

open Grammar

/-- However its characters are spelled, a text is read as a literal that occurs once. With a quantifier
behind it, its last character is a literal of its own and has that multiplicity. A raw bracket there
would start a charset, as it does in front of the text. -/
theorem parse_units {text : Text} {units : List Text} (limit : Nat) (filled : text ≠ [])
    (spelled : List.Forall₂ UnitOf text units) (noCharset : units.head? ≠ some ['[']) :
    parse limit units.flatten = .ok [[.text text]] ∧
      ∀ mult : Multiplicity, mult.Faithful → mult.text ≠ [] →
        (2 ≤ text.length → units.getLast? ≠ some ['[']) →
        parse limit (units.flatten ++ mult.text) =
          .ok [Branch.ofText text.dropLast ++ [.leaf (.literal [text.getLast filled]) mult]] := by
  constructor
  · exact parse_spelled limit filled spelled noCharset
  · intro mult faithful written lastNoCharset
    obtain ⟨run, c, rfl⟩ : ∃ run c, text = run ++ [c] :=
      ⟨text.dropLast, text.getLast filled, (List.dropLast_append_getLast filled).symm⟩
    obtain ⟨front, unit, rfl, spelled, derives⟩ := exists_units_concat spelled
    have several : mult ≠ .once := by
      rintro rfl
      exact written rfl
    have unitNoCharset : unit ≠ ['['] := by
      cases spelled with
      | nil => simpa using noCharset
      | cons =>
        rw [List.getLast?_concat] at lastNoCharset
        simpa using lastNoCharset (by simp)
    have frontNoCharset : front.head? ≠ some ['['] := by
      cases front with
      | nil => simp
      | cons => simpa using noCharset
    have branch := branchOf_units_quantified spelled frontNoCharset derives unitNoCharset faithful several
    rw [List.dropLast_concat, List.getLast_concat]
    simpa using branch.parse_eq (by simp [Branch.nesting, Atom.nesting])

theorem parse_units_mixed :
    let text : Text := ['é', '[', '+']
    let units : List Text := [['é'], ['['], ['\\', '+']]
    let lazy : Multiplicity := (Multiplicity.atLeast 2).nonGreedy
    List.Forall₂ UnitOf text units ∧ units.head? ≠ some ['['] ∧ parse 0 units.flatten = .ok [[.text text]] ∧
      lazy.Faithful ∧ lazy.text ≠ [] ∧ units.getLast? ≠ some ['['] ∧
      parse 0 (units.flatten ++ lazy.text) = .ok [[.text ['é', '['], .leaf (.literal ['+']) lazy]] := by
  intro text units lazy
  have spelled : List.Forall₂ UnitOf text units :=
    .cons (.plain (by decide)) (.cons (.plain (by decide)) (.cons (.escaped '+') .nil))
  have read := parse_units 0 (by simp [text]) spelled (by decide)
  exact ⟨spelled, by decide, read.1, by decide, by decide, by decide,
    read.2 lazy (by decide) (by decide) (by decide)⟩

/-- The character that is read from what is written for a character: the one behind the backslash, if there is
a backslash. -/
def escapeReading : Char → Char
  | '\n' => 'n'
  | '\t' => 't'
  | '\r' => 'r'
  | '\x08' => 'b'
  | '\x00' => '0'
  | c => c

theorem escapeReading_eq_iff {c : Char} : escapeReading c = c ↔ ¬ isControl c := by
  unfold escapeReading
  split <;> simp_all [isControl]

theorem escapeChar_of_control {c : Char} (control : isControl c) : escapeChar false c = ['\\', escapeReading c] := by
  have cases : c = '\n' ∨ c = '\t' ∨ c = '\r' ∨ c = '\x08' ∨ c = '\x00' := by simpa [isControl] using control
  rcases cases with rfl | rfl | rfl | rfl | rfl <;> rfl

namespace Grammar

theorem unitOf_escapeReading {c : Char} (ordinary : ¬ isSpecial c) : UnitOf (escapeReading c) (escapeChar false c) := by
  by_cases control : isControl c
  · rw [escapeChar_of_control control]
    exact .escaped _
  · rw [escapeReading_eq_iff.mpr control]
    exact unitOf_escapeChar ordinary control

theorem forall₂_escapeReading {text : Text} (ordinary : ∀ c ∈ text, ¬ isSpecial c) :
    List.Forall₂ UnitOf (text.map escapeReading) (text.map (escapeChar false)) := by
  induction text with
  | nil => exact .nil
  | cons c text ih =>
    exact .cons (unitOf_escapeReading (ordinary c List.mem_cons_self)) (ih fun d member =>
      ordinary d (List.mem_cons_of_mem _ member))

theorem head?_map_escapeChar_ne {text : Text} (noCharset : text.head? ≠ some '[') :
    (text.map (escapeChar false)).head? ≠ some ['['] := by
  cases text with
  | nil => simp
  | cons c text =>
    intro bracket
    have same : escapeChar false c ++ [] = '[' :: [] := by simpa using bracket
    exact noCharset (congrArg some (eq_of_escapeChar_append same (by decide)))

end Grammar

/-- What is written for a literal is one of the spellings of the literal in which each control character has
become the letter or digit of its escape. -/
theorem parse_canonical_literal {text : Text} (limit : Nat) (filled : text ≠ []) (noCharset : text.head? ≠ some '[')
    (ordinary : ∀ c ∈ text, ¬ isSpecial c) :
    parse limit (Tree.canonical [[.text text]]) = .ok [[.text (text.map escapeReading)]] ∧
      (parse limit (Tree.canonical [[.text text]]) = .ok [[.text text]] ↔ ∀ c ∈ text, ¬ isControl c) := by
  have read : parse limit (Tree.canonical [[.text text]]) = .ok [[.text (text.map escapeReading)]] := by
    have written : Tree.canonical [[.text text]] = (text.map (escapeChar false)).flatten := by
      rw [Tree.canonical, Branch.canonical, Branch.canonical, Atom.canonical_text, List.append_nil, escape,
        List.flatMap_def]
    rw [written]
    exact parse_spelled limit (by simpa using filled) (forall₂_escapeReading ordinary)
      (head?_map_escapeChar_ne noCharset)
  have unchanged : text.map escapeReading = text ↔ ∀ c ∈ text, escapeReading c = c := by
    simpa using List.map_inj_left (l := text) (f := escapeReading) (g := id)
  refine ⟨read, ?_⟩
  rw [read]
  simpa only [escapeReading_eq_iff, Atom.text, Except.ok.injEq, List.cons.injEq, Atom.leaf.injEq, Leaf.literal.injEq,
    and_true] using unchanged

theorem parse_canonical_literal_slash :
    let text : Text := ['\\', 'n', '[', '\x7f', 'é', '\\']
    let lines : Text := text ++ ['\n']
    text ≠ [] ∧ text.head? ≠ some '[' ∧ (∀ c ∈ text, ¬ isSpecial c) ∧ (∀ c ∈ text, ¬ isControl c) ∧
      parse 0 (Tree.canonical [[.text text]]) = .ok [[.text text]] ∧
      lines ≠ [] ∧ lines.head? ≠ some '[' ∧ (∀ c ∈ lines, ¬ isSpecial c) ∧
      parse 0 (Tree.canonical [[.text lines]]) = .ok [[.text (text ++ ['n'])]] := by
  intro text lines
  have filled : text ≠ [] ∧ lines ≠ [] := by decide
  have noCharset : text.head? ≠ some '[' ∧ lines.head? ≠ some '[' := by decide
  have ordinary : ∀ c ∈ text, ¬ isSpecial c := by simp [text, isSpecial]
  have ordinary' : ∀ c ∈ lines, ¬ isSpecial c := by simp [lines, text, isSpecial]
  have visible : ∀ c ∈ text, ¬ isControl c := by simp [text, isControl]
  exact ⟨filled.1, noCharset.1, ordinary, visible,
    (parse_canonical_literal 0 filled.1 noCharset.1 ordinary).2.mpr visible,
    filled.2, noCharset.2, ordinary', (parse_canonical_literal 0 filled.2 noCharset.2 ordinary').1⟩

theorem parse_canonical_newline :
    let text : Text := ['\n']
    text ≠ [] ∧ text.head? ≠ some '[' ∧ (∀ c ∈ text, ¬ isSpecial c) ∧
      parse defaultLimit (Tree.canonical [[.text text]]) = .ok [[.text ['n']]] ∧
      parse defaultLimit (Tree.canonical [[.text text]]) ≠ .ok [[.text text]] := by
  intro text
  have ordinary : ∀ c ∈ text, ¬ isSpecial c := by simp [text, isSpecial]
  exact ⟨by decide, by decide, ordinary, by decide +kernel, by decide +kernel⟩

end RegexPattern
