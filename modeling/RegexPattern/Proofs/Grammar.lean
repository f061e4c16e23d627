import RegexPattern.Metachar
import RegexPattern.Tree

/-!
The grammar of patterns, without a reader. `XOf value source rest` says that `source` derives the
value where `rest` is the text behind it: some constructs are told apart by what follows them.

    alternative ::= sequence ('|' sequence)*
    sequence    ::= atom*
    atom        ::= simple quantifier
    simple      ::= '(' alternative ')' | charset | '.' | '^' | '$' | literal
-/

namespace RegexPattern.Grammar

inductive UnitOf : Char → Text → Prop where
  | escaped (c : Char) : UnitOf c ['\\', c]
  | plain {c : Char} : isPlain c → UnitOf c [c]

/-- A run goes no further: no unit starts here, or one that a quantifier follows. -/
def RunEnds (rest : Text) : Prop :=
  ∀ c unit after, UnitOf c unit → rest = unit ++ after → startsQuantifier after

inductive RunOf : Text → Text → Text → Prop where
  | nil {rest : Text} : RunEnds rest → RunOf [] [] rest
  | cons {c : Char} {unit run source rest : Text} : UnitOf c unit →
      ¬ startsQuantifier (source ++ rest) → RunOf run source rest →
      RunOf (c :: run) (unit ++ source) rest

/-- One unit that a quantifier follows, or a run; a bracket would start a charset. -/
inductive LiteralOf : Text → Text → Text → Prop where
  | single {c : Char} {unit rest : Text} : UnitOf c unit →
      unit.head? ≠ some '[' → startsQuantifier rest → LiteralOf [c] unit rest
  | run {run source rest : Text} : RunOf run source rest → run ≠ [] →
      source.head? ≠ some '[' → LiteralOf run source rest

structure NumberOf (n : UInt32) (digits : Text) : Prop where
  filled : digits ≠ []
  isDigit : ∀ c ∈ digits, c.isDigit
  value : Nat.ofDigitChars 10 digits 0 = n.toNat

inductive BoundsOf : UInt32 → Option UInt32 → Text → Prop where
  | plus : BoundsOf 1 none ['+']
  | star : BoundsOf 0 none ['*']
  | atLeast {min : UInt32} {digits : Text} : NumberOf min digits →
      BoundsOf min none (['{'] ++ digits ++ [',', '}'])
  | between {min max : UInt32} {lower upper : Text} : NumberOf min lower → NumberOf max upper →
      min ≤ max → BoundsOf min (some max) (['{'] ++ lower ++ [','] ++ upper ++ ['}'])
  | atMost {max : UInt32} {digits : Text} : NumberOf max digits →
      BoundsOf 0 (some max) (['{', ','] ++ digits ++ ['}'])

inductive QuantifierOf : Multiplicity → Text → Text → Prop where
  | optional {rest : Text} : QuantifierOf .optional ['?'] rest
  | exactly {count : UInt32} {digits rest : Text} : NumberOf count digits →
      QuantifierOf (.exactly count) (['{'] ++ digits ++ ['}']) rest
  | greedy {mult : Multiplicity} {source rest : Text} : BoundsOf mult.min mult.max source →
      mult.greedy = true → rest.head? ≠ some '?' → QuantifierOf mult source rest
  | nonGreedy {mult : Multiplicity} {source rest : Text} : BoundsOf mult.min mult.max source →
      mult.greedy = false → QuantifierOf mult (source ++ ['?']) rest
  | once {rest : Text} : ¬ startsQuantifier rest → QuantifierOf .once [] rest

inductive MemberOf : Char → Text → Prop where
  | escaped (c : Char) : MemberOf c ['\\', c]
  | raw {c : Char} : c ≠ '\\' → MemberOf c [c]

/-- A dash and anything but the closing bracket behind a character makes a range. -/
inductive ElementOf : Element → Text → Text → Prop where
  | char {c : Char} {source rest : Text} : MemberOf c source →
      (∀ next more, rest = '-' :: next :: more → next = ']') → ElementOf (.char c) source rest
  | range {range : CharRange} {first last rest : Text} : MemberOf range.first first →
      MemberOf range.last last → last ≠ [']'] →
      ElementOf (.range range) (first ++ ['-'] ++ last) rest

inductive ElementsOf : ElementSet → Text → Prop where
  | nil : ElementsOf .empty []
  | cons {element : Element} {set : ElementSet} {source more : Text} : source.head? ≠ some ']' →
      ElementOf element source (more ++ [']']) → ElementsOf set more →
      ElementsOf (set.insert element) (source ++ more)

inductive CharsetOf : Charset → Text → Prop where
  | plain {set : ElementSet} {source : Text} : ElementsOf set source → source.head? ≠ some '^' →
      CharsetOf ⟨false, set⟩ (['['] ++ source ++ [']'])
  | negated {set : ElementSet} {source : Text} : ElementsOf set source →
      CharsetOf ⟨true, set⟩ (['[', '^'] ++ source ++ [']'])

inductive LeafOf : Leaf → Text → Text → Prop where
  | anyChar {rest : Text} : LeafOf .anyChar ['.'] rest
  | matchStart {rest : Text} : LeafOf .matchStart ['^'] rest
  | matchEnd {rest : Text} : LeafOf .matchEnd ['$'] rest
  | charset {set : Charset} {source rest : Text} : CharsetOf set source →
      LeafOf (.charset set) source rest
  | literal {run source rest : Text} : LiteralOf run source rest →
      LeafOf (.literal run) source rest

mutual

inductive AtomOf : Atom → Text → Text → Prop where
  | leaf {leaf : Leaf} {mult : Multiplicity} {source quantifier rest : Text} :
      LeafOf leaf source (quantifier ++ rest) → QuantifierOf mult quantifier rest →
      AtomOf (.leaf leaf mult) (source ++ quantifier) rest
  | group {content : List (List Atom)} {mult : Multiplicity} {inner quantifier rest : Text} :
      TreeOf content inner (')' :: (quantifier ++ rest)) → QuantifierOf mult quantifier rest →
      AtomOf (.group content mult) (['('] ++ inner ++ [')'] ++ quantifier) rest

inductive BranchOf : List Atom → Text → Text → Prop where
  | nil {rest : Text} : BranchOf [] [] rest
  | cons {atom : Atom} {branch : List Atom} {source more rest : Text} :
      AtomOf atom source (more ++ rest) → BranchOf branch more rest →
      BranchOf (atom :: branch) (source ++ more) rest

inductive TreeOf : List (List Atom) → Text → Text → Prop where
  | last {branch : List Atom} {source rest : Text} : BranchOf branch source rest →
      TreeOf [branch] source rest
  | cons {branch : List Atom} {tree : List (List Atom)} {source more rest : Text} :
      BranchOf branch source ('|' :: (more ++ rest)) → TreeOf tree more rest →
      TreeOf (branch :: tree) (source ++ ['|'] ++ more) rest

end

/-! How each construct starts, which is what the construct in front of it looks at. -/

theorem UnitOf.head {c : Char} {unit : Text} (derives : UnitOf c unit) :
    ∃ first more, unit = first :: more ∧ (first = '\\' ∧ more ≠ [] ∨ isPlain first) := by
  cases derives with
  | escaped => exact ⟨_, _, rfl, .inl ⟨rfl, by simp⟩⟩
  | plain plain => exact ⟨_, _, rfl, .inr plain⟩

theorem UnitOf.unquantified {c : Char} {unit : Text} (derives : UnitOf c unit) (rest : Text) :
    ¬ startsQuantifier (unit ++ rest) := by
  obtain ⟨first, more, rfl, ⟨rfl, -⟩ | plain⟩ := derives.head
  · simp [startsQuantifier, isOpener]
  · simp_all [startsQuantifier, isOpener, isPlain, isMetachar]

theorem UnitOf.runEnds {c : Char} {unit rest : Text} (derives : UnitOf c unit)
    (quantified : startsQuantifier rest) : RunEnds (unit ++ rest) := by
  have noSlash : ¬ isPlain '\\' := by decide
  intro c' unit' after derives' same
  cases derives <;> cases derives' <;> grind

theorem runEnds_of_head {rest : Text} (noUnit : ∀ c ∈ rest.head?, c ≠ '\\' ∧ ¬ isPlain c) :
    RunEnds rest := by
  intro c unit after derives same
  obtain ⟨first, more, rfl, kind⟩ := derives.head
  rw [same] at noUnit
  rcases kind with ⟨slash, -⟩ | plain
  · exact absurd slash (noUnit first rfl).1
  · exact absurd plain (noUnit first rfl).2

theorem LiteralOf.ne_nil {run source rest : Text} (derives : LiteralOf run source rest) : run ≠ [] := by
  cases derives with
  | single => exact List.cons_ne_nil _ _
  | run _ filled => exact filled

theorem LiteralOf.head {run source rest : Text} (derives : LiteralOf run source rest) :
    ∃ first more, source = first :: more ∧ first ≠ '[' ∧
      (first = '\\' ∧ more ≠ [] ∨ isPlain first) := by
  have start (unit after : Text) (c : Char) (derives : UnitOf c unit)
      (noCharset : (unit ++ after).head? ≠ some '[') : ∃ first more, unit ++ after = first :: more ∧
        first ≠ '[' ∧ (first = '\\' ∧ more ≠ [] ∨ isPlain first) := by
    obtain ⟨first, more, rfl, kind⟩ := derives.head
    refine ⟨first, more ++ after, rfl, fun same => noCharset (same ▸ rfl), ?_⟩
    exact kind.imp_left fun ⟨slash, filled⟩ => ⟨slash, by simp [filled]⟩
  cases derives with
  | single derives noCharset =>
    simpa using start _ [] _ derives (by simpa using noCharset)
  | run derives filled noCharset =>
    cases derives with
    | nil => exact absurd rfl filled
    | cons derives => exact start _ _ _ derives noCharset

theorem MemberOf.head {c : Char} {source : Text} (derives : MemberOf c source) :
    ∃ d more, source = d :: more ∧ (source ≠ [']'] → d ≠ ']') := by
  cases derives with
  | escaped => exact ⟨_, _, rfl, fun _ => by decide⟩
  | raw => exact ⟨_, _, rfl, fun open_ same => open_ (same ▸ rfl)⟩

theorem ElementOf.ne_nil {element : Element} {source rest : Text} (derives : ElementOf element source rest) :
    source ≠ [] := by
  cases derives with
  | char member => cases member <;> simp
  | range => simp

theorem BoundsOf.head {min : UInt32} {max : Option UInt32} {source : Text}
    (derives : BoundsOf min max source) : ∃ first more, source = first :: more ∧ isOpener first := by
  cases derives <;> exact ⟨_, _, rfl, rfl⟩

theorem BoundsOf.quantifierOf {mult : Multiplicity} {source rest : Text}
    (derives : BoundsOf mult.min mult.max source) (unquantified : ¬ startsQuantifier rest) :
    QuantifierOf mult (source ++ if mult.greedy then [] else ['?']) rest := by
  cases greedy : mult.greedy with
  | true =>
    have unmarked : rest.head? ≠ some '?' := by
      intro marked
      obtain ⟨more, rfl⟩ := List.head?_eq_some_iff.mp marked
      exact unquantified rfl
    simpa using QuantifierOf.greedy derives greedy unmarked
  | false => exact .nonGreedy derives greedy

theorem QuantifierOf.head {mult : Multiplicity} {source rest : Text}
    (derives : QuantifierOf mult source rest) :
    (source = [] ∧ mult = .once ∧ ¬ startsQuantifier rest) ∨
      ∃ first more, source = first :: more ∧ isOpener first := by
  cases derives with
  | optional => exact .inr ⟨_, _, rfl, rfl⟩
  | exactly => exact .inr ⟨_, _, rfl, rfl⟩
  | greedy bounds => exact .inr bounds.head
  | nonGreedy bounds =>
    obtain ⟨first, more, rfl, opener⟩ := bounds.head
    exact .inr ⟨first, more ++ ['?'], rfl, opener⟩
  | once unquantified => exact .inl ⟨rfl, rfl, unquantified⟩

theorem QuantifierOf.unquantified {mult : Multiplicity} {rest : Text} (derives : QuantifierOf mult [] rest) :
    ¬ startsQuantifier rest := by
  rcases derives.head with ⟨-, -, unquantified⟩ | ⟨first, more, same, -⟩
  · exact unquantified
  · cases same

theorem QuantifierOf.getLast?_ne {mult : Multiplicity} {source rest : Text}
    (derives : QuantifierOf mult source rest) : source.getLast? ≠ some ']' := by
  have bounds {min : UInt32} {max : Option UInt32} {source : Text} (derives : BoundsOf min max source) :
      source.getLast? ≠ some ']' := by
    cases derives with
    | plus => simp
    | star => simp
    | _ =>
      rw [List.getLast?_append]
      simp
  cases derives with
  | optional => simp
  | greedy derives => exact bounds derives
  | once => simp
  | _ =>
    rw [List.getLast?_append]
    simp

def startsAtom (c : Char) : Bool := c ∉ ['|', ')'] && !isOpener c

theorem LeafOf.head {leaf : Leaf} {source rest : Text} (derives : LeafOf leaf source rest) :
    ∃ first more, source = first :: more ∧ startsAtom first ∧ first ≠ '(' ∧
      (first = '\\' → more ≠ []) := by
  cases derives with
  | anyChar => exact ⟨_, _, rfl, by decide⟩
  | matchStart => exact ⟨_, _, rfl, by decide⟩
  | matchEnd => exact ⟨_, _, rfl, by decide⟩
  | charset derives => cases derives <;> exact ⟨_, _, rfl, by decide, by decide, nofun⟩
  | literal derives =>
    obtain ⟨first, more, rfl, -, kind⟩ := derives.head
    refine ⟨first, more, rfl, ?_⟩
    rcases kind with ⟨rfl, filled⟩ | plain
    · exact ⟨by decide, by decide, fun _ => filled⟩
    · obtain ⟨notSlash, notGroup, starts⟩ : first ≠ '\\' ∧ first ≠ '(' ∧ startsAtom first := by
        simp_all [isPlain, isMetachar, startsAtom, isOpener]
      exact ⟨starts, notGroup, fun same => absurd same notSlash⟩

theorem LeafOf.charsetOf {set : Charset} {source rest : Text} (derives : LeafOf (.charset set) source rest) :
    CharsetOf set source := by
  cases derives with
  | charset derives => exact derives

theorem LeafOf.literalOf {run source rest : Text} (derives : LeafOf (.literal run) source rest) :
    LiteralOf run source rest := by
  cases derives with
  | literal derives => exact derives

theorem AtomOf.head {atom : Atom} {source rest : Text} (derives : AtomOf atom source rest) :
    ∃ first more, source = first :: more ∧ startsAtom first ∧ (first = '\\' → more ≠ []) := by
  cases derives with
  | leaf derives =>
    obtain ⟨first, more, rfl, starts, -, escape⟩ := derives.head
    exact ⟨first, more ++ _, rfl, starts, fun slash => by simp [escape slash]⟩
  | group => exact ⟨_, _, rfl, by decide, nofun⟩

/-- No quantifier follows an atom behind which only atoms, or nothing, stand in the branch. -/
theorem BranchOf.unquantified {branch : Branch} {source rest : Text} (derives : BranchOf branch source rest)
    (unquantified : ¬ startsQuantifier rest) : ¬ startsQuantifier (source ++ rest) := by
  cases derives with
  | nil => exact unquantified
  | cons derives =>
    obtain ⟨first, more, rfl, starts, -⟩ := derives.head
    simp_all [startsAtom, startsQuantifier]

theorem BranchOf.append_ne {branch : Branch} {source rest after : Text}
    (derives : BranchOf branch source rest) (closed : after ≠ ['\\']) : source ++ after ≠ ['\\'] := by
  cases derives with
  | nil => exact closed
  | cons derives =>
    obtain ⟨first, more, rfl, -, escape⟩ := derives.head
    intro same
    obtain ⟨slash, same⟩ := List.cons.inj same
    simp [escape slash] at same

theorem QuantifierOf.append_ne {mult : Multiplicity} {source rest after : Text}
    (derives : QuantifierOf mult source rest) (closed : after ≠ ['\\']) : source ++ after ≠ ['\\'] := by
  rcases derives.head with ⟨rfl, -⟩ | ⟨first, more, rfl, opener⟩
  · exact closed
  · intro same
    rw [(List.cons.inj same).1] at opener
    exact absurd opener (by decide)

theorem TreeOf.ne_nil {tree : Tree} {source rest : Text} (derives : TreeOf tree source rest) : tree ≠ [] := by
  cases derives <;> simp

theorem LeafOf.atomOf {leaf : Leaf} {source rest : Text} (derives : LeafOf leaf source rest)
    (unquantified : ¬ startsQuantifier rest) : AtomOf (.leaf leaf .once) source rest := by
  have atom : AtomOf (.leaf leaf .once) (source ++ []) rest := .leaf derives (.once unquantified)
  rwa [List.append_nil] at atom

theorem TreeOf.atomOf {content : Tree} {inner rest : Text} (derives : TreeOf content inner (')' :: rest))
    (unquantified : ¬ startsQuantifier rest) :
    AtomOf (.group content .once) (['('] ++ inner ++ [')']) rest := by
  have atom : AtomOf (.group content .once) (['('] ++ inner ++ [')'] ++ []) rest :=
    .group derives (.once unquantified)
  rwa [List.append_nil] at atom

theorem AtomOf.branchOf {atom : Atom} {source rest : Text} (derives : AtomOf atom source rest) :
    BranchOf [atom] source rest := by
  have branch : BranchOf [atom] (source ++ []) rest := .cons derives .nil
  rwa [List.append_nil] at branch

theorem TreeOf.consAtom {atom : Atom} {tree : Tree} {source more rest : Text}
    (first : AtomOf atom source (more ++ rest)) (derives : TreeOf tree more rest) :
    TreeOf (tree.consAtom atom) (source ++ more) rest := by
  cases derives with
  | last branch => exact .last (.cons first branch)
  | @cons branch tree more' more'' _ derives others =>
    rw [← List.append_assoc, ← List.append_assoc]
    refine .cons (.cons ?_ derives) others
    simpa using first

end RegexPattern.Grammar
