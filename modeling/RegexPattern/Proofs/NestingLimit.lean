import Mathlib.Control.Monad.Basic
import RegexPattern.Proofs.Exchange
import RegexPattern.Proofs.FaultPlace

/-!
The limit on the nesting of groups. It is compared with the groups that are open and with nothing
else, so that every answer but the refusal of a group is the same under all larger limits, and a
group is refused exactly where it would be the first one beyond the limit.
-/

namespace RegexPattern
namespace Reader

/-- The answer does not refuse a group for standing inside too many others. -/
def WithinLimit {α : Type} (answer : Except Fault α) : Prop :=
  ∀ fault, answer = .error fault → ∀ limit, fault.cause ≠ .nestingTooDeep limit

section

variable {α β : Type}

@[simp] theorem withinLimit_ok (a : α) : WithinLimit (.ok a) := nofun

@[simp] theorem withinLimit_error {fault : Fault} :
    WithinLimit (.error fault : Except Fault α) ↔ ∀ limit, fault.cause ≠ .nestingTooDeep limit := by
  simp [WithinLimit]

@[simp] theorem withinLimit_map {answer : Except Fault α} {f : α → β} :
    WithinLimit (answer.map f) ↔ WithinLimit answer := by
  cases answer <;> simp

theorem withinLimit_bind {answer : Except Fault α} {f : α → Except Fault β} :
    WithinLimit (answer >>= f) ↔ WithinLimit answer ∧ ∀ a, answer = .ok a → WithinLimit (f a) := by
  cases answer <;> simp [bind, Except.bind]

theorem bind_eq_of_withinLimit {answer answer' : Except Fault α} {f g : α → Except Fault β}
    (within : WithinLimit (answer >>= f)) (first : WithinLimit answer → answer' = answer)
    (second : ∀ a, answer = .ok a → WithinLimit (f a) → g a = f a) : answer' >>= g = answer >>= f := by
  obtain ⟨within, within'⟩ := withinLimit_bind.mp within
  rw [first within]
  cases answer with
  | error => rfl
  | ok a => exact second a rfl (within' a rfl)

end

theorem ne_nestingTooDeep {text : Text} {fault : Fault} {named : Nat}
    (points : ∀ limit, fault.PointsInto limit text) : fault.cause ≠ .nestingTooDeep named := by
  intro deep
  have pointsAt := (points (named + 1)).pointsAt
  rw [deep] at pointsAt
  exact absurd pointsAt.1 (Nat.ne_of_lt (Nat.lt_succ_self named))

/-- A larger allowance changes no answer but the refusal of a group. -/
theorem readTree_eq_of_withinLimit {limit limit' allowance allowance' : Nat} {text : Text}
    (within : WithinLimit (readTree limit allowance text)) (more : allowance ≤ allowance') :
    readTree limit' allowance' text = readTree limit allowance text := by
  induction size : text.length using Nat.strongRecOn generalizing text allowance allowance' with
  | ind bound ih =>
    subst size
    by_cases bar : ∃ rest, text = '|' :: rest
    · obtain ⟨rest, rfl⟩ := bar
      rw [readTree_bar, withinLimit_map] at within
      rw [readTree_bar, readTree_bar, ih _ (by simp) within more rfl]
    by_cases group : ∃ rest, text = '(' :: rest
    · obtain ⟨rest, rfl⟩ := group
      obtain _ | inner := allowance
      · rw [readTree_group_zero] at within
        simp at within
      obtain ⟨inner', rfl⟩ : ∃ deeper, allowance' = deeper + 1 := ⟨allowance' - 1, by omega⟩
      rw [readTree_group_succ] at within
      rw [readTree_group_succ, readTree_group_succ]
      refine bind_eq_of_withinLimit within (fun within => ih _ (by simp) within (by omega) rfl) ?_
      rintro ⟨content, after⟩ read within
      have shorter := length_readTree read
      refine bind_eq_of_withinLimit within (fun _ => rfl) ?_
      intro after' closed within
      have shorter' := length_closeGroup closed
      refine bind_eq_of_withinLimit within (fun _ => rfl) ?_
      rintro ⟨mult, after''⟩ quantified within
      have shorter'' := length_readMultiplicity quantified
      have smaller : after''.length < ('(' :: rest).length := by
        rw [List.length_cons]
        omega
      exact bind_eq_of_withinLimit within (fun within => ih _ smaller within more rfl) fun _ _ _ => rfl
    · have noBar (rest : Text) : text ≠ '|' :: rest := fun same => bar ⟨rest, same⟩
      have noGroup (rest : Text) : text ≠ '(' :: rest := fun same => group ⟨rest, same⟩
      rw [readTree_leaf _ _ _ noBar noGroup] at within
      rw [readTree_leaf _ _ _ noBar noGroup, readTree_leaf _ _ _ noBar noGroup]
      refine bind_eq_of_withinLimit within (fun _ => rfl) ?_
      rintro (_ | ⟨leaf, after⟩) read within
      · rfl
      have shorter := length_readLeaf read
      refine bind_eq_of_withinLimit within (fun _ => rfl) ?_
      rintro ⟨mult, after'⟩ quantified within
      have shorter' := length_readMultiplicity quantified
      exact bind_eq_of_withinLimit within (fun within => ih _ (by omega) within more rfl) fun _ _ _ => rfl

end Reader

namespace Grammar
open Reader

theorem TreeEnds.replicate_append {rest : Text} (ends : TreeEnds rest) (count : Nat) :
    TreeEnds (List.replicate count ')' ++ rest) := by
  cases count with
  | zero => exact ends
  | succ count => exact .inr ⟨_, rfl⟩

/-- With `depth` groups closed right behind it, the text derives a tree in which `depth` groups stand
inside one another. -/
structure Opens (depth : Nat) (front : Text) (tree : Tree) : Prop where
  closed : front ≠ ['\\']
  nesting : Tree.nesting tree = depth
  derives : ∀ after, TreeEnds after → TreeOf tree (front ++ List.replicate depth ')') after

namespace Opens

variable {depth : Nat} {front : Text} {tree : Tree}

theorem nil : Opens 0 [] [[]] where
  closed := by simp
  nesting := rfl
  derives _ _ := .last .nil

theorem bar (opens : Opens depth front tree) : Opens depth ('|' :: front) ([] :: tree) where
  closed := by simp
  nesting := by rw [Tree.nesting, opens.nesting, Branch.nesting, Nat.zero_max]
  derives after ends := .cons .nil (opens.derives after ends)

theorem inside (opens : Opens depth front tree) :
    Opens (depth + 1) ('(' :: front) [[.group tree .once]] where
  closed := by simp
  nesting := by simp [Tree.nesting, Branch.nesting, Atom.nesting, opens.nesting]
  derives after ends := by
    have content := opens.derives (')' :: after) (.inr ⟨after, rfl⟩)
    have group := content.atomOf (by simp [ends.boundary.unquantified])
    rw [List.replicate_succ']
    simpa using TreeOf.last group.branchOf

/-- The parentheses that close the groups stand where the next group would have been opened. -/
theorem consAtom {atom : Atom} {source more : Text} (opens : Opens depth front tree)
    (shallow : atom.nesting ≤ depth) (derives : AtomOf atom source (front ++ '(' :: more)) :
    Opens depth (source ++ front) (tree.consAtom atom) where
  closed := by
    exact derives.branchOf.append_ne opens.closed
  nesting := by rw [Tree.nesting_consAtom, opens.nesting, Nat.max_eq_right shallow]
  derives after ends := by
    have group : Boundary ('(' :: more) := by simp [Boundary]
    have closing : Boundary (List.replicate depth ')' ++ after) := (ends.replicate_append depth).boundary
    have derives := derives.congr ((group.looksLike closing).append opens.closed)
    rw [List.append_assoc]
    refine .consAtom ?_ (opens.derives after ends)
    simpa using derives

end Opens

section

variable {limit allowance : Nat} {text : Text} {fault : Fault}

theorem opens_of_readTree {named : Nat} (read : readTree limit allowance text = .error fault)
    (deep : fault.cause = .nestingTooDeep named) :
    ∃ front more tree, fault = ⟨.nestingTooDeep limit, '(' :: more⟩ ∧ text = front ++ '(' :: more ∧
      Opens allowance front tree := by
  have fails := failsWith_of_readTree read
  clear read
  induction fails with
  | bar _ ih =>
    obtain ⟨front, more, tree, rfl, rfl, opens⟩ := ih deep
    exact ⟨'|' :: front, more, [] :: tree, rfl, rfl, opens.bar⟩
  | @refused rest => exact ⟨[], rest, [[]], rfl, rfl, .nil⟩
  | inside _ ih =>
    obtain ⟨front, more, tree, rfl, rfl, opens⟩ := ih deep
    exact ⟨'(' :: front, more, _, rfl, rfl, opens.inside⟩
  | unclosed inside stopped =>
    exact absurd deep (ne_nestingTooDeep fun _ => pointsInto_of_closeGroup (treeStops_of_readTree inside) stopped)
  | groupQuantifier _ stopped => exact absurd deep (ne_nestingTooDeep fun _ => pointsInto_of_readMultiplicity stopped)
  | leaf _ _ stopped => exact absurd deep (ne_nestingTooDeep fun _ => pointsInto_of_readLeaf stopped)
  | leafQuantifier _ _ _ stopped =>
    exact absurd deep (ne_nestingTooDeep fun _ => pointsInto_of_readMultiplicity stopped)
  | @behind _ source _ atom _ shallow derives _ ih =>
    obtain ⟨front, more, tree, rfl, rfl, opens⟩ := ih deep
    have first : AtomOf atom source (front ++ '(' :: more) := by simpa using derives []
    exact ⟨source ++ front, more, tree.consAtom atom, rfl, by simp, opens.consAtom shallow first⟩

end

end Grammar

open Reader Grammar Text

variable {limit other : Nat} {pattern : Text}

theorem parse_eq_of_withinLimit (within : WithinLimit (readTree limit limit pattern))
    (more : limit ≤ other) : parse other pattern = parse limit pattern := by
  unfold parse
  rw [readTree_eq_of_withinLimit within more]

theorem parse_eq_error_of_le {rejection : Rejection} (read : parse limit pattern = .error rejection)
    (within : ∀ named, rejection.cause ≠ .nestingTooDeep named) (more : limit ≤ other) :
    parse other pattern = .error rejection := by
  rw [← read]
  apply parse_eq_of_withinLimit ?_ more
  intro fault stopped named deep
  simp only [parse, stopped, Except.error.injEq] at read
  exact within named (read ▸ deep)

theorem opens_of_parse {rejection : Rejection} {named : Nat} (read : parse limit pattern = .error rejection)
    (deep : rejection.cause = .nestingTooDeep named) :
    ∃ front more tree, rejection = (Fault.mk (.nestingTooDeep limit) ('(' :: more)).within pattern ∧
      pattern = front ++ '(' :: more ∧ Opens limit front tree := by
  rcases parse_eq_error read with ⟨fault, stopped, rfl⟩ | ⟨_, _, -, -, rfl⟩
  · obtain ⟨front, more, tree, rfl, split, opens⟩ := opens_of_readTree stopped deep
    exact ⟨front, more, tree, rfl, split, opens⟩
  · cases deep

theorem parse_eq_error_of_lt {tree : Tree} (read : parse limit pattern = .ok tree)
    (shallow : other < Tree.nesting tree) :
    ∃ rejection, parse other pattern = .error rejection ∧ rejection.cause = .nestingTooDeep other := by
  have below : other ≤ limit := by
    have fits := (parse_eq_ok_iff_treeOf.mp read).1
    omega
  cases answer : parse other pattern with
  | ok tree' =>
    obtain ⟨shallow', derives⟩ := parse_eq_ok_iff_treeOf.mp answer
    have same : parse limit pattern = .ok tree' := derives.parse_eq (Nat.le_trans shallow' below)
    rw [read, Except.ok.injEq] at same
    subst same
    omega
  | error rejection =>
    by_cases deep : ∃ named, rejection.cause = .nestingTooDeep named
    · obtain ⟨named, deep⟩ := deep
      obtain ⟨front, more, tree, rfl, -, -⟩ := opens_of_parse answer deep
      exact ⟨_, rfl, rfl⟩
    · have same := parse_eq_error_of_le answer (fun named deep' => deep ⟨named, deep'⟩) below
      rw [read] at same
      cases same

/-- The limit is compared with the nesting of the tree and with nothing else: a tree is read under
exactly the limits that it keeps, any other fault is the same under all larger limits, and a group is
refused where as many groups as allowed are open. -/
theorem parse_nesting_limit (pattern : Text) (limit other : Nat) :
    (∀ tree, parse limit pattern = .ok tree →
      Tree.nesting tree ≤ limit ∧
      (Tree.nesting tree ≤ other → parse other pattern = .ok tree) ∧
      (other < Tree.nesting tree → ∃ rejection,
        parse other pattern = .error rejection ∧ rejection.cause = .nestingTooDeep other)) ∧
    (∀ rejection, parse limit pattern = .error rejection →
      ((∀ named, rejection.cause ≠ .nestingTooDeep named) → limit ≤ other →
        parse other pattern = .error rejection) ∧
      (∀ named, rejection.cause = .nestingTooDeep named →
        named = limit ∧ rejection.fragment.head? = some '(' ∧
        ∃ front tree, pattern = front ++ rejection.fragment ∧ rejection.offset = byteLength front ∧
          parse limit (front ++ List.replicate limit ')') = .ok tree ∧ Tree.nesting tree = limit)) := by
  constructor
  · intro tree read
    obtain ⟨shallow, derives⟩ := parse_eq_ok_iff_treeOf.mp read
    exact ⟨shallow, fun fits => derives.parse_eq fits, parse_eq_error_of_lt read⟩
  · intro rejection read
    refine ⟨parse_eq_error_of_le read, ?_⟩
    intro named deep
    obtain ⟨front, more, tree, rfl, rfl, opens⟩ := opens_of_parse read deep
    have closed := opens.derives [] (.inl rfl)
    refine ⟨(Cause.nestingTooDeep.inj deep).symm, rfl, front, tree, rfl, ?_, ?_, opens.nesting⟩
    · simp [Fault.within]
    · exact closed.parse_eq (Nat.le_of_eq opens.nesting)

theorem parse_nesting_limit_groups :
    let nested : Tree := [[.group [[.group [[.text ['b']]] .once], [.text ['c']]] (.atLeast 0)]]
    let pattern : Text := ['(', '(', 'b', ')', '|', 'c', ')', '*']
    let unclosed : Rejection := ⟨⟨.unclosedGroup, []⟩, 2⟩
    let refused : Rejection := ⟨⟨.nestingTooDeep 2, ['(', 'c']⟩, 5⟩
    (parse 2 pattern = .ok nested ∧ parse 3 pattern = .ok nested ∧ ∃ rejection,
      parse 1 pattern = .error rejection ∧ rejection.cause = .nestingTooDeep 1) ∧
    (parse 1 ['(', 'a'] = .error unclosed ∧ parse 2 ['(', 'a'] = .error unclosed) ∧
    (parse 2 ['|', '(', 'a', '(', 'b', '(', 'c'] = .error refused ∧
      ∃ front tree, ['|', '(', 'a', '(', 'b', '(', 'c'] = front ++ ['(', 'c'] ∧ 5 = byteLength front ∧
        parse 2 (front ++ List.replicate 2 ')') = .ok tree ∧ Tree.nesting tree = 2) := by
  intro nested pattern unclosed refused
  have read : parse 2 pattern = .ok nested := by decide +kernel
  have failed : parse 1 ['(', 'a'] = .error unclosed := by decide +kernel
  have stopped : parse 2 ['|', '(', 'a', '(', 'b', '(', 'c'] = .error refused := by decide +kernel
  have larger := (parse_nesting_limit pattern 2 3).1 nested read
  have smaller := (parse_nesting_limit pattern 2 1).1 nested read
  have same := (parse_nesting_limit ['(', 'a'] 1 2).2 unclosed failed
  have deep := (parse_nesting_limit _ 2 2).2 refused stopped
  exact ⟨⟨read, larger.2.1 (by decide), smaller.2.2 (by decide)⟩,
    ⟨failed, same.1 (by simp [unclosed]) (by decide)⟩, stopped, (deep.2 2 rfl).2.2⟩

end RegexPattern
