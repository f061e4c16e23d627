import RegexPattern.Workbench
import RegexPattern.Proofs.Dot.Lossless
import RegexPattern.Proofs.Dot.Names
import RegexPattern.Proofs.RoundTrip

/-!
Runs of a workbench. Only a step that reads can fail, and then nothing changes. Whatever the steps are, the
digraph that they collect names its nodes apart and is shown by its text; and as long as they put in only what
is read back, the tree is read back.
-/

namespace RegexPattern

namespace Workbench

variable {bench : Workbench} {step : Step}

def source? (bench : Workbench) : Step → Option Text
  | .read pattern => some pattern
  | .reread => some (Tree.canonical bench.tree)
  | _ => none

theorem read_eq_error_iff {pattern : Text} {rejection : Rejection} :
    bench.read pattern = .error rejection ↔ parse bench.limit pattern = .error rejection := by
  unfold read
  cases parse bench.limit pattern <;> simp [Except.map]

theorem read_eq_ok_iff {pattern : Text} {next : Workbench} :
    bench.read pattern = .ok next ↔ ∃ tree, parse bench.limit pattern = .ok tree ∧ next = { bench with tree } := by
  unfold read
  cases parse bench.limit pattern <;> simp [Except.map, eq_comm]

theorem perform_eq_error_iff {rejection : Rejection} :
    bench.perform step = .error rejection ↔
      ∃ text ∈ bench.source? step, parse bench.limit text = .error rejection := by
  cases step <;> simp [perform, source?, reread, read_eq_error_iff]

theorem advance_of_error {rejection : Rejection} (failed : bench.perform step = .error rejection) :
    bench.advance step = bench := by
  rw [advance, failed]

/-- A step that fails might as well have been left out of the run. -/
theorem run_of_rejected {front back : List Step} {text : Text} {rejection : Rejection}
    (reads : text ∈ (bench.run front).source? step)
    (rejected : parse (bench.run front).limit text = .error rejection) :
    bench.run (front ++ step :: back) = bench.run (front ++ back) := by
  have kept := advance_of_error (perform_eq_error_iff.mpr ⟨text, reads, rejected⟩)
  calc
    bench.run (front ++ step :: back) = ((bench.run front).advance step).run back := List.foldl_append
    _ = (bench.run front).run back := by rw [kept]
    _ = bench.run (front ++ back) := List.foldl_append.symm

theorem advance_read (pattern : Text) : ∃ tree, bench.advance (.read pattern) = { bench with tree } := by
  cases performed : bench.perform (.read pattern) with
  | error rejection => exact ⟨bench.tree, advance_of_error performed⟩
  | ok next =>
    obtain ⟨tree, -, rfl⟩ := read_eq_ok_iff.mp performed
    exact ⟨tree, by rw [advance, performed]⟩

theorem advance_collect (bench : Workbench) : bench.advance .collect = bench ∨
    ∃ graph ∈ bench.graph, bench.advance .collect = { bench with digraph := bench.digraph.push graph } := by
  obtain drawn | ⟨graph, drawn⟩ := Option.eq_none_or_eq_some bench.graph
  · exact .inl (by simp [advance, perform, collect, drawn])
  · exact .inr ⟨graph, drawn, by simp [advance, perform, collect, drawn]⟩

/-- All steps but three change the tree or the limit alone, and these three leave both. -/
theorem advance_cases (bench : Workbench) (step : Step) :
    (∃ limit tree, bench.advance step = { bench with limit, tree }) ∨
      (∃ label, bench.advance step = bench.draw label) ∨
      (∃ name, step = .startDigraph name ∧ bench.advance step = bench.startDigraph name) ∨
      (∃ graph ∈ bench.graph, bench.advance step = { bench with digraph := bench.digraph.push graph }) := by
  cases step with
  | allow limit => exact .inl ⟨limit, bench.tree, rfl⟩
  | read pattern =>
    obtain ⟨tree, read⟩ := advance_read pattern
    exact .inl ⟨bench.limit, tree, read⟩
  | reread =>
    obtain ⟨tree, read⟩ := advance_read (Tree.canonical bench.tree)
    exact .inl ⟨bench.limit, tree, read⟩
  | replace tree => exact .inl ⟨bench.limit, tree, rfl⟩
  | wrap mult => exact .inl ⟨bench.limit, bench.tree.wrap mult, rfl⟩
  | addBranches tree => exact .inl ⟨bench.limit, bench.tree ++ tree, rfl⟩
  | addLiteral text => exact .inl ⟨bench.limit, bench.tree.snocAtom (.text text), rfl⟩
  | draw label => exact .inr (.inl ⟨label, rfl⟩)
  | startDigraph name => exact .inr (.inr (.inl ⟨name, rfl, rfl⟩))
  | collect =>
    rcases bench.advance_collect with same | collected
    · exact .inl ⟨bench.limit, bench.tree, same⟩
    · exact .inr (.inr (.inr collected))

/-- All graphs on the workbench are trees in postorder. -/
structure Ordered (bench : Workbench) : Prop where
  drawn : ∀ graph ∈ bench.graph, graph.Postorder
  collected : ∀ graph ∈ bench.digraph.graphs, graph.Postorder

theorem Ordered.advance (ordered : bench.Ordered) (step : Step) : (bench.advance step).Ordered := by
  obtain ⟨drawn, collected⟩ := ordered
  rcases bench.advance_cases step with ⟨limit, tree, next⟩ | ⟨label, next⟩ | ⟨name, -, next⟩ | ⟨graph, found, next⟩
  · rw [next]
    exact ⟨drawn, collected⟩
  · rw [next]
    refine ⟨?_, collected⟩
    rintro graph ⟨⟩
    exact Tree.postorder_graph label bench.tree
  · rw [next]
    exact ⟨drawn, nofun⟩
  · rw [next]
    refine ⟨drawn, fun graph' member => ?_⟩
    rcases List.mem_append.mp member with member | member
    · exact collected graph' member
    · exact List.mem_singleton.mp member ▸ drawn graph found

theorem Ordered.run (ordered : bench.Ordered) (steps : List Step) : (bench.run steps).Ordered := by
  induction steps generalizing bench with
  | nil => exact ordered
  | cons step steps ih => exact ih (ordered.advance step)

theorem ordered_run (steps : List Step) : (run {} steps).Ordered :=
  Ordered.run ⟨by simp, by simp⟩ steps

/-- However a digraph is collected, its text declares each node once, and each cluster links only nodes that it
declares. -/
theorem names_run (steps : List Step) :
    let digraph := (run {} steps).digraph
    (digraph.clusterTexts.flatMap Dot.declaredNames).Nodup ∧
      ∀ text ∈ digraph.clusterTexts, Dot.linkedNames text ⊆ Dot.declaredNames text := by
  have ordered := (ordered_run steps).collected
  exact ⟨Digraph.nodup_declaredNames ordered, Digraph.linkedNames_subset ordered⟩

/-- The text of a digraph that is collected shows its graphs, whatever steps have led to it. -/
theorem graphs_run_eq_of_dot_eq {steps steps' : List Step}
    (names : (run {} steps).digraph.name = (run {} steps').digraph.name)
    (same : (run {} steps).digraph.dot = (run {} steps').digraph.dot) :
    (run {} steps).digraph.graphs = (run {} steps').digraph.graphs :=
  Digraph.graphs_eq_of_clusterLines_eq (ordered_run steps).collected (ordered_run steps').collected
    (Digraph.clusterLines_eq_of_dot_eq names same)

theorem collected_advance (bench : Workbench) (going : ∀ name, step ≠ .startDigraph name) :
    (bench.advance step).digraph.name = bench.digraph.name ∧
      bench.digraph.graphs <+: (bench.advance step).digraph.graphs := by
  rcases bench.advance_cases step with ⟨limit, tree, next⟩ | ⟨label, next⟩ | ⟨name, start, -⟩ | ⟨graph, -, next⟩
  · rw [next]
    exact ⟨rfl, List.prefix_rfl⟩
  · rw [next]
    exact ⟨rfl, List.prefix_rfl⟩
  · exact absurd start (going name)
  · rw [next]
    exact ⟨rfl, List.prefix_append _ _⟩

/-- What has been collected stays in its place until another digraph is started. -/
theorem collected_run (bench : Workbench) {steps : List Step} (going : ∀ name, .startDigraph name ∉ steps) :
    (bench.run steps).digraph.name = bench.digraph.name ∧
      bench.digraph.graphs <+: (bench.run steps).digraph.graphs := by
  induction steps generalizing bench with
  | nil => exact ⟨rfl, List.prefix_rfl⟩
  | cons step steps ih =>
    obtain ⟨name, collected⟩ := collected_advance bench fun name start =>
      going name (start ▸ List.mem_cons_self)
    obtain ⟨name', collected'⟩ := ih (bench.advance step) fun name later =>
      going name (List.mem_cons_of_mem _ later)
    exact ⟨name'.trans name, collected.trans collected'⟩

/-- The step puts in nothing but what is read back, within the limit and behind what the tree ends in. -/
def Orderly (bench : Workbench) : Step → Prop
  | .allow limit => Tree.nesting bench.tree ≤ limit
  | .read pattern => ¬ (Entry.ofPattern bench.limit pattern).differs
  | .replace tree | .addBranches tree => Tree.nesting tree ≤ bench.limit ∧ tree.CanonicalForm
  | .wrap mult => Tree.nesting bench.tree < bench.limit ∧ mult.Faithful
  | .addLiteral text => text ≠ [] ∧ (Atom.text text).Legible ∧
      ∀ branch ∈ bench.tree.getLast?, ∀ atom ∈ branch.getLast?, ¬ atom.isRun
  | .reread | .draw _ | .startDigraph _ | .collect => True

instance : DecidablePred bench.Orderly
  | .allow _ => inferInstanceAs (Decidable (_ ≤ _))
  | .read _ => inferInstanceAs (Decidable (¬ _))
  | .replace _ | .addBranches _ | .wrap _ => inferInstanceAs (Decidable (_ ∧ _))
  | .addLiteral _ =>
    haveI : Decidable (∀ branch ∈ bench.tree.getLast?, ∀ atom ∈ branch.getLast?, ¬ atom.isRun) :=
      Option.decidableForallMem bench.tree.getLast?
    inferInstanceAs (Decidable (_ ∧ _ ∧ _))
  | .reread | .draw _ | .startDigraph _ | .collect => isTrue trivial

theorem reread_eq_ok_iff :
    bench.reread = .ok bench ↔ Tree.nesting bench.tree ≤ bench.limit ∧ bench.tree.CanonicalForm := by
  rw [reread, read_eq_ok_iff, ← parse_canonical_eq_ok_iff]
  constructor
  · rintro ⟨tree, read, same⟩
    have kept : bench.tree = tree := congrArg Workbench.tree same
    rwa [← kept] at read
  · intro read
    exact ⟨bench.tree, read, rfl⟩

theorem stable_of_advance_read {pattern : Text} (stable : bench.reread = .ok bench)
    (same : ¬ (Entry.ofPattern bench.limit pattern).differs) :
    (bench.advance (.read pattern)).reread = .ok (bench.advance (.read pattern)) := by
  cases performed : bench.perform (.read pattern) with
  | error rejection => rwa [advance_of_error performed]
  | ok next =>
    obtain ⟨tree, read, rfl⟩ := read_eq_ok_iff.mp performed
    have canonical : Tree.canonical tree = pattern := by
      simpa [Entry.differs, Entry.ofPattern, read] using same
    rw [advance, performed, reread_eq_ok_iff]
    subst canonical
    exact parse_canonical_eq_ok_iff.mp read

theorem reread_advance (stable : bench.reread = .ok bench) (orderly : bench.Orderly step) :
    (bench.advance step).reread = .ok (bench.advance step) := by
  obtain ⟨shallow, form⟩ := reread_eq_ok_iff.mp stable
  cases step with
  | read pattern => exact stable_of_advance_read stable orderly
  | reread =>
    have same : bench.advance .reread = bench := by rw [advance, perform, stable]
    rwa [same]
  | allow limit => exact reread_eq_ok_iff.mpr ⟨orderly, form⟩
  | replace tree => exact reread_eq_ok_iff.mpr orderly
  | wrap mult =>
    have deeper : Tree.nesting (bench.tree.wrap mult) ≤ bench.limit := by
      rw [Tree.nesting_wrap]
      exact orderly.1
    exact reread_eq_ok_iff.mpr ⟨deeper, form.wrap orderly.2⟩
  | addBranches tree =>
    have beside : Tree.nesting (bench.tree ++ tree) ≤ bench.limit := by
      rw [Tree.nesting_append]
      exact Nat.max_le.mpr ⟨shallow, orderly.1⟩
    exact reread_eq_ok_iff.mpr ⟨beside, form.append orderly.2⟩
  | addLiteral text =>
    obtain ⟨filled, legible, apart⟩ := orderly
    have flat : Tree.nesting (bench.tree.snocAtom (.text text)) ≤ bench.limit := by
      rw [Tree.nesting_snocAtom]
      exact Nat.max_le.mpr ⟨shallow, Nat.zero_le _⟩
    have settled : (Atom.text text).Settled := ⟨.inl rfl, legible⟩
    refine reread_eq_ok_iff.mpr ⟨flat, form.snocAtom ⟨filled, fun _ => rfl⟩ settled nofun ?_⟩
    exact fun branch onTree last onBranch run => absurd run (apart branch onTree last onBranch)
  | draw label => exact reread_eq_ok_iff.mpr ⟨shallow, form⟩
  | startDigraph name => exact reread_eq_ok_iff.mpr ⟨shallow, form⟩
  | collect =>
    rcases bench.advance_collect with same | ⟨graph, -, next⟩
    · rwa [same]
    · rw [next]
      exact reread_eq_ok_iff.mpr ⟨shallow, form⟩

/-- Each step is orderly on the workbench that the steps in front of it leave. -/
def OrderlyRun (bench : Workbench) : List Step → Prop
  | [] => True
  | step :: steps => bench.Orderly step ∧ (bench.advance step).OrderlyRun steps

instance OrderlyRun.decide (bench : Workbench) : (steps : List Step) → Decidable (bench.OrderlyRun steps)
  | [] => isTrue trivial
  | step :: steps =>
    haveI := OrderlyRun.decide (bench.advance step) steps
    inferInstanceAs (Decidable (_ ∧ _))

/-- A tree that is read back stays so in an orderly run. -/
theorem reread_run {steps : List Step} (stable : bench.reread = .ok bench) (orderly : bench.OrderlyRun steps) :
    (bench.run steps).reread = .ok (bench.run steps) := by
  induction steps generalizing bench with
  | nil => exact stable
  | cons step steps ih => exact ih (reread_advance stable orderly.1) orderly.2

example : OrderlyRun { tree := [[]] }
    [.addLiteral ['a'], .wrap (.atLeast 0), .addLiteral ['b'], .reread, .addBranches [[.leaf .anyChar .once]]] := by
  decide +kernel

end Workbench

end RegexPattern
