import RegexPattern.CommandLine.Run
import RegexPattern.Proofs.Pieces
import RegexPattern.Proofs.Shortest

/-!
Reports on many patterns. A step of a report only adds to what there is, and what it adds depends on its
pattern alone: a report on two lists of patterns is put together from the reports on each of them.
-/

namespace RegexPattern

open Text

def Rejected (limit : Nat) (pattern : Text) : Prop := ∃ rejection, parse limit pattern = .error rejection

/-- The pattern is read as a tree with another canonical text. -/
def Rewritten (limit : Nat) (pattern : Text) : Prop :=
  ∃ tree, parse limit pattern = .ok tree ∧ Tree.canonical tree ≠ pattern

def canonicalText? (limit : Nat) (pattern : Text) : Option Text :=
  (parse limit pattern).toOption.map Tree.canonical

section

variable {limit : Nat} {pattern : Text}

theorem visible_canonicalText {text : Text} (accepted : text ∈ canonicalText? limit pattern) : Visible text := by
  obtain ⟨tree, -, rfl⟩ := Option.map_eq_some_iff.mp accepted
  exact Tree.visible_canonical tree

theorem not_rejected_iff : ¬ Rejected limit pattern ↔ ∃ tree, parse limit pattern = .ok tree := by
  unfold Rejected
  cases parse limit pattern <;> simp

instance : DecidablePred (Rejected limit) := fun pattern =>
  match read : parse limit pattern with
  | .error rejection => isTrue ⟨rejection, read⟩
  | .ok tree => isFalse (not_rejected_iff.mpr ⟨tree, read⟩)

instance : DecidablePred (Rewritten limit) := fun pattern =>
  match read : parse limit pattern with
  | .error _ => isFalse fun ⟨_, read', _⟩ => nomatch read.symm.trans read'
  | .ok tree => decidable_of_iff (Tree.canonical tree ≠ pattern) (by simp [Rewritten, read])

end

namespace Progress

def join (first second : Progress) : Progress where
  failed := first.failed || second.failed
  mismatched := first.mismatched || second.mismatched
  digraph := { first.digraph with graphs := first.digraph.graphs ++ second.digraph.graphs }
  stdout := first.stdout ++ second.stdout
  stderr := first.stderr ++ second.stderr

theorem join_blank (progress : Progress) : progress.join blank = progress := by
  simp [join, blank]

variable {settings : Settings}

/-- A step adds behind what there is, and what it adds does not depend on that. -/
theorem step_join (first second : Progress) (pattern : Text) :
    (first.join second).step settings pattern = first.join (second.step settings pattern) := by
  cases read : parse settings.limit pattern with
  | error rejection => simp [step, Entry.ofPattern, read, join]
  | ok tree =>
    cases format : settings.format <;>
      simp [step, Entry.ofPattern, read, format, join, Digraph.push, Bool.or_assoc]

theorem step_eq_join (progress : Progress) (pattern : Text) :
    progress.step settings pattern = progress.join (blank.step settings pattern) := by
  rw [← step_join, join_blank]

def run (settings : Settings) (patterns : List Text) : Progress := patterns.foldl (step settings) blank

theorem foldl_step (progress : Progress) (patterns : List Text) :
    patterns.foldl (step settings) progress = progress.join (run settings patterns) := by
  have behind (first second : Progress) :
      patterns.foldl (step settings) (first.join second) = first.join (patterns.foldl (step settings) second) := by
    induction patterns generalizing second with
    | nil => rfl
    | cons pattern rest ih => rw [List.foldl_cons, List.foldl_cons, step_join, ih]
  rw [run, ← behind, join_blank]

theorem run_append (patterns later : List Text) :
    run settings (patterns ++ later) = (run settings patterns).join (run settings later) := by
  rw [run, List.foldl_append, foldl_step]
  rfl

theorem run_cons (pattern : Text) (rest : List Text) :
    run settings (pattern :: rest) = (blank.step settings pattern).join (run settings rest) := by
  rw [run, List.foldl_cons, foldl_step]

/-! What is noticed: each step notices its own pattern, and a run all of them. -/

section

variable {pattern : Text} {patterns : List Text}

theorem failed_step : (blank.step settings pattern).failed = true ↔ Rejected settings.limit pattern := by
  unfold step Rejected Entry.ofPattern
  cases parse settings.limit pattern with
  | error rejection => simp
  | ok tree => cases settings.format <;> simp [blank]

theorem mismatched_step : (blank.step settings pattern).mismatched = true ↔ Rewritten settings.limit pattern := by
  unfold step Rewritten Entry.ofPattern
  cases parse settings.limit pattern with
  | error rejection => simp [blank]
  | ok tree => cases settings.format <;> simp [blank, Entry.differs]

theorem failed_run :
    (run settings patterns).failed = true ↔ ∃ pattern ∈ patterns, Rejected settings.limit pattern := by
  induction patterns with
  | nil => simp [run, blank]
  | cons pattern rest ih => simp [run_cons, join, failed_step, ih]

theorem mismatched_run :
    (run settings patterns).mismatched = true ↔ ∃ pattern ∈ patterns, Rewritten settings.limit pattern := by
  induction patterns with
  | nil => simp [run, blank]
  | cons pattern rest ih => simp [run_cons, join, mismatched_step, ih]

theorem stdout_step_of_canonical (canonical : settings.format = .canonical) :
    (blank.step settings pattern).stdout = unlines (canonicalText? settings.limit pattern).toList := by
  unfold step canonicalText? Entry.ofPattern
  cases parse settings.limit pattern with
  | error rejection => rfl
  | ok tree => simp [canonical, unlines, Except.toOption, blank]

theorem stdout_run_of_canonical (canonical : settings.format = .canonical) :
    (run settings patterns).stdout = unlines (patterns.filterMap (canonicalText? settings.limit)) := by
  induction patterns with
  | nil => rfl
  | cons pattern rest ih =>
    calc (run settings (pattern :: rest)).stdout
      _ = (blank.step settings pattern).stdout ++ (run settings rest).stdout := by
        rw [run_cons]
        rfl
      _ = unlines ((canonicalText? settings.limit pattern).toList ++
            rest.filterMap (canonicalText? settings.limit)) := by
        rw [stdout_step_of_canonical canonical, ih, unlines_append]
      _ = unlines ((pattern :: rest).filterMap (canonicalText? settings.limit)) := by
        rw [List.filterMap_cons]
        cases canonicalText? settings.limit pattern <;> rfl

end

/-! What is written for the accepted patterns. -/

def SameOutput (first second : Progress) : Prop :=
  first.digraph = second.digraph ∧ first.stdout = second.stdout

section

variable {first second : Progress} {patterns : List Text}

theorem SameOutput.step (same : first.SameOutput second) (pattern : Text) :
    (first.step settings pattern).SameOutput (second.step settings pattern) := by
  rw [first.step_eq_join, second.step_eq_join]
  simp only [SameOutput, join, same.1, same.2, and_self]

theorem sameOutput_step_of_rejected {pattern : Text} (rejected : Rejected settings.limit pattern)
    (progress : Progress) : progress.SameOutput (progress.step settings pattern) := by
  obtain ⟨rejection, read⟩ := rejected
  simp [SameOutput, Progress.step, Entry.ofPattern, read]

theorem SameOutput.foldl_filter (same : first.SameOutput second) :
    let accepted := patterns.filter fun pattern => ¬ Rejected settings.limit pattern
    (accepted.foldl (Progress.step settings) first).SameOutput (patterns.foldl (Progress.step settings) second) := by
  induction patterns generalizing first second with
  | nil => exact same
  | cons pattern rest ih =>
    by_cases rejected : Rejected settings.limit pattern
    · obtain ⟨graphs, output⟩ := sameOutput_step_of_rejected rejected second
      rw [List.filter_cons_of_neg (by simpa using rejected)]
      exact ih ⟨same.1.trans graphs, same.2.trans output⟩
    · rw [List.filter_cons_of_pos (by simpa using rejected)]
      exact ih (same.step pattern)

theorem SameOutput.stdout_outcome (same : first.SameOutput second) :
    (first.outcome settings).stdout = (second.outcome settings).stdout := by
  rw [outcome, outcome, same.1, same.2]

end

/-! The outcome of a run. -/

theorem code_join (first second : Progress) : ((first.join second).outcome settings).code =
    max (first.outcome settings).code (second.outcome settings).code := by
  unfold outcome join
  cases first.failed <;> cases second.failed <;> cases settings.check <;>
    cases first.mismatched <;> cases second.mismatched <;> rfl

end Progress

section

variable {settings : Settings} {patterns later : List Text}

open Progress

theorem report_eq : report settings patterns =
    { run settings patterns with
      stderr := (start settings patterns.length).stderr ++ (run settings patterns).stderr }.outcome settings := by
  have blank_run : blank.join (run settings patterns) = run settings patterns := (foldl_step blank patterns).symm
  have behind : (start settings patterns.length).join (run settings patterns) =
      { blank.join (run settings patterns) with
        stderr := (start settings patterns.length).stderr ++ (run settings patterns).stderr } := rfl
  rw [report, foldl_step, behind, blank_run]

theorem code_report : (report settings patterns).code = ((run settings patterns).outcome settings).code := by
  rw [report_eq]
  rfl

theorem code_report_eq : (report settings patterns).code =
    if ∃ pattern ∈ patterns, Rejected settings.limit pattern then 2
    else if settings.check ∧ ∃ pattern ∈ patterns, Rewritten settings.limit pattern then 1
    else 0 := by
  rw [code_report, outcome]
  simp only [failed_run, Bool.and_eq_true, mismatched_run]

theorem code_report_append : (report settings (patterns ++ later)).code =
    max (report settings patterns).code (report settings later).code := by
  rw [code_report, run_append, code_join, ← code_report, ← code_report]

theorem stdout_report (noDigraph : settings.format ≠ .dot) :
    (report settings patterns).stdout = (run settings patterns).stdout := by
  rw [report_eq]
  simp [outcome, noDigraph]

theorem stderr_report (quiet : settings.debug = false) :
    (report settings patterns).stderr = (run settings patterns).stderr := by
  have noCount : (start settings patterns.length).stderr = [] := if_neg (by simp [quiet])
  rw [report_eq, noCount]
  rfl

/-- A rejected pattern leaves the output as it is, also where the number of each cluster is written. -/
theorem stdout_report_filter :
    (report settings (patterns.filter fun pattern => ¬ Rejected settings.limit pattern)).stdout =
      (report settings patterns).stdout := by
  have starts (count count' : Nat) : (start settings count).SameOutput (start settings count') := ⟨rfl, rfl⟩
  exact (starts _ _).foldl_filter.stdout_outcome

end

/-- Reports compose: the code on two lists of patterns is the greater one of the codes on each list, and lines
are written for one list behind those for the other. A rejected pattern shows in the code and in the
diagnostics, but the output is the same without it, also where all accepted patterns share one digraph. -/
theorem report_append (settings : Settings) (patterns later : List Text) :
    let whole := report settings (patterns ++ later)
    let first := report settings patterns
    let second := report settings later
    let accepted := patterns.filter fun pattern => ¬ Rejected settings.limit pattern
    whole.code = max first.code second.code ∧
      (first.code =
        if ∃ pattern ∈ patterns, Rejected settings.limit pattern then 2
        else if settings.check ∧ ∃ pattern ∈ patterns, Rewritten settings.limit pattern then 1
        else 0) ∧
      (settings.format ≠ .dot → whole.stdout = first.stdout ++ second.stdout) ∧
      (settings.debug = false → whole.stderr = first.stderr ++ second.stderr) ∧
      (report settings accepted).stdout = first.stdout := by
  refine ⟨code_report_append, code_report_eq, ?_, ?_, stdout_report_filter⟩
  · intro noDigraph
    rw [stdout_report noDigraph, stdout_report noDigraph, stdout_report noDigraph, Progress.run_append]
    rfl
  · intro quiet
    rw [stderr_report quiet, stderr_report quiet, stderr_report quiet, Progress.run_append]
    rfl

theorem report_append_rejected :
    let settings : Settings := { format := .ast, check := true, limit := 1, coloured := true, debug := false }
    let patterns := ["a{1}".toList, "((b))".toList]
    let later := ["[b".toList, "c".toList]
    let whole := report settings (patterns ++ later)
    settings.format ≠ .dot ∧ settings.debug = false ∧
      whole.code = max 2 (report settings later).code ∧
      whole.stdout = (report settings patterns).stdout ++ (report settings later).stdout ∧
      whole.stderr = (report settings patterns).stderr ++ (report settings later).stderr ∧
      (report settings ["a{1}".toList]).stdout = (report settings patterns).stdout := by
  intro settings patterns later whole
  have noDigraph : settings.format ≠ .dot := by decide
  have quiet : settings.debug = false := rfl
  have rejected : ∃ pattern ∈ patterns, Rejected settings.limit pattern := by decide +kernel
  have kept : patterns.filter (fun pattern => ¬ Rejected settings.limit pattern) = ["a{1}".toList] := by
    decide +kernel
  obtain ⟨code, first, output, diagnostics, accepted⟩ := report_append settings patterns later
  rw [first, if_pos rejected] at code
  rw [kept] at accepted
  exact ⟨noDigraph, quiet, code, output noDigraph, diagnostics quiet, accepted⟩

namespace CommandLine

/-- Canonical texts can be read again as patterns: none is split, joined, changed or lost, and only the
empty ones are passed over. -/
theorem inputPatterns_stdout {settings : Settings} (patterns : List Text)
    (canonical : settings.format = .canonical) :
    inputPatterns (report settings patterns).stdout =
      (patterns.filterMap (canonicalText? settings.limit)).filter (· ≠ []) := by
  have noDigraph : settings.format ≠ .dot := by simp [canonical]
  have visible : ∀ text ∈ patterns.filterMap (canonicalText? settings.limit), Visible text := by
    intro text member
    obtain ⟨pattern, -, accepted⟩ := List.mem_filterMap.mp member
    exact visible_canonicalText accepted
  rw [stdout_report noDigraph, Progress.stdout_run_of_canonical canonical, inputPatterns, lines_unlines visible]

theorem inputPatterns_stdout_escaped :
    let settings : Settings := { format := .canonical, check := true, limit := 1, coloured := true, debug := true }
    let patterns := ["a{1}\n\r".toList, "".toList, "((b))".toList, "([\r\n-x])".toList]
    settings.format = .canonical ∧
      inputPatterns (report settings patterns).stdout = ["a\\n\\r".toList, "([\\r\\n-x])".toList] := by
  intro settings patterns
  have canonical : settings.format = .canonical := rfl
  have accepted : (patterns.filterMap (canonicalText? settings.limit)).filter (· ≠ []) =
      ["a\\n\\r".toList, "([\\r\\n-x])".toList] := by decide +kernel
  exact ⟨canonical, (inputPatterns_stdout patterns canonical).trans accepted⟩

end CommandLine

end RegexPattern
