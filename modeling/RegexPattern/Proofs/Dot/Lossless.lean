import RegexPattern.Proofs.Dot.Cluster
import RegexPattern.Proofs.Unescape

/-!
Digraphs read back from their text. What is written for a value mostly shows where it ends, and a list of
such values ends where no other one can begin. The lines of a cluster therefore determine its graph, up to
the root, and a graph in postorder has its last node as its root.
-/

namespace RegexPattern

open Text

section

variable {α β : Type}

/-- What is written for a value shows which value it is and where it ends. -/
def Delimited (Sound : α → Prop) (write : α → List β) : Prop :=
  ∀ ⦃value other : α⦄ ⦃rest rest' : List β⦄, Sound value → Sound other →
    write value ++ rest = write other ++ rest' → value = other ∧ rest = rest'

def Stops (Sound : α → Prop) (write : α → List β) (rest : List β) : Prop :=
  ∀ ⦃value : α⦄ ⦃more : List β⦄, Sound value → write value ++ more ≠ rest

theorem Delimited.flatMap_append_inj {Sound : α → Prop} {write : α → List β} (delimited : Delimited Sound write)
    {values others : List α} (sound : ∀ value ∈ values, Sound value) (sound' : ∀ value ∈ others, Sound value)
    {rest rest' : List β} (stops : Stops Sound write rest) (stops' : Stops Sound write rest')
    (same : values.flatMap write ++ rest = others.flatMap write ++ rest') : values = others ∧ rest = rest' := by
  induction values generalizing others with
  | nil =>
    cases others with
    | nil => exact ⟨rfl, same⟩
    | cons other others =>
      rw [List.flatMap_cons, List.append_assoc] at same
      exact absurd same.symm (stops (sound' other List.mem_cons_self))
  | cons value values ih =>
    cases others with
    | nil =>
      rw [List.flatMap_cons, List.append_assoc] at same
      exact absurd same (stops' (sound value List.mem_cons_self))
    | cons other others =>
      rw [List.flatMap_cons, List.flatMap_cons, List.append_assoc, List.append_assoc] at same
      obtain ⟨rfl, later⟩ := delimited (sound value List.mem_cons_self) (sound' other List.mem_cons_self) same
      obtain ⟨rfl, ends⟩ := ih (fun value member => sound value (List.mem_cons_of_mem _ member))
        (fun value member => sound' value (List.mem_cons_of_mem _ member)) later
      exact ⟨rfl, ends⟩

theorem map_append_inj {item : α → β} (injective : Function.Injective item) {values others : List α}
    {rest rest' : List β} (stops : Stops (fun _ => True) (fun value => [item value]) rest)
    (stops' : Stops (fun _ => True) (fun value => [item value]) rest')
    (same : values.map item ++ rest = others.map item ++ rest') : values = others ∧ rest = rest' := by
  have delimited : Delimited (fun _ => True) fun value => [item value] := by
    intro value other more more' _ _ same
    exact ⟨injective (List.head_eq_of_cons_eq same), List.tail_eq_of_cons_eq same⟩
  rw [List.map_eq_flatMap, List.map_eq_flatMap] at same
  exact delimited.flatMap_append_inj (fun _ _ => trivial) (fun _ _ => trivial) stops stops' same

end

theorem present_cons (name : String) (value : Option Text) (entries : List (String × Option Text)) :
    present ((name, value) :: entries) = (value.map (name, ·)).toList ++ present entries := by
  cases value <;> rfl

/-- Entries with the same names in the same order are determined by those that are present. -/
theorem present_inj {entries entries' : List (String × Option Text)} (distinct : (entries.map Prod.fst).Nodup)
    (names : entries.map Prod.fst = entries'.map Prod.fst) (same : present entries = present entries') :
    entries = entries' := by
  induction entries generalizing entries' with
  | nil => exact (List.map_eq_nil_iff.mp names.symm).symm
  | cons entry entries ih =>
    cases entries' with
    | nil => cases names
    | cons entry' entries' =>
      obtain ⟨name, value⟩ := entry
      obtain ⟨name', value'⟩ := entry'
      simp only [List.map_cons, List.cons.injEq, List.nodup_cons] at names distinct
      obtain ⟨rfl, names⟩ := names
      have absent (text : Text) : (name, some text) ∉ entries := fun member =>
        distinct.1 (List.mem_map_of_mem member)
      have absent' (text : Text) : (name, some text) ∉ entries' := fun member =>
        distinct.1 (names ▸ List.mem_map_of_mem member)
      have heads (text : Text) : value = some text ↔ value' = some text := by
        have members := congrArg ((name, text) ∈ ·) same
        simpa [mem_present, absent, absent', eq_comm] using members
      obtain rfl : value = value' := Option.ext heads
      rw [present_cons, present_cons, List.append_cancel_left_eq] at same
      rw [ih distinct.2 names same]

theorem attributeText_append (entry : String × Text) (rest : Text) :
    attributeText entry ++ rest =
      entry.1.toList ++ '=' :: '"' :: (escape true entry.2 ++ '"' :: ',' :: rest) := by
  simp [attributeText]

theorem delimited_attributeText : Delimited (fun entry => entry.1 ∈ attributeNames) attributeText := by
  intro entry entry' rest rest' known known' same
  have plain : ∀ name ∈ attributeNames, name.toList.all (· != '=') = true := by decide
  rw [attributeText_append, attributeText_append] at same
  obtain ⟨names, quoted⟩ := append_cons_inj (List.all_eq_true.mp (plain _ known))
    (List.all_eq_true.mp (plain _ known')) (by decide) (by decide) same
  rw [List.cons.injEq, List.cons.injEq] at quoted
  obtain ⟨values, ends⟩ := escape_quote_append_inj quoted.2.2
  exact ⟨Prod.ext (String.toList_inj.mp names) values, List.tail_eq_of_cons_eq ends⟩

theorem stops_attributeText (rest : Text) :
    Stops (fun entry => entry.1 ∈ attributeNames) attributeText (']' :: rest) := by
  intro entry more known same
  have letters : ∀ name ∈ attributeNames, name.toList.head?.all (· ≠ ']') ∧ name.toList ≠ [] := by decide
  obtain ⟨c, tail, written⟩ := List.exists_cons_of_ne_nil (letters _ known).2
  have other := (letters _ known).1
  rw [attributeText_append, written] at same
  rw [written, List.head_eq_of_cons_eq same] at other
  simp at other

theorem Node.line_injective (cluster : Nat) : Function.Injective (Node.line cluster) := by
  intro node node' same
  obtain ⟨-, ids, brackets⟩ := nodeName_append_inj (by decide) (by decide) same
  obtain ⟨lists, -⟩ := delimited_attributeText.flatMap_append_inj (fun _ => node.mem_attributeNames)
    (fun _ => node'.mem_attributeNames) (stops_attributeText _) (stops_attributeText _)
    (List.tail_eq_of_cons_eq brackets)
  have entries : node.entries = node'.entries :=
    present_inj (by rw [map_fst_entries]; decide) rfl lists
  obtain ⟨id, label, attributes⟩ := node
  obtain ⟨id', label', attributes'⟩ := node'
  obtain ⟨⟩ := attributes
  obtain ⟨⟩ := attributes'
  simp only [Node.entries, List.cons.injEq, Prod.mk.injEq, Option.some.injEq] at entries ids
  simp_all

theorem delimited_child (cluster : Nat) :
    Delimited (fun _ => True) fun child => nodeName cluster child ++ [';', ' '] := by
  intro child child' rest rest' _ _ same
  rw [List.append_assoc, List.append_assoc] at same
  obtain ⟨-, children, ends⟩ := nodeName_append_inj (by decide) (by decide) same
  exact ⟨children, List.tail_eq_of_cons_eq (List.tail_eq_of_cons_eq ends)⟩

theorem stops_child (cluster : Nat) (rest : Text) :
    Stops (fun _ => True) (fun child => nodeName cluster child ++ [';', ' ']) ('}' :: rest) := by
  intro child more _ same
  simp only [nodeName_eq, List.append_assoc] at same
  exact absurd (List.head_eq_of_cons_eq same) (by decide)

theorem Edge.eq_of_target_eq (cluster : Nat) {edge edge' : Edge} (uppers : edge.upper = edge'.upper)
    (same : edge.target cluster = edge'.target cluster) : edge = edge' := by
  cases edge with
  | children parent below =>
    cases edge' with
    | children parent' below' =>
      obtain ⟨lists, -⟩ := (delimited_child cluster).flatMap_append_inj (fun _ _ => trivial)
        (fun _ _ => trivial) (stops_child cluster []) (stops_child cluster []) (List.tail_eq_of_cons_eq same)
      rw [lists]
      exact congrArg (children · below') uppers
    | loop node label greedy =>
      rw [target, target, nodeName_eq] at same
      exact absurd (List.head_eq_of_cons_eq same) (by decide)
  | loop node label greedy =>
    cases edge' with
    | children parent below =>
      rw [target, target, nodeName_eq] at same
      exact absurd (List.head_eq_of_cons_eq same) (by decide)
    | loop node' label' greedy' =>
      obtain ⟨-, rfl, rests⟩ := nodeName_append_inj (by decide) (by decide) same
      obtain ⟨rfl, colours⟩ := escape_quote_append_inj (List.append_cancel_left (List.tail_eq_of_cons_eq rests))
      cases greedy <;> cases greedy' <;> first | rfl | exact absurd colours (by decide)

theorem Edge.line_injective (cluster : Nat) : Function.Injective (Edge.line cluster) := by
  intro edge edge' same
  obtain ⟨-, uppers, arrows⟩ := nodeName_append_inj (by decide) (by decide) same
  exact eq_of_target_eq cluster uppers (List.append_cancel_left (List.tail_eq_of_cons_eq arrows))

section

variable (cluster : Nat)

theorem Node.line_ne_line (node : Node) (edge : Edge) : node.line cluster ≠ edge.line cluster := by
  intro same
  have behind := (nodeName_append_inj (by decide) (by decide) same).2.2
  exact absurd (List.head_eq_of_cons_eq behind) (by decide)

theorem nodeName_append_ne_close (id : Nat) (rest : Text) : nodeName cluster id ++ rest ≠ ['}'] := by
  rw [nodeName_eq]
  exact fun same => absurd (List.head_eq_of_cons_eq same) (by decide)

theorem stops_nodeLines (edges : List Edge) (rest : List Text) :
    Stops (fun _ => True) (fun node : Node => [node.line cluster])
      (edges.map (Edge.line cluster) ++ ['}'] :: rest) := by
  intro node more _ same
  cases edges with
  | nil => exact nodeName_append_ne_close cluster node.id _ (List.head_eq_of_cons_eq same)
  | cons edge edges => exact node.line_ne_line cluster edge (List.head_eq_of_cons_eq same)

theorem stops_edgeLines (rest : List Text) :
    Stops (fun _ => True) (fun edge : Edge => [edge.line cluster]) (['}'] :: rest) := by
  intro edge more _ same
  exact nodeName_append_ne_close cluster edge.upper _ (List.head_eq_of_cons_eq same)

end

theorem Graph.headLines_append_inj {cluster cluster' : Nat} {label label' : Text} {rest rest' : List Text}
    (same : headLines cluster label ++ rest = headLines cluster' label' ++ rest') :
    cluster = cluster' ∧ label = label' ∧ rest = rest' := by
  simp only [headLines, List.cons_append, List.nil_append, List.cons.injEq, true_and,
    List.append_cancel_left_eq] at same
  obtain ⟨first, quoted, rests⟩ := same
  exact ⟨(decimal_append_inj (by decide) (by decide) first).1, (escape_quote_append_inj quoted).1, rests⟩

/-- The lines of a cluster show its number and its graph, of which the root is the last node. -/
theorem Graph.delimited_clusterLines :
    Delimited (fun entry => entry.1.Postorder) fun entry : Graph × Nat => entry.1.clusterLines entry.2 := by
  rintro ⟨graph, cluster⟩ ⟨graph', cluster'⟩ rest rest' ordered ordered' same
  simp only [clusterLines, List.append_assoc] at same
  obtain ⟨rfl, labels, body⟩ := headLines_append_inj same
  obtain ⟨nodes, links⟩ := map_append_inj (Node.line_injective cluster) (stops_nodeLines cluster _ _)
    (stops_nodeLines cluster _ _) body
  obtain ⟨edges, ends⟩ := map_append_inj (Edge.line_injective cluster) (stops_edgeLines cluster _)
    (stops_edgeLines cluster _) links
  have roots : graph.root = graph'.root := by
    have last := ordered.last
    rw [nodes, ordered'.last] at last
    exact (Option.some.inj last).symm
  have graphs : graph = graph' := by
    cases graph
    cases graph'
    simp_all
  exact ⟨by rw [graphs], List.tail_eq_of_cons_eq ends⟩

namespace Digraph

def clusterLines (digraph : Digraph) : List Text :=
  (digraph.graphs.zipIdx 1).flatMap fun entry => entry.1.clusterLines entry.2

theorem unlines_clusterLines (digraph : Digraph) : digraph.clusterTexts.flatten = unlines digraph.clusterLines := by
  rw [clusterLines, unlines, List.flatMap_assoc, clusterTexts, ← List.flatMap_def]
  simp only [Graph.dot_eq, unlines]

theorem visible_clusterLines (digraph : Digraph) : ∀ line ∈ digraph.clusterLines, Visible line := by
  intro line member
  obtain ⟨entry, -, inside⟩ := List.mem_flatMap.mp member
  exact entry.1.visible_clusterLines entry.2 line inside

variable {digraph digraph' : Digraph}

theorem clusterLines_eq_of_dot_eq (names : digraph.name = digraph'.name) (same : digraph.dot = digraph'.dot) :
    digraph.clusterLines = digraph'.clusterLines := by
  rw [dot_eq, dot_eq, names] at same
  have texts := List.append_cancel_left (List.append_cancel_right same)
  rw [unlines_clusterLines, unlines_clusterLines] at texts
  rw [← lines_unlines digraph.visible_clusterLines, texts, lines_unlines digraph'.visible_clusterLines]

theorem graphs_eq_of_clusterLines_eq (ordered : ∀ graph ∈ digraph.graphs, graph.Postorder)
    (ordered' : ∀ graph ∈ digraph'.graphs, graph.Postorder)
    (same : digraph.clusterLines = digraph'.clusterLines) : digraph.graphs = digraph'.graphs := by
  have stops : Stops (fun entry => entry.1.Postorder)
      (fun entry : Graph × Nat => entry.1.clusterLines entry.2) [] := by
    rintro entry more - ⟨⟩
  have numbered := Graph.delimited_clusterLines.flatMap_append_inj
    (fun entry member => ordered entry.1 (List.fst_mem_of_mem_zipIdx member))
    (fun entry member => ordered' entry.1 (List.fst_mem_of_mem_zipIdx member)) stops stops
    (congrArg (· ++ []) same)
  have graphs := congrArg (List.map Prod.fst) numbered.1
  rwa [List.zipIdx_map_fst, List.zipIdx_map_fst] at graphs

end Digraph

/-- Digraphs of one name are drawn as the same text only if they have the same graphs. -/
theorem Digraph.dot_eq_dot_iff (name : Text) (sources sources' : List (Text × Tree)) :
    (ofGraphs name (sources.map fun source => Tree.graph source.1 source.2)).dot =
        (ofGraphs name (sources'.map fun source => Tree.graph source.1 source.2)).dot ↔
      (sources.map fun source => Tree.graph source.1 source.2) =
        sources'.map fun source => Tree.graph source.1 source.2 := by
  constructor
  · intro same
    have graphs := graphs_eq_of_clusterLines_eq (fun _ => postorder_of_mem) (fun _ => postorder_of_mem)
      (clusterLines_eq_of_dot_eq (by rw [ofGraphs_eq, ofGraphs_eq]) same)
    rwa [ofGraphs_eq, ofGraphs_eq] at graphs
  · intro same
    rw [same]

end RegexPattern
