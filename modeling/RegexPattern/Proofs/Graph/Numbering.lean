import RegexPattern.Proofs.Graph.Label
import RegexPattern.Proofs.Graph.Postorder

/-!
Figures read back from their nodes and edges. The numbers of the top parts tell how many nodes each figure
has, and thereby where the nodes and edges of one figure end and those of the next begin.
-/

namespace RegexPattern

theorem Edge.append_inj_of_upper {bound : Nat} {front front' rest rest' : List Edge}
    (below : ∀ edge ∈ front, edge.upper < bound) (below' : ∀ edge ∈ front', edge.upper < bound)
    (above : ∀ edge ∈ rest, bound ≤ edge.upper) (above' : ∀ edge ∈ rest', bound ≤ edge.upper)
    (same : front ++ rest = front' ++ rest') : front = front' ∧ rest = rest' := by
  have cut {front rest : List Edge} (below : ∀ edge ∈ front, edge.upper < bound)
      (above : ∀ edge ∈ rest, bound ≤ edge.upper) :
      (front ++ rest).filter (·.upper < bound) = front := by
    have kept : front.filter (·.upper < bound) = front := List.filter_eq_self.mpr (by simpa using below)
    have dropped : rest.filter (·.upper < bound) = [] := List.filter_eq_nil_iff.mpr (by simpa using above)
    rw [List.filter_append, kept, dropped, List.append_nil]
  have fronts : front = front' := by rw [← cut below above, same, cut below' above']
  exact ⟨fronts, List.append_cancel_left (fronts ▸ same)⟩

theorem childEdges_injective (parent : Nat) : Function.Injective (childEdges parent) := by
  intro below below' same
  cases below <;> cases below' <;> simp_all [childEdges]

theorem le_upper_of_mem {top : Nat} {mult : Multiplicity} {below : List Nat} {edge : Edge}
    (member : edge ∈ mult.loops top ++ childEdges top below) : top ≤ edge.upper := by
  have equal : edge.upper = top := by
    unfold Multiplicity.loops childEdges at member
    rcases List.mem_append.mp member with member | member <;> split at member <;> simp at member
    · rw [member, Edge.upper]
    · rw [member, Edge.upper]
  exact Nat.le_of_eq equal.symm

namespace Figure

mutual

def drawn : Figure → Figure
  | of part mult below => of part mult.drawn (drawnAll below)

def drawnAll : List Figure → List Figure
  | [] => []
  | figure :: rest => figure.drawn :: drawnAll rest

end

mutual

@[simp] theorem size_drawn : (figure : Figure) → figure.drawn.size = figure.size
  | of _ _ below => by rw [drawn, size, size, sizeAll_drawnAll below]

@[simp] theorem sizeAll_drawnAll : (figures : List Figure) → sizeAll (drawnAll figures) = sizeAll figures
  | [] => rfl
  | figure :: rest => by rw [drawnAll, sizeAll, sizeAll, size_drawn figure, sizeAll_drawnAll rest]

end

@[simp] theorem root_drawn (start : Nat) (figure : Figure) : figure.drawn.root start = figure.root start := by
  cases figure
  rw [drawn, root, root, sizeAll_drawnAll]

@[simp] theorem roots_drawnAll (start : Nat) (figures : List Figure) :
    roots start (drawnAll figures) = roots start figures := by
  induction figures generalizing start with
  | nil => rfl
  | cons figure rest ih => rw [drawnAll, roots, roots, root_drawn, size_drawn, ih]

mutual

@[simp] theorem nodes_drawn (start : Nat) : (figure : Figure) → figure.drawn.nodes start = figure.nodes start
  | of part mult below => by
    rw [drawn, nodes, nodes, nodesAll_drawnAll start below, sizeAll_drawnAll, Part.node_drawn]

@[simp] theorem nodesAll_drawnAll (start : Nat) :
    (figures : List Figure) → nodesAll start (drawnAll figures) = nodesAll start figures
  | [] => rfl
  | figure :: rest => by
    rw [drawnAll, nodesAll, nodesAll, nodes_drawn start figure, size_drawn, nodesAll_drawnAll _ rest]

end

mutual

@[simp] theorem edges_drawn (start : Nat) : (figure : Figure) → figure.drawn.edges start = figure.edges start
  | of part mult below => by
    simp only [drawn, edges, edgesAll_drawnAll start below, sizeAll_drawnAll, Multiplicity.loops_drawn,
      roots_drawnAll]

@[simp] theorem edgesAll_drawnAll (start : Nat) :
    (figures : List Figure) → edgesAll start (drawnAll figures) = edgesAll start figures
  | [] => rfl
  | figure :: rest => by
    rw [drawnAll, edgesAll, edgesAll, edges_drawn start figure, size_drawn, edgesAll_drawnAll _ rest]

end

theorem graph_drawn (label : Text) (figure : Figure) : figure.drawn.graph label = figure.graph label := by
  simp only [graph, root_drawn, nodes_drawn, edges_drawn]

mutual

/-- Elements stand right below charsets, and no other parts do. -/
def Placed (inCharset : Bool) : Figure → Prop
  | of part _ below => part.isElement = inCharset ∧ PlacedAll part.isCharset below

def PlacedAll (inCharset : Bool) : List Figure → Prop
  | [] => True
  | figure :: rest => figure.Placed inCharset ∧ PlacedAll inCharset rest

end

section

variable {start : Nat} {edge : Edge}

theorem upper_lt {figure : Figure} (member : edge ∈ figure.edges start) : edge.upper < start + figure.size :=
  (List.mem_range'_1.mp ((figure.forest start).upper_mem member)).2

theorem upper_lt_of_mem_edgesAll {figures : List Figure} (member : edge ∈ edgesAll start figures) :
    edge.upper < start + sizeAll figures :=
  (List.mem_range'_1.mp ((forestAll start figures).upper_mem member)).2

theorem le_upper_of_mem_edgesAll {figures : List Figure} (member : edge ∈ edgesAll start figures) :
    start ≤ edge.upper :=
  (List.mem_range'_1.mp ((forestAll start figures).upper_mem member)).1

end

mutual

/-- The nodes and edges of a figure determine what is drawn of it. -/
theorem drawn_eq_of_nodes_eq {inCharset : Bool} (start : Nat) : (figure other : Figure) →
    figure.Placed inCharset → other.Placed inCharset → figure.nodes start = other.nodes start →
    figure.edges start = other.edges start → figure.drawn = other.drawn
  | of part mult below, of part' mult' below', placed, placed', sameNodes, sameEdges => by
    rw [Placed] at placed placed'
    simp only [nodes, edges, List.append_assoc] at sameNodes sameEdges
    -- The last node is that of the top part; its number tells how many nodes stand below.
    obtain ⟨inner, last⟩ := List.append_inj' sameNodes rfl
    obtain ⟨rfl, mults, tops⟩ :=
      Part.node_inj (placed.1.trans placed'.1.symm) (List.head_eq_of_cons_eq last)
    rw [← tops] at sameEdges
    obtain ⟨innerEdges, topEdges⟩ := Edge.append_inj_of_upper (fun _ => upper_lt_of_mem_edgesAll)
      (fun _ member => tops ▸ upper_lt_of_mem_edgesAll member) (fun _ => le_upper_of_mem)
      (fun _ => le_upper_of_mem) sameEdges
    rw [← Multiplicity.loops_drawn, mults, Multiplicity.loops_drawn] at topEdges
    have sameRoots := childEdges_injective _ (List.append_cancel_left topEdges)
    rw [drawn, drawn, mults,
      drawnAll_eq_of_nodesAll_eq start below below' placed.2 placed'.2 inner innerEdges sameRoots]

theorem drawnAll_eq_of_nodesAll_eq {inCharset : Bool} (start : Nat) : (figures others : List Figure) →
    PlacedAll inCharset figures → PlacedAll inCharset others → nodesAll start figures = nodesAll start others →
    edgesAll start figures = edgesAll start others → roots start figures = roots start others →
    drawnAll figures = drawnAll others
  | [], [], _, _, _, _, _ => rfl
  | [], _ :: _, _, _, _, _, sameRoots => nomatch sameRoots
  | _ :: _, [], _, _, _, _, sameRoots => nomatch sameRoots
  | figure :: rest, other :: others, placed, placed', sameNodes, sameEdges, sameRoots => by
    rw [PlacedAll] at placed placed'
    rw [roots, roots, List.cons.injEq] at sameRoots
    have sizes : figure.size = other.size := by
      have first := root_add_one start figure
      have second := root_add_one start other
      omega
    rw [nodesAll, nodesAll, ← sizes] at sameNodes
    rw [edgesAll, edgesAll, ← sizes] at sameEdges
    obtain ⟨firstNodes, laterNodes⟩ := List.append_inj sameNodes (by rw [length_nodes, length_nodes, sizes])
    obtain ⟨firstEdges, laterEdges⟩ := Edge.append_inj_of_upper (fun _ => upper_lt)
      (fun _ member => sizes ▸ upper_lt member) (fun _ => le_upper_of_mem_edgesAll)
      (fun _ => le_upper_of_mem_edgesAll) sameEdges
    rw [drawnAll, drawnAll, drawn_eq_of_nodes_eq start figure other placed.1 placed'.1 firstNodes firstEdges,
      drawnAll_eq_of_nodesAll_eq _ rest others placed.2 placed'.2 laterNodes laterEdges
        (sizes ▸ sameRoots.2)]

end

end Figure

end RegexPattern
