/-!
Directed graphs with labelled nodes. They come from a library that is not part of this development,
so they are given by their operations and by what its documentation promises of each. In which order
the neighbours of a node are listed is not promised.
-/

namespace Raceways

/-- Operations on graphs `G` with nodes labelled by `V`. The graph gives out the numbers that its
nodes go by. -/
class LabelledGraph (V : outParam Type) (G : Type) where
  empty : G
  addNode : G → V → G × Nat
  /-- Adds an edge between two nodes, unless it is there. -/
  addEdge : G → Nat → Nat → G
  label? : G → Nat → Option V
  /-- The edges in the order they were added. -/
  edges : G → List (Nat × Nat)
  outgoing : G → Nat → List Nat
  incoming : G → Nat → List Nat
  edgeCount : G → Nat

open LabelledGraph

/-- What is promised of the operations. A graph has room for every node it is given, and nothing is
said of edges between nodes that it does not have. -/
class LawfulLabelledGraph (V : outParam Type) (G : Type) [LabelledGraph V G] : Prop where
  label?_empty (i : Nat) : label? (empty : G) i = none
  edges_empty : edges (empty : G) = []
  label?_number_addNode (g : G) (v : V) : label? g (addNode g v).2 = none
  label?_addNode (g : G) (v : V) (i : Nat) :
    label? (addNode g v).1 i = if i = (addNode g v).2 then some v else label? g i
  edges_addNode (g : G) (v : V) : edges (addNode g v).1 = edges g
  label?_addEdge {g : G} {i j : Nat} (hi : label? g i ≠ none) (hj : label? g j ≠ none) (n : Nat) :
    label? (addEdge g i j) n = label? g n
  edges_addEdge {g : G} {i j : Nat} (hi : label? g i ≠ none) (hj : label? g j ≠ none) :
    edges (addEdge g i j) = if (i, j) ∈ edges g then edges g else edges g ++ [(i, j)]
  outgoing_perm (g : G) (i : Nat) :
    (outgoing g i).Perm (((edges g).filter (fun e => e.1 = i)).map Prod.snd)
  incoming_perm (g : G) (j : Nat) :
    (incoming g j).Perm (((edges g).filter (fun e => e.2 = j)).map Prod.fst)
  edgeCount_eq (g : G) : edgeCount g = (edges g).length

/-- A node that is added leaves the labels of the others. -/
theorem LawfulLabelledGraph.label?_addNode_of_eq_some {V G : Type} [LabelledGraph V G]
    [LawfulLabelledGraph V G] {g : G} {i : Nat} {u : V} (h : label? g i = some u) (v : V) :
    label? (addNode g v).1 i = some u := by
  have hne : i ≠ (addNode g v).2 := by
    rintro rfl
    rw [label?_number_addNode] at h
    cases h
  rw [label?_addNode, if_neg hne, h]

/-- Nodes go by their positions in a list. -/
structure ListGraph (V : Type) where
  nodes : List V := []
  edges : List (Nat × Nat) := []

/-- Neighbours are listed from the latest edge back. -/
instance (V : Type) : LabelledGraph V (ListGraph V) where
  empty := {}
  addNode g v := ({ g with nodes := g.nodes ++ [v] }, g.nodes.length)
  addEdge g i j := if (i, j) ∈ g.edges then g else { g with edges := g.edges ++ [(i, j)] }
  label? g i := g.nodes[i]?
  edges := ListGraph.edges
  outgoing g i := ((g.edges.filter (fun e => e.1 = i)).map Prod.snd).reverse
  incoming g j := ((g.edges.filter (fun e => e.2 = j)).map Prod.fst).reverse
  edgeCount g := g.edges.length

instance (V : Type) : LawfulLabelledGraph V (ListGraph V) where
  label?_empty _ := rfl
  edges_empty := rfl
  label?_number_addNode g _ := List.getElem?_eq_none (Nat.le_refl g.nodes.length)
  label?_addNode g v i := by
    change (g.nodes ++ [v])[i]? = if i = g.nodes.length then some v else g.nodes[i]?
    rw [List.getElem?_append]
    by_cases hlt : i < g.nodes.length
    · rw [if_pos hlt, if_neg (Nat.ne_of_lt hlt)]
    · rw [if_neg hlt, List.getElem?_eq_none (Nat.le_of_not_lt hlt), List.getElem?_singleton]
      have : i - g.nodes.length = 0 ↔ i = g.nodes.length := by omega
      simp only [this]
  edges_addNode _ _ := rfl
  label?_addEdge {g i j} _ _ n := by
    change (if (i, j) ∈ g.edges then g else { g with edges := g.edges ++ [(i, j)] }).nodes[n]? = _
    split <;> rfl
  edges_addEdge {g i j} _ _ := by
    change (if (i, j) ∈ g.edges then g else { g with edges := g.edges ++ [(i, j)] }).edges = _
    split <;> rename_i h
    · exact (if_pos h).symm
    · exact (if_neg h).symm
  outgoing_perm _ _ := List.reverse_perm _
  incoming_perm _ _ := List.reverse_perm _
  edgeCount_eq _ := rfl

end Raceways
