import Mathlib.Data.List.Perm.Basic
import SourceLinks.Graph.Multigraph
import SourceLinks.Proofs.FirstMention

namespace SourceLinks
variable {ν ε : Type}

namespace Joined
variable {e : Joined ε} {source target key : String}

theorem joins_iff : e.joins source target key = true ↔
    e.source = source ∧ e.target = target ∧ e.key = key := by
  simp only [joins, Bool.and_eq_true, beq_iff_eq, and_assoc]

end Joined

namespace PlainGraph
variable {g : PlainGraph ν ε} {e : Joined ε} {id : String}

/-- The edges of one node in the order in which they are listed. -/
def listed (out : List (Joined ε)) : List (Joined ε) :=
  (out.map Joined.target).eraseDups.flatMap fun t => out.filter fun e => e.target == t

theorem edges_eq (g : PlainGraph ν ε) : g.edges = g.rows.flatMap fun n => listed n.out := rfl

theorem listed_perm (out : List (Joined ε)) : (listed out).Perm out :=
  perm_groups Joined.target (nodup_eraseDups _) _ fun _ he =>
    List.mem_eraseDups.mpr (List.mem_map_of_mem he)

/-- The order in which edges are listed loses none of them. -/
theorem edges_perm (g : PlainGraph ν ε) : g.edges.Perm (g.rows.flatMap PlainNode.out) :=
  List.Perm.flatMap_left _ fun n _ => listed_perm n.out

theorem place_nodes (e : Joined ε) (rows : List (PlainNode ν ε)) :
    (place e rows).map (fun n => (n.id, n.data)) = rows.map fun n => (n.id, n.data) := by
  induction rows with
  | nil => rfl
  | cons n rest ih =>
    rw [place]
    split
    · rfl
    · rw [List.map_cons, ih, List.map_cons]

theorem place_out {rows : List (PlainNode ν ε)} (h : ∃ n ∈ rows, n.id = e.source) :
    ((place e rows).flatMap PlainNode.out).Perm (rows.flatMap PlainNode.out ++ [e]) := by
  induction rows with
  | nil => simp at h
  | cons n rest ih =>
    rw [place]
    split
    · rw [List.flatMap_cons, List.flatMap_cons, List.append_assoc, List.append_assoc]
      exact List.perm_append_comm.append_left _
    · rename_i hother
      have hrest : ∃ m ∈ rest, m.id = e.source := by
        obtain ⟨m, hm, hid⟩ := h
        rcases List.mem_cons.mp hm with rfl | hm
        · exact absurd hid hother
        · exact ⟨m, hm, hid⟩
      rw [List.flatMap_cons, List.flatMap_cons, List.append_assoc]
      exact (ih hrest).append_left _

theorem hasNode_iff : Multigraph.hasNode g id = true ↔ ∃ n ∈ g.rows, n.id = id := by
  have hany : Multigraph.hasNode g id = g.rows.any fun n => n.id == id := rfl
  simp only [hany, List.any_eq_true, beq_iff_eq]

/-- Lists keep what a library of graphs promises. -/
instance : LawfulMultigraph (PlainGraph ν ε) where
  nodes_empty := rfl
  edges_empty := rfl
  nodeCount_eq g := by
    have hnodes : Multigraph.nodes g = g.rows.map fun n => (n.id, n.data) := rfl
    rw [hnodes, List.length_map]
    rfl
  hasNode_iff g id := by
    have hnodes : (Multigraph.nodes g).map Prod.fst = g.rows.map PlainNode.id := List.map_map
    rw [hasNode_iff, hnodes, List.mem_map]
  hasEdge_iff g source target key := List.any_eq_true
  nodes_addNode _ _ := List.map_append
  edges_addNode {g id} _ data := by
    let added : PlainGraph ν ε := ⟨g.rows ++ [⟨id, data, []⟩]⟩
    have hedges : added.edges = g.edges := by
      rw [edges_eq, edges_eq, List.flatMap_append]
      exact List.append_nil _
    exact .of_eq hedges
  nodes_addEdge {g e} _ _ := place_nodes e g.rows
  edges_addEdge {g e} hsource _ _ := by
    have hplaced := place_out (hasNode_iff.mp hsource)
    exact (edges_perm _).trans (hplaced.trans ((edges_perm g).symm.append_right _))
  nodes_changeEdge _ _ := List.map_map
  edges_changeEdge {g source target key} _ change := by
    have hout : (Multigraph.changeEdge g source target key change).rows.flatMap PlainNode.out =
        (g.rows.flatMap PlainNode.out).map (Joined.changeAt source target key change) := by
      rw [List.map_flatMap]
      exact List.flatMap_map ..
    exact (edges_perm _).trans (hout ▸ (edges_perm g).symm.map _)

end PlainGraph
end SourceLinks
