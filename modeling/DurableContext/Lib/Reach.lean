import Mathlib.Data.List.Dedup
import Mathlib.Logic.Function.Iterate
import Mathlib.Tactic.Common

/-! The nodes that a finite set of edges leads to from given nodes, as a recursive query lists
them: each once, found by extending the list until the edges run out. -/

namespace DurableContext

namespace Reach

variable {α : Type} [DecidableEq α]

def targets (edges : List (α × α)) (found : List α) : List α :=
  (edges.filter fun edge => decide (edge.1 ∈ found)).map Prod.snd

def extend (edges : List (α × α)) (found : List α) : List α := (found ++ targets edges found).dedup

/-- Every extension but the last finds the target of another edge. -/
def reach (edges : List (α × α)) (start : List α) : List α :=
  (extend edges)^[edges.length] start.dedup

theorem mem_targets {edges : List (α × α)} {found : List α} {node : α} :
    node ∈ targets edges found ↔ ∃ source ∈ found, (source, node) ∈ edges := by
  simp only [targets, List.mem_map, List.mem_filter, decide_eq_true_iff, Prod.exists,
    exists_eq_right]
  exact exists_congr fun source => and_comm

theorem mem_extend {edges : List (α × α)} {found : List α} {node : α} :
    node ∈ extend edges found ↔ node ∈ found ∨ ∃ source ∈ found, (source, node) ∈ edges := by
  simp only [extend, List.mem_dedup, List.mem_append, mem_targets]

theorem subset_extend (edges : List (α × α)) (found : List α) : found ⊆ extend edges found :=
  fun _ member => mem_extend.mpr (Or.inl member)

theorem subset_iterate (edges : List (α × α)) (rounds : Nat) (start : List α) :
    start ⊆ (extend edges)^[rounds] start := by
  induction rounds with
  | zero => exact List.Subset.refl _
  | succ rounds ih =>
      rw [Function.iterate_succ_apply']
      exact List.Subset.trans ih (subset_extend edges _)

def Closed (edges : List (α × α)) (found : List α) : Prop :=
  ∀ source node, source ∈ found → (source, node) ∈ edges → node ∈ found

theorem Closed.extend {edges : List (α × α)} {found : List α} (closed : Closed edges found) :
    Closed edges (extend edges found) := by
  intro source node member edge
  rcases mem_extend.mp member with member | ⟨earlier, member, before⟩
  · exact mem_extend.mpr (Or.inr ⟨source, member, edge⟩)
  · exact mem_extend.mpr (Or.inr ⟨source, closed earlier source member before, edge⟩)

def pending (edges : List (α × α)) (found : List α) : List (α × α) :=
  edges.filter fun edge => decide (edge.2 ∉ found)

theorem pending_extend (edges : List (α × α)) (found : List α) :
    pending edges (extend edges found) =
      (pending edges found).filter fun edge => decide (edge.2 ∉ extend edges found) := by
  rw [pending, pending, List.filter_filter]
  apply List.filter_congr
  intro edge _
  by_cases listed : edge.2 ∈ found
  · simp [listed, subset_extend edges found listed]
  · simp [listed]

theorem pending_decreases {edges : List (α × α)} {found : List α} {source node : α}
    (member : source ∈ found) (edge : (source, node) ∈ edges) (missing : node ∉ found) :
    (pending edges (extend edges found)).length < (pending edges found).length := by
  rw [pending_extend, List.length_filter_lt_length_iff_exists]
  refine ⟨(source, node), List.mem_filter.mpr ⟨edge, decide_eq_true missing⟩, ?_⟩
  simpa using mem_extend.mpr (Or.inr ⟨source, member, edge⟩)

/-- As long as the list is not closed an extension uses up an edge. -/
theorem iterate_closed (edges : List (α × α)) (start : List α) (rounds : Nat) :
    Closed edges ((extend edges)^[rounds] start) ∨
      rounds + (pending edges ((extend edges)^[rounds] start)).length ≤ edges.length := by
  induction rounds with
  | zero =>
      rw [Function.iterate_zero_apply, Nat.zero_add]
      exact Or.inr (List.length_filter_le _ edges)
  | succ rounds ih =>
      rw [Function.iterate_succ_apply']
      by_cases closed : Closed edges ((extend edges)^[rounds] start)
      · exact Or.inl closed.extend
      · have bound := ih.resolve_left closed
        simp only [Closed, not_forall] at closed
        obtain ⟨source, node, member, edge, missing⟩ := closed
        have fewer := pending_decreases member edge missing
        exact Or.inr (by omega)

theorem reach_closed (edges : List (α × α)) (start : List α) : Closed edges (reach edges start) := by
  rcases iterate_closed edges start.dedup edges.length with closed | bound
  · exact closed
  · intro source node member edge
    by_contra missing
    have left : (source, node) ∈ pending edges (reach edges start) :=
      List.mem_filter.mpr ⟨edge, decide_eq_true missing⟩
    have positive := List.length_pos_of_mem left
    unfold reach at positive
    omega

theorem reach_induction {edges : List (α × α)} {start : List α} {holds : α → Prop}
    (first : ∀ node ∈ start, holds node)
    (next : ∀ source node, holds source → (source, node) ∈ edges → holds node) :
    ∀ node ∈ reach edges start, holds node := by
  have every : ∀ rounds, ∀ node ∈ (extend edges)^[rounds] start.dedup, holds node := by
    intro rounds
    induction rounds with
    | zero => exact fun node member => first node (List.mem_dedup.mp member)
    | succ rounds ih =>
        intro node member
        rw [Function.iterate_succ_apply'] at member
        rcases mem_extend.mp member with member | ⟨source, member, edge⟩
        · exact ih node member
        · exact next source node (ih source member) edge
  exact every edges.length

theorem mem_reach_of_start {edges : List (α × α)} {start : List α} {node : α}
    (member : node ∈ start) : node ∈ reach edges start :=
  subset_iterate edges _ _ (List.mem_dedup.mpr member)

theorem mem_reach_of_edge {edges : List (α × α)} {start : List α} {source node : α}
    (member : source ∈ reach edges start) (edge : (source, node) ∈ edges) :
    node ∈ reach edges start :=
  reach_closed edges start source node member edge

end Reach
end DurableContext
