import Mathlib.Data.Finset.Card
import Mathlib.Data.List.Dedup
import Mathlib.Logic.Relation
import Mathlib.Tactic.Common

/-! A queue of nodes that is worked off first in, first out: each node that is taken is visited and
puts those of its successors at the end that were never in the queue. What is visited are the nodes
that the successors lead to from the start. -/

namespace DurableContext

namespace Worklist

variable {α : Type} [DecidableEq α]

def sweep {σ : Type} (next : α → List α) (visit : σ → α → σ) :
    Nat → List α → Finset α → σ → σ
  | 0, _, _, state => state
  | _ + 1, [], _, state => state
  | fuel + 1, current :: queue, seen, state =>
      let found := ((next current).filter fun node => decide (node ∉ seen)).dedup
      sweep next visit fuel (queue ++ found) (seen ∪ found.toFinset) (visit state current)

def taken (next : α → List α) : Nat → List α → Finset α → List α
  | 0, _, _ => []
  | _ + 1, [], _ => []
  | fuel + 1, current :: queue, seen =>
      let found := ((next current).filter fun node => decide (node ∉ seen)).dedup
      current :: taken next fuel (queue ++ found) (seen ∪ found.toFinset)

def waiting (next : α → List α) : Nat → List α → Finset α → List α
  | 0, queue, _ => queue
  | _ + 1, [], _ => []
  | fuel + 1, current :: queue, seen =>
      let found := ((next current).filter fun node => decide (node ∉ seen)).dedup
      waiting next fuel (queue ++ found) (seen ∪ found.toFinset)

def Step (next : α → List α) (source node : α) : Prop := node ∈ next source

variable {next : α → List α} {fuel : Nat} {queue : List α} {seen nodes : Finset α}

theorem sweep_eq_foldl {σ : Type} (visit : σ → α → σ) (fuel : Nat) (queue : List α)
    (seen : Finset α) (state : σ) :
    sweep next visit fuel queue seen state = (taken next fuel queue seen).foldl visit state := by
  induction fuel generalizing queue seen state with
  | zero => rfl
  | succ fuel ih =>
      cases queue with
      | nil => rfl
      | cons current queue => exact ih _ _ _

theorem taken_reachable (fuel : Nat) (queue : List α) (seen : Finset α) :
    ∀ node ∈ taken next fuel queue seen,
      ∃ start ∈ queue, Relation.ReflTransGen (Step next) start node := by
  induction fuel generalizing queue seen with
  | zero =>
      intro node member
      cases member
  | succ fuel ih =>
      cases queue with
      | nil =>
          intro node member
          cases member
      | cons current queue =>
          intro node member
          rcases List.mem_cons.mp member with here | later
          · exact ⟨current, List.mem_cons_self, here ▸ Relation.ReflTransGen.refl⟩
          · obtain ⟨start, listed, path⟩ := ih _ _ node later
            rcases List.mem_append.mp listed with waiting | found
            · exact ⟨start, List.mem_cons_of_mem _ waiting, path⟩
            · have edge : Step next current start :=
                (List.mem_filter.mp (List.mem_dedup.mp found)).1
              exact ⟨current, List.mem_cons_self, path.head edge⟩

/-- The nodes left to find in a finite set that no successor leaves. -/
def missing (nodes seen : Finset α) : Nat := (nodes \ seen).card

theorem missing_found {found : List α} (nodup : found.Nodup) (inside : ∀ node ∈ found, node ∈ nodes)
    (unseen : ∀ node ∈ found, node ∉ seen) :
    found.length + missing nodes (seen ∪ found.toFinset) = missing nodes seen := by
  have apart : Disjoint found.toFinset (nodes \ (seen ∪ found.toFinset)) := by
    rw [Finset.disjoint_left]
    intro node listed left
    exact (Finset.mem_sdiff.mp left).2 (Finset.mem_union_right _ listed)
  have whole : found.toFinset ∪ (nodes \ (seen ∪ found.toFinset)) = nodes \ seen := by
    ext node
    simp only [Finset.mem_union, Finset.mem_sdiff, List.mem_toFinset]
    constructor
    · intro either
      rcases either with listed | left
      · exact ⟨inside node listed, unseen node listed⟩
      · exact ⟨left.1, fun member => left.2 (Or.inl member)⟩
    · intro left
      by_cases listed : node ∈ found
      · exact Or.inl listed
      · exact Or.inr ⟨left.1, fun member => member.elim left.2 listed⟩
  rw [missing, missing, ← whole, Finset.card_union_of_disjoint apart,
    List.toFinset_card_of_nodup nodup]

/-- With fuel for every node that is left, the queue is worked off: it is taken as a whole, and with
each node taken its successors are or have been. -/
theorem taken_closed (inside : ∀ source, ∀ node ∈ next source, node ∈ nodes) (fuel : Nat)
    (queue : List α) (seen : Finset α) (enough : queue.length + missing nodes seen ≤ fuel) :
    (∀ node ∈ queue, node ∈ taken next fuel queue seen) ∧
      ∀ source ∈ taken next fuel queue seen, ∀ node ∈ next source,
        node ∈ seen ∨ node ∈ taken next fuel queue seen := by
  induction fuel generalizing queue seen with
  | zero =>
      have empty : queue = [] := List.length_eq_zero_iff.mp (by omega)
      subst empty
      exact ⟨fun node member => absurd member List.not_mem_nil, fun source member =>
        absurd member List.not_mem_nil⟩
  | succ fuel ih =>
      cases queue with
      | nil =>
          exact ⟨fun node member => absurd member List.not_mem_nil, fun source member =>
            absurd member List.not_mem_nil⟩
      | cons current queue =>
          rw [taken]
          set found := ((next current).filter fun node => decide (node ∉ seen)).dedup with found_eq
          have unseen : ∀ node ∈ found, node ∉ seen := by
            intro node member
            exact of_decide_eq_true (List.mem_filter.mp (List.mem_dedup.mp member)).2
          have listed : ∀ node ∈ found, node ∈ nodes := by
            intro node member
            exact inside current node (List.mem_filter.mp (List.mem_dedup.mp member)).1
          have fewer : found.length + missing nodes (seen ∪ found.toFinset) = missing nodes seen :=
            missing_found (List.nodup_dedup _) listed unseen
          obtain ⟨whole, closed⟩ := ih (queue ++ found) (seen ∪ found.toFinset) (by
            rw [List.length_append]
            rw [List.length_cons] at enough
            omega)
          have discovered : ∀ node ∈ found,
              node ∈ taken next fuel (queue ++ found) (seen ∪ found.toFinset) :=
            fun node member => whole node (List.mem_append_right _ member)
          constructor
          · intro node member
            rcases List.mem_cons.mp member with here | waiting
            · exact List.mem_cons.mpr (Or.inl here)
            · exact List.mem_cons_of_mem _ (whole node (List.mem_append_left _ waiting))
          · intro source member node edge
            rcases List.mem_cons.mp member with here | later
            · subst here
              by_cases known : node ∈ seen
              · exact Or.inl known
              · have fresh : node ∈ found :=
                  List.mem_dedup.mpr (List.mem_filter.mpr ⟨edge, decide_eq_true known⟩)
                exact Or.inr (List.mem_cons_of_mem _ (discovered node fresh))
            · rcases closed source later node edge with known | found'
              · rcases Finset.mem_union.mp known with before | fresh
                · exact Or.inl before
                · exact Or.inr (List.mem_cons_of_mem _ (discovered node (List.mem_toFinset.mp fresh)))
              · exact Or.inr (List.mem_cons_of_mem _ found')

theorem waiting_eq_nil (inside : ∀ source, ∀ node ∈ next source, node ∈ nodes) (fuel : Nat)
    (queue : List α) (seen : Finset α) (enough : queue.length + missing nodes seen ≤ fuel) :
    waiting next fuel queue seen = [] := by
  induction fuel generalizing queue seen with
  | zero =>
      have empty : queue.length = 0 := by omega
      exact List.length_eq_zero_iff.mp empty
  | succ fuel ih =>
      cases queue with
      | nil => rfl
      | cons current queue =>
          rw [waiting]
          apply ih
          have fewer : ((next current).filter fun node => decide (node ∉ seen)).dedup.length +
              missing nodes (seen ∪
                ((next current).filter fun node => decide (node ∉ seen)).dedup.toFinset) =
              missing nodes seen := by
            apply missing_found (List.nodup_dedup _)
            · intro node member
              exact inside current node (List.mem_filter.mp (List.mem_dedup.mp member)).1
            · intro node member
              exact of_decide_eq_true (List.mem_filter.mp (List.mem_dedup.mp member)).2
          rw [List.length_append]
          rw [List.length_cons] at enough
          omega

theorem missing_le (nodes seen : Finset α) : missing nodes seen ≤ nodes.card :=
  Finset.card_le_card Finset.sdiff_subset

theorem mem_taken_iff (inside : ∀ source, ∀ node ∈ next source, node ∈ nodes) {start : List α}
    (enough : start.length + nodes.card ≤ fuel) {node : α} :
    node ∈ taken next fuel start start.toFinset ↔
      ∃ first ∈ start, Relation.ReflTransGen (Step next) first node := by
  have bound : start.length + missing nodes start.toFinset ≤ fuel := by
    have fewer := missing_le nodes start.toFinset
    omega
  obtain ⟨whole, closed⟩ := taken_closed inside fuel start start.toFinset bound
  constructor
  · exact taken_reachable fuel start start.toFinset node
  · intro reached
    obtain ⟨first, member, path⟩ := reached
    induction path with
    | refl => exact whole first member
    | tail path edge ih =>
        rcases closed _ ih _ edge with seen | found
        · exact whole _ (List.mem_toFinset.mp seen)
        · exact found

end Worklist
end DurableContext
