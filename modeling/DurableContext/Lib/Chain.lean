import Mathlib.Data.List.Nodup
import Mathlib.Tactic.Common

/-! Linked lists in a store of cells: where the links lead from a head, and which changes of the
cells keep a list, extend it or take its first cell away. -/

namespace DurableContext

variable {κ α : Type}

/-- The links lead from `head` through the listed cells, each with what it holds, and end there. -/
def Chain (cell : κ → Option α) (next : α → Option κ) : Option κ → List (κ × α) → Prop
  | head, [] => head = none
  | head, (key, value) :: rest =>
      head = some key ∧ cell key = some value ∧ Chain cell next (next value) rest

namespace Chain

variable {cell cell' : κ → Option α} {next : α → Option κ} {head : Option κ}
  {entries others : List (κ × α)} {key : κ} {value : α}

theorem head_eq (chain : Chain cell next head entries) : head = entries.head?.map Prod.fst := by
  cases entries with
  | nil => exact chain
  | cons entry rest => exact chain.1

theorem held (chain : Chain cell next head entries) {entry : κ × α} (member : entry ∈ entries) :
    cell entry.1 = some entry.2 := by
  induction entries generalizing head with
  | nil => cases member
  | cons first rest ih =>
      rcases List.mem_cons.mp member with rfl | later
      · exact chain.2.1
      · exact ih chain.2.2 later

theorem congr (chain : Chain cell next head entries)
    (same : ∀ entry ∈ entries, cell' entry.1 = cell entry.1) : Chain cell' next head entries := by
  induction entries generalizing head with
  | nil => exact chain
  | cons entry rest ih =>
      refine ⟨chain.1, (same entry List.mem_cons_self).trans chain.2.1, ih chain.2.2 ?_⟩
      exact fun later member => same later (List.mem_cons_of_mem entry member)

theorem set_head {value' : α} (chain : Chain cell next head ((key, value) :: entries))
    (others : ∀ entry ∈ entries, cell' entry.1 = cell entry.1) (held : cell' key = some value')
    (leads : next value' = next value) : Chain cell' next head ((key, value') :: entries) :=
  ⟨chain.1, held, leads ▸ chain.2.2.congr others⟩

theorem cons (chain : Chain cell next head entries)
    (others : ∀ entry ∈ entries, cell' entry.1 = cell entry.1) (held : cell' key = some value)
    (leads : next value = head) : Chain cell' next (some key) ((key, value) :: entries) :=
  ⟨rfl, held, leads ▸ chain.congr others⟩

end Chain
end DurableContext
