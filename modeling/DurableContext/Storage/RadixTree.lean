import DurableContext.Lib.Trie
import DurableContext.Storage.RadixMap

/-! The radix map as a tree: the nodes a reader comes to from the root, when they are well formed,
and what the walks of the map find then. -/

namespace DurableContext.RadixMap

open Program Trie

/-- A node as a reader has it. -/
abbrev View := Nat → Except StoreError (RadixNode × Bool)

def edges (view : View) : Trie Nat Nat := fun nodeBase digit =>
  match view nodeBase with
  | .ok (node, _) => node.entries.lookup digit
  | .error _ => none

theorem edges_ok {view : View} {nodeBase : Nat} {node : RadixNode} {slot : Bool}
    (seen : view nodeBase = .ok (node, slot)) (digit : Nat) :
    edges view nodeBase digit = node.entries.lookup digit := by
  rw [edges, seen]

/-- The nodes that a reader can come to from the root, each on its path. -/
def Visits (view : View) (path : List Nat) (nodeBase : Nat) : Prop :=
  Reached (edges view) ROOT_NODE_BASE_PAGE RADIX_LEVELS path nodeBase

def find (view : View) (path : List Nat) : Option Nat :=
  follow (edges view) ROOT_NODE_BASE_PAGE path

/-- The nodes form a tree of all levels, and nodes and mapped segments lie apart, below the
frontier. -/
structure Shape (view : View) (frontier : Nat) : Prop where
  readable : ∀ path nodeBase, Visits view path nodeBase →
    ∃ node slot, view nodeBase = .ok (node, slot) ∧ node.depth = path.length
  branching : Branching (edges view) ROOT_NODE_BASE_PAGE RADIX_LEVELS
  below : ∀ path nodeBase, Visits view path nodeBase → nodeBase + RADIX_NODE_COPIES ≤ frontier
  spaced : ∀ path nodeBase path' nodeBase', Visits view path nodeBase →
    Visits view path' nodeBase' → nodeBase ≠ nodeBase' →
      nodeBase + RADIX_NODE_COPIES ≤ nodeBase' ∨ nodeBase' + RADIX_NODE_COPIES ≤ nodeBase
  extents : ∀ path base, path.length = RADIX_LEVELS → find view path = some base →
    base + SEGMENT_DATA_PAGES ≤ frontier ∧ ∀ path' nodeBase, Visits view path' nodeBase →
      nodeBase + RADIX_NODE_COPIES ≤ base ∨ base + SEGMENT_DATA_PAGES ≤ nodeBase

/-! ### Digits -/

/-- The path of a segment. -/
def digitsOf (segmentId : Nat) : List Nat :=
  (List.range RADIX_LEVELS).map fun level =>
    (segmentId >>> (8 * (RADIX_LEVELS - 1 - level))) % RADIX_FANOUT

@[simp] theorem length_digitsOf (segmentId : Nat) : (digitsOf segmentId).length = RADIX_LEVELS := by
  rw [digitsOf, List.length_map, List.length_range]

theorem radixDigits_ok {segmentId : Nat} (named : segmentId < 2 ^ LOGICAL_SEGMENT_BITS) :
    radixDigits segmentId = .ok (digitsOf segmentId) :=
  if_neg (Nat.not_le.mpr named)

theorem digitsOf_injective {segmentId other : Nat} (named : segmentId < 2 ^ LOGICAL_SEGMENT_BITS)
    (named' : other < 2 ^ LOGICAL_SEGMENT_BITS) (same : digitsOf segmentId = digitsOf other) :
    segmentId = other := by
  have digit : ∀ level, level < RADIX_LEVELS →
      (segmentId >>> (8 * (RADIX_LEVELS - 1 - level))) % RADIX_FANOUT =
        (other >>> (8 * (RADIX_LEVELS - 1 - level))) % RADIX_FANOUT := by
    intro level inside
    have at_ := congrArg (fun digits : List Nat => digits[level]?) same
    simpa [digitsOf, List.getElem?_map, List.getElem?_range inside] using at_
  have first := digit 0 (by decide)
  have second := digit 1 (by decide)
  have third := digit 2 (by decide)
  have fourth := digit 3 (by decide)
  have fifth := digit 4 (by decide)
  have sixth := digit 5 (by decide)
  have seventh := digit 6 (by decide)
  have last := digit 7 (by decide)
  simp only [RADIX_LEVELS, RADIX_FANOUT, LOGICAL_SEGMENT_BITS, Nat.shiftRight_eq_div_pow] at *
  omega

/-! ### Walks -/

section Walks

variable {view : View} {frontier : Nat} {done digits : List Nat} {nodeBase : Nat}

theorem find_snoc {node : RadixNode} {slot : Bool} (there : find view done = some nodeBase)
    (seen : view nodeBase = .ok (node, slot)) (digit : Nat) :
    find view (done ++ [digit]) = node.entries.lookup digit := by
  have here : follow (edges view) ROOT_NODE_BASE_PAGE done = some nodeBase := there
  rw [find, follow_append, here, Option.bind_some, follow, edges_ok seen]
  cases node.entries.lookup digit <;> rfl

theorem follow_cons {node : RadixNode} {slot : Bool} (seen : view nodeBase = .ok (node, slot))
    (digit : Nat) : follow (edges view) nodeBase (digit :: digits) =
      (node.entries.lookup digit).bind fun child => follow (edges view) child digits := by
  rw [follow, edges_ok seen]

theorem walk_eq (shape : Shape view frontier) (there : find view done = some nodeBase)
    (whole : done.length + digits.length = RADIX_LEVELS) (left : digits ≠ []) :
    walk view done.length digits nodeBase = .ok (follow (edges view) nodeBase digits) := by
  induction digits generalizing done nodeBase with
  | nil => exact absurd rfl left
  | cons digit digits ih =>
      rw [List.length_cons] at whole
      obtain ⟨node, slot, seen, depth⟩ := shape.readable done nodeBase ⟨by omega, there⟩
      rw [walk, seen, follow_cons seen]
      simp only [ok_bind rfl, depth, ne_eq, not_true_eq_false, if_false]
      have next := find_snoc there seen digit
      cases held : node.entries.lookup digit with
      | none => rfl
      | some value =>
          by_cases last : digits = []
          · subst last
            rfl
          · have length : (done ++ [digit]).length = done.length + 1 := by simp
            have further := ih (next.trans held) (by rw [length]; omega) last
            rw [length] at further
            simpa [last] using further

/-- What the search for a missing edge finds on the way of the digits. -/
structure Misses (view : View) (whole : List Nat) (edge : MissingEdge) (done : List Nat) : Prop where
  visited : Visits view done edge.nodeBase
  seen : view edge.nodeBase = .ok (edge.node, edge.slot)
  depth : edge.depth = done.length
  missing : edge.node.entries.lookup edge.digit = none
  shape : whole = done ++ edge.digit :: edge.below

theorem missingEdge_spec (shape : Shape view frontier) (there : find view done = some nodeBase)
    (whole : done.length + digits.length = RADIX_LEVELS) (left : digits ≠ []) :
    match missingEdge view done.length digits nodeBase with
    | .ok edge => ∃ before, Misses view (done ++ digits) edge before
    | .error _ => follow (edges view) nodeBase digits ≠ none := by
  induction digits generalizing done nodeBase with
  | nil => exact absurd rfl left
  | cons digit digits ih =>
      rw [List.length_cons] at whole
      have visited : Visits view done nodeBase := ⟨by omega, there⟩
      obtain ⟨node, slot, seen, depth⟩ := shape.readable done nodeBase visited
      rw [missingEdge, seen, follow_cons seen]
      simp only [ok_bind rfl]
      have next := find_snoc there seen digit
      cases held : node.entries.lookup digit with
      | none => exact ⟨done, visited, seen, rfl, held, rfl⟩
      | some value =>
          by_cases last : digits = []
          · subst last
            simp [follow]
          · have length : (done ++ [digit]).length = done.length + 1 := by simp
            have further := ih (next.trans held) (by rw [length]; omega) last
            rw [length, List.append_assoc, List.singleton_append] at further
            simpa [last] using further

/-- What the search for the edge to a segment finds on the way of the digits. -/
structure Leads (view : View) (whole : List Nat) (edge : LeafEdge) (done : List Nat) : Prop where
  visited : Visits view done edge.nodeBase
  seen : view edge.nodeBase = .ok (edge.node, edge.slot)
  depth : edge.node.depth = done.length
  held : edge.node.entries.lookup edge.digit = some edge.segmentBase
  shape : whole = done ++ [edge.digit]

theorem leafEdge_spec (shape : Shape view frontier) (there : find view done = some nodeBase)
    (whole : done.length + digits.length = RADIX_LEVELS) (left : digits ≠ []) :
    match leafEdge view done.length digits nodeBase with
    | .ok edge => ∃ before, Leads view (done ++ digits) edge before
    | .error _ => follow (edges view) nodeBase digits = none := by
  induction digits generalizing done nodeBase with
  | nil => exact absurd rfl left
  | cons digit digits ih =>
      rw [List.length_cons] at whole
      have visited : Visits view done nodeBase := ⟨by omega, there⟩
      obtain ⟨node, slot, seen, depth⟩ := shape.readable done nodeBase visited
      rw [leafEdge, seen, follow_cons seen]
      simp only [ok_bind rfl, depth, ne_eq, not_true_eq_false, if_false]
      have next := find_snoc there seen digit
      cases held : node.entries.lookup digit with
      | none => rfl
      | some value =>
          by_cases last : digits = []
          · subst last
            exact ⟨done, visited, seen, depth, held, rfl⟩
          · have length : (done ++ [digit]).length = done.length + 1 := by simp
            have further := ih (next.trans held) (by rw [length]; omega) last
            rw [length, List.append_assoc, List.singleton_append] at further
            simpa [last] using further

end Walks

end DurableContext.RadixMap
