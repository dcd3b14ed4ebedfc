import DurableContext.Lifecycle.Commit

/-! Stores in which nothing is under way: a new one, and one with storage to give back. -/

namespace DurableContext.Lifecycle

open Program RadixMap

/-! ### A new store -/

section Created

variable {view : View} {slot : Bool} {path : List Nat} {nodeBase : Nat}

theorem empty_edges (root : view ROOT_NODE_BASE_PAGE = .ok (⟨0, ∅⟩, slot)) (digit : Nat) :
    edges view ROOT_NODE_BASE_PAGE digit = none := by
  rw [edges, root]
  rfl

theorem empty_visits (root : view ROOT_NODE_BASE_PAGE = .ok (⟨0, ∅⟩, slot))
    (visited : Visits view path nodeBase) : path = [] ∧ nodeBase = ROOT_NODE_BASE_PAGE := by
  cases path with
  | nil => exact ⟨rfl, (Option.some.inj visited.2).symm⟩
  | cons digit path =>
      have found := visited.2
      rw [Trie.follow, empty_edges root] at found
      cases found

theorem empty_find (root : view ROOT_NODE_BASE_PAGE = .ok (⟨0, ∅⟩, slot)) (segmentId : Nat) :
    mappingOf view segmentId = none := by
  rw [mappingOf]
  cases digits : digitsOf segmentId with
  | nil => exact absurd (congrArg List.length digits) (by rw [length_digitsOf]; decide)
  | cons digit path =>
      rw [find, Trie.follow, empty_edges root]
      rfl

theorem empty_shape (root : view ROOT_NODE_BASE_PAGE = .ok (⟨0, ∅⟩, slot)) :
    Shape view INITIAL_PHYSICAL_PAGES where
  readable := by
    intro path nodeBase visited
    obtain ⟨rfl, rfl⟩ := empty_visits root visited
    exact ⟨⟨0, ∅⟩, slot, root, rfl⟩
  branching := fun path other nodeBase visited visited' =>
    (empty_visits root visited).1.trans (empty_visits root visited').1.symm
  below := by
    intro path nodeBase visited
    rw [(empty_visits root visited).2]
    exact le_rfl
  spaced := fun path nodeBase path' nodeBase' visited visited' different =>
    absurd ((empty_visits root visited).2.trans (empty_visits root visited').2.symm) different
  extents := by
    intro path base length found
    cases path with
    | nil => cases length
    | cons digit path =>
        rw [find, Trie.follow, empty_edges root] at found
        cases found

theorem createdDisk_root (info : Info) :
    committed (createdDisk info) 1 ROOT_NODE_BASE_PAGE = .ok (⟨0, ∅⟩, false) := rfl

theorem createdDisk_super (info : Info) : readSuper (createdDisk info) = .ok (1, info, false) := rfl

theorem createdDisk_tags (info : Info) : UpTo (createdDisk info) 1 := by
  have blank : UpTo (Disk.empty : Disk PhysicalPage) 1 := fun page tag held => by cases held
  refine ((blank.ftruncate INITIAL_PHYSICAL_PAGES).pwrite _ fun tag held => ?_).pwrite _
    fun tag held => ?_
  · cases held
    exact le_rfl
  · cases held
    exact le_rfl

theorem initializeStore_sound {initialCapacity : Nat} {config : Config} {world : World}
    (created : initializeStore false false initialCapacity config = .ok world) :
    ∃ info, Stored world 1 info ⟨[], [], [], [], []⟩ ∧ world.Current := by
  unfold initializeStore at created
  simp only [Bool.false_eq_true, if_false] at created
  obtain ⟨_, _, created⟩ := of_bind_ok created
  obtain ⟨block, packed, same⟩ := of_bind_ok created
  obtain rfl := (FixedPage.packSuper_ok packed).1
  obtain rfl : (⟨createdDisk (FixedPage.initialMeta initialCapacity config initialLifecycle), .empty,
    [], Handle.reset⟩ : World) = world := Except.ok.inj same
  have root := createdDisk_root (FixedPage.initialMeta initialCapacity config initialLifecycle)
  refine ⟨_, ⟨⟨false, createdDisk_super _⟩, rfl, ?_, createdDisk_tags _, empty_shape root, ?_, ?_,
    fun _ member => (by cases member), rfl, fun _ _ held => (by cases held), ?_⟩,
    fun _ held => (by cases held)⟩
  · exact (by decide : INITIAL_PHYSICAL_PAGES ≤ 2 ^ 64)
  · refine ⟨List.Pairwise.nil, fun _ member => (by cases member), fun _ member => (by cases member),
      fun path nodeBase visited => ?_⟩
    rw [(empty_visits root visited).2]
    exact le_rfl
  · refine ⟨Holds.empty _, rfl, Holds.empty _, rfl, fun _ => rfl, fun _ member => (by cases member),
      rfl, fun _ member => (by cases member), rfl, fun segmentId base _ held => ?_⟩
    rw [empty_find root segmentId] at held
    cases held
  · exact Rolls.reset _ rfl rfl rfl rfl rfl rfl rfl rfl rfl

end Created

/-! ### A store with one extent in use, one retired, and one free descriptor -/

section Sample

/-- The nodes that lead to the retired segment, and at the end its extent. -/
def trailAt (level : Nat) : Nat := if level = RADIX_LEVELS then 20 else 2 + 2 * level

/-- The last of these nodes leads to the segment in use as well. -/
def entriesAt (level : Nat) : Dict Nat :=
  if level = 7 then AList.insert 0 (trailAt 8) (AList.insert 1 54 ∅)
  else AList.insert 0 (trailAt (level + 1)) ∅

def retiredHeader : LifecycleHeader := ⟨.owned, 0, 0, none⟩

def liveHeader : LifecycleHeader := ⟨.owned, 1, 1, none⟩

def retiredRow : DescriptorRow := (⟨0, 1⟩, ⟨1, .queued, some 0, some 18, 1, none⟩)

def freedRow : DescriptorRow := (⟨2, 2⟩, ⟨2, .free, none, none, 0, none⟩)

def smallConfig : Config := ⟨3 / 4, "0.75", 1, 4, 1, 2, false⟩

def retiredInfo : Info :=
  FixedPage.initialMeta 4 smallConfig ⟨86, 0, 1, some 52, 1, none, none, 0, none, 0,
    ⟨some 0, some 1, some 0, some 1, 1, some 2, some 2, 1, 4, 3⟩⟩

def retiredBlock (page : Nat) : PhysicalPage :=
  if page = 0 then .superblock 1 retiredInfo
  else if page = 18 then .lifecycle 1 retiredHeader
  else if page = 52 then .lifecycle 1 liveHeader
  else if page = 54 then .page 1 [some "kept"]
  else if page % 2 = 0 ∧ page < 18 then .node 1 ⟨page / 2 - 1, entriesAt (page / 2 - 1)⟩
  else .blank

def retiredDisk : Disk PhysicalPage where
  block := retiredBlock
  size := 86
  zeroed := by
    intro page past
    rw [retiredBlock, if_neg (by omega), if_neg (by omega), if_neg (by omega), if_neg (by omega),
      if_neg (by omega)]
    rfl

def retiredArena : Disk PhysicalPage :=
  ((Disk.empty.ftruncate 4).pwrite 0 (.tagged 1 retiredRow.2)).pwrite 2 (.tagged 1 freedRow.2)

def retiredWorld : World := ⟨retiredDisk, retiredArena, [], Handle.reset⟩

def retiredLedger : Ledger := ⟨[(52, liveHeader)], [], [⟨retiredRow, [(18, retiredHeader)]⟩], [], [freedRow]⟩

theorem retired_node {level : Nat} (inside : level < RADIX_LEVELS) :
    committed retiredDisk 1 (trailAt level) = .ok (⟨level, entriesAt level⟩, false) := by
  rw [RADIX_LEVELS] at inside
  obtain rfl | rfl | rfl | rfl | rfl | rfl | rfl | rfl : level = 0 ∨ level = 1 ∨ level = 2 ∨
    level = 3 ∨ level = 4 ∨ level = 5 ∨ level = 6 ∨ level = 7 := by omega
  all_goals rfl

theorem retired_edges {level : Nat} (inside : level < RADIX_LEVELS) (digit : Nat) :
    edges (committed retiredDisk 1) (trailAt level) digit =
      if digit = 0 then some (trailAt (level + 1))
      else if level = 7 ∧ digit = 1 then some 54 else none := by
  rw [edges_ok (retired_node inside), entriesAt]
  by_cases last : level = 7
  · subst last
    rw [if_pos rfl]
    by_cases zero : digit = 0
    · rw [if_pos zero, zero]
      exact AList.lookup_insert _
    · rw [if_neg zero, AList.lookup_insert_ne zero]
      by_cases one : digit = 1
      · rw [if_pos ⟨rfl, one⟩, one]
        exact AList.lookup_insert _
      · rw [if_neg fun both => one both.2]
        exact AList.lookup_insert_ne one
  · rw [if_neg last]
    by_cases zero : digit = 0
    · rw [if_pos zero, zero]
      exact AList.lookup_insert _
    · rw [if_neg zero, if_neg fun both => last both.1]
      exact AList.lookup_insert_ne zero

/-- Every way leads down the nodes, or from the last one to the segment in use. -/
theorem retired_follow {path : List Nat} {level now : Nat}
    (inside : level + path.length ≤ RADIX_LEVELS)
    (found : Trie.follow (edges (committed retiredDisk 1)) (trailAt level) path = some now) :
    (path = List.replicate path.length 0 ∧ now = trailAt (level + path.length)) ∨
      (path = List.replicate (path.length - 1) 0 ++ [1] ∧ level + path.length = RADIX_LEVELS ∧
        now = 54) := by
  induction path generalizing level with
  | nil => exact Or.inl ⟨rfl, (Option.some.inj found).symm⟩
  | cons digit path ih =>
      rw [List.length_cons] at inside
      rw [Trie.follow, retired_edges (by omega)] at found
      by_cases zero : digit = 0
      · rw [if_pos zero, Option.bind_some] at found
        have below : level + 1 + path.length = level + (path.length + 1) := by omega
        rcases ih (by omega) found with ⟨zeros, at_⟩ | ⟨zeros, deep, at_⟩
        · refine Or.inl ⟨?_, ?_⟩
          · rw [List.length_cons, List.replicate_succ, ← zeros, zero]
          · rw [at_, List.length_cons, below]
        · refine Or.inr ⟨?_, ?_, at_⟩
          · have some_ : path ≠ [] := by rw [zeros]; simp
            have long := List.length_pos_iff.mpr some_
            have count : path.length + 1 - 1 = (path.length - 1) + 1 := by omega
            rw [List.length_cons, count, List.replicate_succ, List.cons_append, ← zeros, zero]
          · rw [List.length_cons, ← below, deep]
      · rw [if_neg zero] at found
        by_cases last : level = 7 ∧ digit = 1
        · obtain ⟨rfl, rfl⟩ := last
          have nil : path = [] := by
            rw [RADIX_LEVELS] at inside
            exact List.eq_nil_of_length_eq_zero (by omega)
          subst nil
          rw [if_pos ⟨rfl, rfl⟩] at found
          exact Or.inr ⟨rfl, rfl, (Option.some.inj found).symm⟩
        · rw [if_neg last] at found
          cases found

theorem retired_visits {path : List Nat} {nodeBase : Nat}
    (visited : Visits (committed retiredDisk 1) path nodeBase) :
    path = List.replicate path.length 0 ∧ path.length < 8 ∧ nodeBase = 2 + 2 * path.length := by
  have short : path.length < 8 := visited.1
  rcases @retired_follow path 0 nodeBase (by have := visited.1; omega) visited.2 with
    ⟨zeros, at_⟩ | ⟨_, deep, _⟩
  · refine ⟨zeros, short, at_.trans ?_⟩
    rw [trailAt, Nat.zero_add, if_neg (Nat.ne_of_lt visited.1)]
  · rw [RADIX_LEVELS] at deep
    omega

theorem retired_find {segmentId base : Nat} (named : segmentId < 2 ^ LOGICAL_SEGMENT_BITS)
    (found : mappingOf (committed retiredDisk 1) segmentId = some base) :
    (segmentId = 0 ∧ base = 20) ∨ (segmentId = 1 ∧ base = 54) := by
  have length := length_digitsOf segmentId
  rcases @retired_follow (digitsOf segmentId) 0 base (by omega) found with
    ⟨zeros, at_⟩ | ⟨zeros, _, at_⟩
  · rw [length] at zeros at_
    exact Or.inl ⟨digitsOf_injective named (by decide) (zeros.trans rfl), at_⟩
  · rw [length] at zeros
    exact Or.inr ⟨digitsOf_injective named (by decide) (zeros.trans rfl), at_⟩

theorem retired_shape : Shape (committed retiredDisk 1) 86 where
  readable := by
    intro path nodeBase visited
    obtain ⟨_, short, rfl⟩ := retired_visits visited
    have node := @retired_node path.length visited.1
    rw [trailAt, if_neg (Nat.ne_of_lt visited.1)] at node
    exact ⟨_, _, node, rfl⟩
  branching := by
    intro path other nodeBase visited visited'
    obtain ⟨zeros, _, at_⟩ := retired_visits visited
    obtain ⟨zeros', _, at'⟩ := retired_visits visited'
    rw [zeros, zeros', show path.length = other.length by omega]
  below := by
    intro path nodeBase visited
    obtain ⟨_, short, rfl⟩ := retired_visits visited
    rw [RADIX_NODE_COPIES]
    omega
  spaced := by
    intro path nodeBase path' nodeBase' visited visited' different
    obtain ⟨_, _, rfl⟩ := retired_visits visited
    obtain ⟨_, _, rfl⟩ := retired_visits visited'
    rw [RADIX_NODE_COPIES]
    omega
  extents := by
    intro path base length found
    have here : base = 20 ∨ base = 54 := by
      rcases @retired_follow path 0 base (by omega) found with ⟨_, at_⟩ | ⟨_, _, at_⟩
      · rw [length] at at_
        exact Or.inl at_
      · exact Or.inr at_
    refine ⟨by rw [SEGMENT_DATA_PAGES]; omega, fun path' nodeBase visited => ?_⟩
    obtain ⟨_, short, rfl⟩ := retired_visits visited
    rw [RADIX_NODE_COPIES]
    omega

theorem retiredWorld_sound : Stored retiredWorld 1 retiredInfo retiredLedger where
  super := ⟨false, rfl⟩
  size := rfl
  bounded := (by decide : 86 ≤ 2 ^ 64)
  tags := by
    intro page tag held
    change tagOf (retiredBlock page) = some tag at held
    unfold retiredBlock at held
    split_ifs at held <;> cases held <;> exact le_rfl
  shape := retired_shape
  spaced := by
    have listed : ∀ base ∈ retiredLedger.bases, base = 52 ∨ base = 18 :=
      fun base member => List.mem_pair.mp member
    refine ⟨List.pairwise_pair.mpr (Or.inr (le_refl 52)), ?_, ?_, ?_⟩
    · intro base member
      rcases listed base member with rfl | rfl <;> decide
    · intro base member path nodeBase visited
      obtain ⟨_, short, rfl⟩ := retired_visits visited
      have here := listed base member
      rw [RADIX_NODE_COPIES, EXTENT_PAGES, LIFECYCLE_COPIES, SEGMENT_DATA_PAGES]
      omega
    · intro path nodeBase visited
      obtain ⟨_, _, rfl⟩ := retired_visits visited
      omega
  books := by
    refine ⟨⟨⟨rfl, rfl, rfl⟩, fun entry listed => ?_⟩, rfl, Holds.empty 0, rfl, fun _ => rfl, ?_,
      rfl, fun _ member => (by cases member), rfl, ?_⟩
    · rw [List.mem_singleton.mp listed]
      exact ⟨rfl, rfl, by decide, rfl⟩
    · intro retired member
      rw [List.mem_singleton.mp member]
      refine ⟨0, rfl, ⟨⟨rfl, rfl, rfl⟩, fun entry listed => ?_⟩, rfl⟩
      rw [List.mem_singleton.mp listed]
      exact ⟨rfl, rfl, by decide, rfl⟩
    · intro segmentId base named held
      rcases retired_find named held with ⟨rfl, rfl⟩ | ⟨rfl, rfl⟩
      · exact ⟨(18, retiredHeader), List.mem_pair.mpr (Or.inr rfl), rfl, rfl⟩
      · exact ⟨(52, liveHeader), List.mem_pair.mpr (Or.inl rfl), rfl, rfl⟩
  waits := by
    intro retired member
    rw [List.mem_singleton.mp member]
    exact List.cons_ne_nil _ _
  arenaSize := rfl
  arenaTags := by
    have blank : UpTo (Disk.empty : Disk PhysicalPage) 1 := fun page tag held => by cases held
    refine ((blank.ftruncate 4).pwrite 0 fun tag held => ?_).pwrite 2 fun tag held => ?_
    · cases held
      exact le_rfl
    · cases held
      exact le_rfl
  rolls := by
    refine ⟨⟨⟨rfl, rfl, rfl⟩, rfl, rfl, rfl, ?_⟩, rfl, rfl, ⟨⟨rfl, rfl, rfl⟩, rfl, rfl, rfl, ?_⟩, ?_,
      by decide, by decide, by decide, by decide, fun empty => by cases empty⟩
    · intro row member
      rw [List.mem_singleton.mp member]
      rfl
    · intro row member
      rw [List.mem_singleton.mp member]
      rfl
    · intro page
      show page ∈ [0, 2] ↔ page % 2 = 0 ∧ page < 4
      rw [List.mem_pair]
      omega

end Sample

end DurableContext.Lifecycle
