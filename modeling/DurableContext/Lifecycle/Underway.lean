import DurableContext.Lifecycle.Ledger
import DurableContext.Storage.Committed

/-! The state of an operation over a committed file: what it has staged, and that nothing it has
done so far can be seen by a reader of the committed epoch. -/

namespace DurableContext.Lifecycle

open Program RadixMap

/-- What holds of both files between operations, apart from what the data pages say. -/
structure Stored (world : World) (epoch : Nat) (info : Info) (ledger : Ledger) : Prop where
  super : ∃ slot, readSuper world.primary = .ok (epoch, info, slot)
  size : world.primary.size = info.ext.nextPhysicalPage
  bounded : world.primary.size ≤ 2 ^ 64
  tags : UpTo world.primary epoch
  shape : Shape (committed world.primary epoch) world.primary.size
  spaced : Spaced (committed world.primary epoch) world.primary.size ledger.bases
  books : Books (headersAt world.primary epoch) (mappingOf (committed world.primary epoch)) info.ext
    ledger
  waits : ∀ retired ∈ ledger.queue, retired.extents ≠ []
  arenaSize : world.arena.size = info.ext.arena.arenaPages
  arenaTags : UpTo world.arena epoch
  rolls : Rolls (descriptorsAt world.arena epoch) info.ext.arena ledger.rows ledger.pool

/-! ### Trails -/

namespace FileEffect

def toPrimary : FileEffect → Option (Effect PhysicalPage)
  | .primary effect => some effect
  | .arena _ => none

def toArena : FileEffect → Option (Effect PhysicalPage)
  | .primary _ => none
  | .arena effect => some effect

end FileEffect

/-- A run has done to the two files what it has logged, and nothing that is not allowed. -/
def Traced (before after : World) (allowed : FileEffect → Prop) : Prop :=
  ∃ effects, after.log = before.log ++ effects ∧
    after.primary = before.primary.replay (effects.filterMap FileEffect.toPrimary) ∧
    after.arena = before.arena.replay (effects.filterMap FileEffect.toArena) ∧
    ∀ effect ∈ effects, allowed effect

section Trails

variable {before middle after : World} {allowed wider : FileEffect → Prop}

theorem Traced.refl (world : World) (allowed : FileEffect → Prop) : Traced world world allowed :=
  ⟨[], by simp⟩

theorem Traced.trans (first : Traced before middle allowed) (second : Traced middle after allowed) :
    Traced before after allowed := by
  obtain ⟨effects, log, primary, arena, fine⟩ := first
  obtain ⟨more, log', primary', arena', fine'⟩ := second
  refine ⟨effects ++ more, by rw [log', log, List.append_assoc], ?_, ?_, fun effect member => ?_⟩
  · rw [primary', primary, List.filterMap_append, Disk.replay_append]
  · rw [arena', arena, List.filterMap_append, Disk.replay_append]
  · exact (List.mem_append.mp member).elim (fine effect) (fine' effect)

theorem Traced.of_same {before' after' : World} (traced : Traced before after allowed)
    (log : before'.log = before.log) (primary : before'.primary = before.primary)
    (arena : before'.arena = before.arena) (log' : after'.log = after.log)
    (primary' : after'.primary = after.primary) (arena' : after'.arena = after.arena) :
    Traced before' after' allowed := by
  rw [Traced, log, primary, arena, log', primary', arena']
  exact traced

theorem Traced.arena_single {effect : Effect PhysicalPage}
    (log : after.log = before.log ++ [.arena effect]) (primary : after.primary = before.primary)
    (arena : after.arena = before.arena.apply effect) (fine : allowed (.arena effect)) :
    Traced before after allowed := by
  refine ⟨[.arena effect], log, primary, arena, fun other member => ?_⟩
  rw [List.mem_singleton.mp member]
  exact fine

theorem Traced.of_trail {allowed : Effect PhysicalPage → Prop} {world : World}
    {radix : RadixMap.World LifecycleMeta} (trail : Trail world.radix radix allowed)
    (fine : ∀ effect, allowed effect → wider (.primary effect)) :
    Traced world (world.withRadix radix) wider := by
  obtain ⟨effects, log, disk, inside⟩ := trail
  have logged : radix.log = effects := log
  refine ⟨effects.map .primary, ?_, ?_, ?_, ?_⟩
  · rw [World.withRadix, logged]
  · have same : (effects.map FileEffect.primary).filterMap FileEffect.toPrimary = effects := by
      rw [List.filterMap_map]
      exact List.filterMap_some
    rw [same]
    exact disk
  · have none_ : (effects.map FileEffect.primary).filterMap FileEffect.toArena = [] := by
      rw [List.filterMap_map, List.filterMap_eq_nil_iff]
      exact fun _ _ => rfl
    rw [none_]
    rfl
  · intro effect member
    obtain ⟨inner, listed, rfl⟩ := List.mem_map.mp member
    exact fine inner (inside inner listed)

theorem onPrimary_outcome {α : Type} {program : Op StoreError (RadixMap.World LifecycleMeta) α}
    {world : World} {returns : α → RadixMap.World LifecycleMeta → Prop}
    {raises : StoreError → RadixMap.World LifecycleMeta → Prop}
    (outcome : Outcome program world.radix returns raises) :
    Outcome (onPrimary program) world
      (fun value after => ∃ radix, returns value radix ∧ after = world.withRadix radix)
      (fun error after => ∃ radix, raises error radix ∧ after = world.withRadix radix) := by
  unfold Outcome at outcome ⊢
  unfold onPrimary
  cases ran : program world.radix with
  | ok value radix =>
      rw [ran] at outcome
      exact ⟨radix, outcome, rfl⟩
  | error error radix =>
      rw [ran] at outcome
      exact ⟨radix, outcome, rfl⟩

end Trails

/-! ### What a committed reader does not see -/

/-- Pages of the primary that a reader of the committed epoch takes nothing from. -/
inductive Spare (start : World) (epoch : Nat) (ledger : Ledger) : Nat → Prop
  | past {page : Nat} (beyond : start.primary.size ≤ page) : Spare start epoch ledger page
  | node {path : List Nat} {nodeBase : Nat} {node : RadixNode} {slot : Bool}
      (visited : Visits (committed start.primary epoch) path nodeBase)
      (read : readNode start.primary nodeBase epoch = .ok (node, slot)) :
      Spare start epoch ledger (nodeBase + (!slot).toNat)
  | header {entry : Nat × LifecycleHeader} {slot : Bool} {tagged : Nat × LifecycleHeader}
      (member : entry ∈ ledger.entries)
      (selected : DualCopy.select epoch (copiesAt Block.asLifecycle start.primary entry.1) =
        some (slot, tagged)) :
      Spare start epoch ledger (entry.1 + (!slot).toNat)

/-- Pages of the arena that a reader of the committed epoch takes nothing from. -/
inductive SpareArena (start : World) (epoch : Nat) (ledger : Ledger) : Nat → Prop
  | other {row : DescriptorRow} {slot : Bool} {tagged : Nat × TaggedDescriptor}
      (member : row ∈ ledger.rows ++ ledger.pool)
      (selected : DualCopy.select epoch (copiesAt Block.asTagged start.arena row.1.page) =
        some (slot, tagged)) :
      SpareArena start epoch ledger (row.1.page + (!slot).toNat)

/-- Effects that a reader of the committed epoch does not notice. -/
inductive Harmless (start : World) (epoch : Nat) (ledger : Ledger) : FileEffect → Prop
  | primaryWrite {page : Nat} {block : PhysicalPage} (spare : Spare start epoch ledger page)
      (young : Young epoch block) : Harmless start epoch ledger (.primary (.pwrite page block))
  | arenaWrite {page : Nat} {block : PhysicalPage} (spare : SpareArena start epoch ledger page)
      (young : Young epoch block) : Harmless start epoch ledger (.arena (.pwrite page block))

/-! ### Operations -/

/-- The nodes as the handle of an operation has them. -/
abbrev nodesOf (world : World) (epoch : Nat) : View := pending world.radix epoch

/-- An operation that has not committed yet. -/
structure Underway (start : World) (epoch : Nat) (ledger : Ledger) (world : World) : Prop where
  staged : Staged start.primary epoch start.primary.size world.radix
  frontier : world.handle.frontier = some world.primary.size
  bounded : world.primary.size ≤ 2 ^ 64
  tags : UpTo world.primary (epoch + 1)
  arenaTags : UpTo world.arena (epoch + 1)
  low : ∀ path nodeBase, Visits (nodesOf world epoch) path nodeBase → 2 ≤ nodeBase
  supers : ∀ page < 2, world.primary.pread page = start.primary.pread page
  trail : Traced start world (Harmless start epoch ledger)

/-! ### Why an operation stops -/

/-- Every number is one that the old metadata bounds. -/
structure ArenaMeta.Within (old new : ArenaMeta) : Prop where
  pages : new.arenaPages ≤ old.arenaPages
  next : new.nextIncarnation = old.nextIncarnation
  named : ∀ page ∈ [new.queueHeadPage, new.queueTailPage, new.freeHeadPage].reduceOption,
    page < old.arenaPages
  incarnations : ∀ incarnation ∈
    [new.queueHeadIncarnation, new.queueTailIncarnation, new.freeHeadIncarnation].reduceOption,
      incarnation < old.nextIncarnation
  counts : new.queueCount ≤ old.arenaPages ∧ new.freeCount ≤ old.arenaPages

/-- The metadata that a step may write: only the free list and the arena differ, within what the
ledger has. -/
structure Follows (info : Info) (ledger : Ledger) (new : Info) : Prop where
  rest : { new with ext := { new.ext with
    nextPhysicalPage := info.ext.nextPhysicalPage
    freeHeadPage := info.ext.freeHeadPage
    freeCount := info.ext.freeCount
    arena := info.ext.arena } } = info
  pages : new.ext.nextPhysicalPage ≤ 2 ^ 64
  freeHead : ∀ page ∈ new.ext.freeHeadPage, page ∈ ledger.bases
  freeCount : new.ext.freeCount ≤ ledger.bases.length
  arena : info.ext.arena.Within new.ext.arena

inductive SuperLimit (epoch : Nat) (new : Info) : StoreError → Prop
  | epoch (large : 2 ^ 64 ≤ epoch) : SuperLimit epoch new .structError
  | payload (large : MAX_PAYLOAD < superPayloadLength new) : SuperLimit epoch new
      (.valueError ("fixed page payload too large: " ++ toString (superPayloadLength new)))

/-- A descriptor whose numbers are all in the ledger. -/
structure Ledger.Rewrites (ledger : Ledger) (descriptor : TaggedDescriptor) : Prop where
  incarnation : ∃ row ∈ ledger.rows, row.1.incarnation = descriptor.incarnation ∧
    ∀ generation ∈ descriptor.generation, row.2.generation = some generation
  next : ∀ ref ∈ descriptor.next, ∃ row ∈ ledger.rows ++ ledger.pool, row.1 = ref

/-- Why a step stops: the caller's failpoint, or a number of the store that its field has no room
for. -/
inductive Limit (failpoint : String → Bool) (start : World) (epoch : Nat) (info : Info)
    (ledger : Ledger) : StoreError → Prop
  | interrupted {label : String} (fires : failpoint label = true) :
      Limit failpoint start epoch info ledger (.interrupted label)
  | node {world : World} {error : StoreError} (underway : Underway start epoch ledger world)
      (stuck : NodesLimit (nodesOf world epoch) (epoch + 1) error) :
      Limit failpoint start epoch info ledger error
  | header (large : 2 ^ 64 ≤ epoch + 1) :
      Limit failpoint start epoch info ledger (.valueError "epoch exceeds uint64")
  | generation {row : DescriptorRow} {generation : Nat} (member : row ∈ ledger.rows)
      (held : row.2.generation = some generation) (large : 2 ^ 64 ≤ generation) :
      Limit failpoint start epoch info ledger (.valueError "generation exceeds uint64")
  | descriptor {descriptor : TaggedDescriptor} {error : StoreError}
      (rewrites : ledger.Rewrites descriptor) (stuck : DescriptorLimit (epoch + 1) descriptor error) :
      Limit failpoint start epoch info ledger error
  | super {new : Info} {error : StoreError} (follows : Follows info ledger new)
      (stuck : SuperLimit (epoch + 1) new error) : Limit failpoint start epoch info ledger error

/-- How an operation fails: with nothing done that a committed reader could see. -/
def Refused (failpoint : String → Bool) (start : World) (epoch : Nat) (info : Info)
    (ledger : Ledger) (error : StoreError) (after : World) : Prop :=
  Traced start after (Harmless start epoch ledger) ∧ Limit failpoint start epoch info ledger error

section Refusals

variable {α : Type} {program : Op StoreError World α} {start world : World} {epoch : Nat}
  {info : Info} {ledger : Ledger} {failpoint : String → Bool} {returns : α → World → Prop}

theorem Underway.refuses (underway : Underway start epoch ledger world)
    (outcome : Outcome program world returns
      fun error after => after = world ∧ Limit failpoint start epoch info ledger error) :
    Outcome program world returns (Refused failpoint start epoch info ledger) :=
  Outcome.mono outcome (fun _ _ held => held) fun _ _ held => ⟨held.1 ▸ underway.trail, held.2⟩

theorem reach_outcome (failpoint : String → Bool) (label : String) (world start : World)
    (epoch : Nat) (info : Info) (ledger : Ledger) :
    Outcome (reach failpoint label : Op StoreError World Unit) world (fun _ after => after = world)
      (fun error after => after = world ∧ Limit failpoint start epoch info ledger error) := by
  unfold reach
  by_cases fires : failpoint label = true
  · exact Outcome.if_pos fires (Outcome.of_error (throw_run _ world) ⟨rfl, .interrupted fires⟩)
  · exact Outcome.if_neg fires (Outcome.of_ok (pure_run _ world) rfl)

theorem Underway.reaches (underway : Underway start epoch ledger world) (label : String) :
    Outcome (reach failpoint label : Op StoreError World Unit) world (fun _ after => after = world)
      (Refused failpoint start epoch info ledger) :=
  underway.refuses (reach_outcome failpoint label world start epoch info ledger)

end Refusals

def OffNodes (view : View) (page : Nat) : Prop :=
  ∀ path nodeBase, Visits view path nodeBase → page ≠ nodeBase ∧ page ≠ nodeBase + 1

/-- What is left as it was: the pages below the end of the file that belong to no node and are not
touched. Nodes may drop out of the map, and none are new. -/
structure Framed (epoch : Nat) (touched : Nat → Prop) (world after : World) : Prop where
  longer : world.primary.size ≤ after.primary.size
  fewer : ∀ path nodeBase, Visits (nodesOf after epoch) path nodeBase →
    Visits (nodesOf world epoch) path nodeBase
  pages : ∀ page < world.primary.size, OffNodes (nodesOf world epoch) page → ¬ touched page →
    after.primary.pread page = world.primary.pread page
  arena : after.arena = world.arena

section Operations

variable {start world after : World} {epoch : Nat} {info : Info} {ledger : Ledger}
  {segmentId base : Nat}

theorem Underway.shape (underway : Underway start epoch ledger world) :
    Shape (nodesOf world epoch) world.primary.size := by
  obtain ⟨frontier, at_, _, shape⟩ := underway.staged.frontier
  have same : some frontier = some world.primary.size := at_.symm.trans underway.frontier
  rw [Option.some.injEq] at same
  exact same ▸ shape

theorem young_node (epoch : Nat) (node : RadixNode) : Young epoch (.node (epoch + 1) node) := by
  intro tag held
  cases held
  exact Nat.lt_succ_self epoch

theorem Underway.nodeEffect (underway : Underway start epoch ledger world)
    (stored : Stored start epoch info ledger) {effect : Effect PhysicalPage}
    (allowed : NodeEffect world.radix epoch effect) :
    Harmless start epoch ledger (.primary effect) := by
  obtain @⟨path, nodeBase, old, slot, node, visited, seen⟩ := allowed
  refine .primaryWrite ?_ (young_node epoch node)
  obtain ⟨first, second⟩ := underway.staged.target_spec stored.shape visited seen
  rcases underway.staged.new path nodeBase visited with old_ | ⟨high, _⟩
  · obtain ⟨node', read⟩ := second path old_
    have spare : Spare start epoch ledger (nodeBase +
      (!!target world.radix nodeBase slot).toNat) := .node old_ read
    rwa [Bool.not_not] at spare
  · rw [first high]
    exact .past high

theorem Underway.room (underway : Underway start epoch ledger world) :
    4 ≤ world.primary.size :=
  underway.shape.below [] ROOT_NODE_BASE_PAGE ⟨Nat.succ_pos _, rfl⟩

theorem Underway.edited (underway : Underway start epoch ledger world)
    (stored : Stored start epoch info ledger) {radix : RadixMap.World LifecycleMeta}
    (trail : Trail world.radix radix (NodeEffect world.radix epoch))
    (staged : Staged start.primary epoch start.primary.size radix)
    (front : radix.handle.frontier = some world.primary.size)
    (sized : radix.disk.size = world.primary.size)
    (fewer : ∀ path nodeBase, Visits (pending radix epoch) path nodeBase →
      Visits (nodesOf world epoch) path nodeBase) :
    Underway start epoch ledger (world.withRadix radix) ∧
      Framed epoch (fun _ => False) world (world.withRadix radix) := by
  have pages : ∀ page < world.primary.size, OffNodes (nodesOf world epoch) page →
      radix.disk.pread page = world.primary.pread page := by
    intro page short off
    refine trail.pread fun effect allowed disk => ?_
    obtain @⟨path, nodeBase, old, slot, node, visited, seen⟩ := allowed
    obtain ⟨first, second⟩ := off path nodeBase visited
    refine if_neg ?_
    rcases slot_page nodeBase (target world.radix nodeBase slot) with at_ | at_ <;> omega
  have low : ∀ path nodeBase, Visits (pending radix epoch) path nodeBase → 2 ≤ nodeBase :=
    fun path nodeBase visited => underway.low path nodeBase (fewer path nodeBase visited)
  refine ⟨⟨staged.of_log [], ?_, ?_, ?_, underway.arenaTags, low, ?_, ?_⟩,
    ⟨?_, fewer, fun page short off _ => pages page short off, rfl⟩⟩
  · show radix.handle.frontier = some radix.disk.size
    rw [front, sized]
  · show radix.disk.size ≤ 2 ^ 64
    rw [sized]
    exact underway.bounded
  · obtain ⟨effects, _, disk, fine⟩ := trail
    show UpTo radix.disk (epoch + 1)
    rw [disk]
    refine @Disk.replay_induction _ _ (fun file => UpTo file (epoch + 1)) _ _ underway.tags ?_
    intro effect member file upTo
    obtain ⟨node, visited, seen⟩ := fine effect member
    exact upTo.pwrite _ fun tag held => Nat.le_of_eq (Option.some.inj held).symm
  · intro page short
    have room := underway.room
    refine (pages page (by omega) fun path nodeBase visited => ?_).trans
      (underway.supers page short)
    have high := underway.low path nodeBase visited
    omega
  · exact underway.trail.trans (Traced.of_trail trail fun effect allowed =>
      underway.nodeEffect stored allowed)
  · show world.primary.size ≤ radix.disk.size
    rw [sized]

theorem Underway.unmap {failpoint : String → Bool} (underway : Underway start epoch ledger world)
    (stored : Stored start epoch info ledger) (inside : segmentId < 2 ^ LOGICAL_SEGMENT_BITS)
    (mapped : mappingOf (nodesOf world epoch) segmentId = some base) :
    Outcome (onPrimary (stageUnmap segmentId epoch (epoch + 1))) world
      (fun found after => found = base ∧ Underway start epoch ledger after ∧
        Framed epoch (fun _ => False) world after ∧
        ∀ other < 2 ^ LOGICAL_SEGMENT_BITS,
          mappingOf (nodesOf after epoch) other =
            if other = segmentId then none else mappingOf (nodesOf world epoch) other)
      (Refused failpoint start epoch info ledger) := by
  have unmapped := Outcome.and
    (@Staged.unmap _ _ _ _ _ segmentId underway.staged stored.shape)
    (underway.staged.unmap_trail underway.frontier segmentId)
  refine Outcome.mono (onPrimary_outcome unmapped) ?_ ?_
  · rintro found _ ⟨radix, ⟨⟨named, held, staged, finds⟩, trail, front, sized, fewer⟩, rfl⟩
    obtain ⟨underway', framed⟩ := underway.edited stored trail staged front (sized rfl) fewer
    refine ⟨Option.some.inj (held.symm.trans mapped), underway', framed, fun other inside' => ?_⟩
    rw [mappingOf, mappingOf]
    refine (finds (digitsOf other) (length_digitsOf other)).trans ?_
    by_cases same : other = segmentId
    · rw [if_pos (congrArg digitsOf same), if_pos same]
    · rw [if_neg fun equal => same (digitsOf_injective inside' named equal), if_neg same]
  · rintro error _ ⟨radix, ⟨_, trail, bound⟩, rfl⟩
    refine ⟨underway.trail.trans (Traced.of_trail trail fun effect allowed =>
      underway.nodeEffect stored allowed), .node underway (bound underway.bounded inside
        fun absent => ?_)⟩
    rw [mappingOf, nodesOf, absent] at mapped
    cases mapped

def SameNodes (epoch : Nat) (world after : World) : Prop :=
  (∀ path nodeBase, Visits (nodesOf after epoch) path nodeBase ↔
    Visits (nodesOf world epoch) path nodeBase) ∧
  ∀ segmentId, mappingOf (nodesOf after epoch) segmentId = mappingOf (nodesOf world epoch) segmentId

theorem Underway.aside (underway : Underway start epoch ledger world) (disk : Disk PhysicalPage)
    (effect : Effect PhysicalPage) (applied : disk = world.primary.apply effect)
    (longer : world.primary.size ≤ disk.size) (bounded : disk.size ≤ 2 ^ 64)
    (tags : UpTo disk (epoch + 1))
    (pages : ∀ page < world.primary.size, page < 2 ∨ ¬ OffNodes (nodesOf world epoch) page →
      disk.pread page = world.primary.pread page)
    (harmless : Harmless start epoch ledger (.primary effect)) :
    Underway start epoch ledger { world with
        primary := disk, log := world.log ++ [.primary effect],
        handle := { world.handle with frontier := some disk.size } } ∧
      SameNodes epoch world { world with
        primary := disk, log := world.log ++ [.primary effect],
        handle := { world.handle with frontier := some disk.size } } := by
  have nodes : ∀ path nodeBase, Visits (nodesOf world epoch) path nodeBase →
      disk.pread nodeBase = world.primary.pread nodeBase ∧
        disk.pread (nodeBase + 1) = world.primary.pread (nodeBase + 1) := by
    intro path nodeBase visited
    have low := underway.shape.below path nodeBase visited
    rw [RADIX_NODE_COPIES] at low
    exact ⟨pages _ (by omega) (Or.inr fun off => (off path nodeBase visited).1 rfl),
      pages _ (by omega) (Or.inr fun off => (off path nodeBase visited).2 rfl)⟩
  obtain ⟨staged, finds⟩ := underway.staged.aside disk [] underway.frontier longer nodes
  have visits : ∀ path nodeBase, Visits (pending ⟨disk, [], { world.handle with
      frontier := some disk.size }⟩ epoch) path nodeBase ↔
        Visits (nodesOf world epoch) path nodeBase := by
    refine (underway.shape.congr _ longer fun path nodeBase visited => ?_).2.1
    have same := nodes path nodeBase visited
    have read := readNode_congr same.1 same.2 epoch
    simp only [pending, nodesOf, nodeForPendingWrite, World.radix, read]
  refine ⟨⟨staged, rfl, bounded, tags, underway.arenaTags, ?_, ?_, ?_⟩, visits,
    fun segmentId => finds _ (length_digitsOf segmentId)⟩
  · exact fun path nodeBase visited => underway.low path nodeBase ((visits path nodeBase).mp visited)
  · intro page short
    have room := underway.room
    exact (pages page (by omega) (Or.inl short)).trans (underway.supers page short)
  · refine underway.trail.trans ⟨[.primary effect], rfl, ?_, rfl, ?_⟩
    · rw [applied]
      rfl
    · intro other member
      rw [List.mem_singleton.mp member]
      exact harmless

theorem Framed.spaced {touched : Nat → Prop} {bases : List Nat}
    (framed : Framed epoch touched world after) (underway : Underway start epoch ledger after)
    (spaced : Spaced (nodesOf world epoch) world.primary.size bases) :
    Spaced (nodesOf after epoch) after.primary.size bases where
  apart := spaced.apart
  inside := fun base member =>
    ⟨(spaced.inside base member).1, (spaced.inside base member).2.trans framed.longer⟩
  nodes := by
    intro base member path nodeBase visited
    exact spaced.nodes base member path nodeBase (framed.fewer path nodeBase visited)
  low := underway.low

theorem Spaced.off {view : View} {size : Nat} {bases : List Nat} (spaced : Spaced view size bases)
    (member : base ∈ bases) {page : Nat} (above : base ≤ page) (below : page < base + EXTENT_PAGES) :
    OffNodes view page := by
  intro path nodeBase visited
  have apart := spaced.nodes base member path nodeBase visited
  rw [RADIX_NODE_COPIES] at apart
  omega

theorem Framed.extent {touched : Nat → Prop} {bases : List Nat}
    (framed : Framed epoch touched world after)
    (spaced : Spaced (nodesOf world epoch) world.primary.size bases) (member : base ∈ bases)
    {page : Nat} (above : base ≤ page) (below : page < base + EXTENT_PAGES)
    (apart : ¬ touched page) : after.primary.pread page = world.primary.pread page :=
  framed.pages page (below.trans_le (spaced.inside base member).2) (spaced.off member above below)
    apart

theorem Framed.trans {touched : Nat → Prop} {last : World}
    (first : Framed epoch (fun _ => False) world after) (second : Framed epoch touched after last) :
    Framed epoch touched world last where
  longer := first.longer.trans second.longer
  fewer := fun path nodeBase visited => first.fewer path nodeBase (second.fewer path nodeBase visited)
  pages := by
    intro page low off apart
    refine (second.pages page (low.trans_le first.longer) ?_ apart).trans (first.pages page low off id)
    exact fun path nodeBase visited => off path nodeBase (first.fewer path nodeBase visited)
  arena := second.arena.trans first.arena

theorem header_page (base : Nat) (slot : Bool) :
    base ≤ base + slot.toNat ∧ base + slot.toNat < base + LIFECYCLE_COPIES := by
  have small := Bool.toNat_le slot
  rw [LIFECYCLE_COPIES]
  omega

/-- The state after one page of the primary has been written. -/
def World.wrote (world : World) (page : Nat) (block : PhysicalPage) : World :=
  { world with
    primary := world.primary.pwrite page block
    log := world.log ++ [.primary (.pwrite page block)] }

theorem emit_run (world : World) (page : Nat) (block : PhysicalPage) :
    onPrimary (emit (.pwrite page block)) world = .ok ⟨⟩ (world.wrote page block) := rfl

theorem Underway.wrote (underway : Underway start epoch ledger world) (page : Nat)
    (block : PhysicalPage) (high : 2 ≤ page) (inside : page < world.primary.size)
    (off : OffNodes (nodesOf world epoch) page)
    (tag : ∀ tag, tagOf block = some tag → tag ≤ epoch + 1)
    (harmless : Harmless start epoch ledger (.primary (.pwrite page block))) :
    Underway start epoch ledger (world.wrote page block) ∧
      SameNodes epoch world (world.wrote page block) ∧
      Framed epoch (fun other => other = page) world (world.wrote page block) := by
  have size : (world.primary.pwrite page block).size = world.primary.size := by
    rw [Disk.size_pwrite]
    omega
  have step := underway.aside (world.primary.pwrite page block)
    (.pwrite page block) rfl (Nat.le_of_eq size.symm) (size ▸ underway.bounded)
    (underway.tags.pwrite page tag) (fun other short kept => ?_) harmless
  · have same : ({ world with
        primary := world.primary.pwrite page block,
        log := world.log ++ [.primary (.pwrite page block)],
        handle := { world.handle with
          frontier := some (world.primary.pwrite page block).size } } : World) =
        world.wrote page block := by
      rw [World.wrote, size, ← underway.frontier]
    rw [same] at step
    exact ⟨step.1, step.2, Nat.le_of_eq size.symm, fun path nodeBase visited =>
      (step.2.1 path nodeBase).mp visited, fun other _ _ apart => if_neg apart, rfl⟩
  · refine if_neg ?_
    rintro rfl
    rcases kept with short' | nodes
    · omega
    · exact nodes off

/-! ### Headers -/

theorem withRadix_radix (world : World) : world.withRadix world.radix = world := by
  simp [World.withRadix, World.radix]

theorem young_lifecycle (epoch : Nat) (header : LifecycleHeader) :
    Young epoch (.lifecycle (epoch + 1) header) := by
  intro tag held
  cases held
  exact Nat.lt_succ_self epoch

theorem writeNewLifecycle_outcome (world : World) (headerBase newEpoch : Nat)
    (header : LifecycleHeader) (fits : HeaderFits header) :
    Outcome (onPrimary (writeNewLifecycle headerBase newEpoch header)) world
      (fun _ after => after = world.wrote headerBase (.lifecycle newEpoch header))
      (fun error after => after = world ∧
        ((2 ^ 64 ≤ newEpoch ∧ error = .valueError "epoch exceeds uint64") ∨
          (2 ^ 64 ≤ header.generation ∧ error = .valueError "generation exceeds uint64"))) := by
  unfold writeNewLifecycle
  cases packed : packLifecycle newEpoch header with
  | error error =>
      have ran : onPrimary (ofResult (.error error) >>= fun block =>
          emit (.pwrite headerBase block)) world = .error error world := by
        rw [onPrimary, bind_of_error (ofResult_error error world.radix)]
        exact congrArg _ (withRadix_radix world)
      exact Outcome.of_error ran ⟨rfl, packLifecycle_error packed fits⟩
  | ok block =>
      rw [packLifecycle_ok packed fits]
      exact Outcome.of_ok rfl rfl

theorem writeExistingLifecycle_outcome {headerBase : Nat} {slot : Bool} {tag : Nat}
    {old : LifecycleHeader} (selected : DualCopy.select epoch
      (copiesAt Block.asLifecycle world.primary headerBase) = some (slot, tag, old))
    (newEpoch : Nat) (header : LifecycleHeader) (fits : HeaderFits header) :
    Outcome (onPrimary (writeExistingLifecycle headerBase epoch newEpoch header)) world
      (fun _ after =>
        after = world.wrote (headerBase + (!slot).toNat) (.lifecycle newEpoch header))
      (fun error after => after = world ∧
        ((2 ^ 64 ≤ newEpoch ∧ error = .valueError "epoch exceeds uint64") ∨
          (2 ^ 64 ≤ header.generation ∧ error = .valueError "generation exceeds uint64"))) := by
  have read : readLifecycle world.radix.disk headerBase epoch = .ok (old, slot) :=
    readLifecycle_ok.mpr ⟨tag, selected⟩
  have ran : onPrimary (writeExistingLifecycle headerBase epoch newEpoch header) world =
      onPrimary (writeNewLifecycle (headerBase + (!slot).toNat) newEpoch header) world := by
    rw [onPrimary, onPrimary, writeExistingLifecycle, bind_of_ok (get_run _), read,
      bind_of_ok (ofResult_ok _ _)]
    rfl
  have written := writeNewLifecycle_outcome world (headerBase + (!slot).toNat) newEpoch header fits
  unfold Outcome at written ⊢
  rwa [ran]

theorem Stored.header (sound : Stored start epoch info ledger)
    {entry : Nat × LifecycleHeader} (member : entry ∈ ledger.entries) : ∃ slot tag,
      DualCopy.select epoch (copiesAt Block.asLifecycle start.primary entry.1) =
        some (slot, tag, entry.2) :=
  recordAt_eq_some.mp (sound.books.held member)

theorem Ledger.mem_bases {entry : Nat × LifecycleHeader} (member : entry ∈ ledger.entries) :
    entry.1 ∈ ledger.bases :=
  List.mem_map_of_mem member

theorem Spaced.few {view : View} {size : Nat} {bases : List Nat} (spaced : Spaced view size bases)
    (some_ : bases ≠ []) : bases.length < size := by
  obtain ⟨base, member⟩ := List.exists_mem_of_ne_nil bases some_
  have room := (spaced.inside base member).2
  rw [EXTENT_PAGES, LIFECYCLE_COPIES, SEGMENT_DATA_PAGES] at room
  have inside : bases ⊆ List.range (size - 1) := by
    intro other listed
    have below := (spaced.inside other listed).2
    rw [EXTENT_PAGES, LIFECYCLE_COPIES, SEGMENT_DATA_PAGES] at below
    rw [List.mem_range]
    omega
  have short := (List.subperm_of_subset spaced.distinct inside).length_le
  rw [List.length_range] at short
  omega

theorem Spaced.linkable {view : View} {size : Nat} {bases : List Nat}
    (spaced : Spaced view size bases) (bounded : size ≤ 2 ^ 64) {base : Nat}
    (member : base ∈ bases) : base < NULL_PAGE := by
  have inside := (spaced.inside base member).2
  rw [EXTENT_PAGES, LIFECYCLE_COPIES, SEGMENT_DATA_PAGES] at inside
  rw [NULL_PAGE]
  omega

end Operations

end DurableContext.Lifecycle
