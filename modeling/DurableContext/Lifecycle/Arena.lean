import DurableContext.Lifecycle.Underway
import DurableContext.Lifecycle.Rolls

/-! How the descriptors in the arena are written: the head of the queue is kept or freed. -/

namespace DurableContext.Lifecycle

open Program RadixMap

/-- The state after one page of the arena has been written. -/
def World.placed (world : World) (page : Nat) (block : PhysicalPage) : World :=
  { world with
    arena := world.arena.pwrite page block
    log := world.log ++ [.arena (.pwrite page block)] }

def ArenaOnly (world after : World) : Prop :=
  after.primary = world.primary ∧ after.handle = world.handle

section Writing

variable {start world : World} {epoch : Nat} {info : Info} {ledger : Ledger}
  {failpoint : String → Bool}

theorem writeDescriptor_outcome (world : World) (page newEpoch : Nat)
    (descriptor : TaggedDescriptor) (fits : DescriptorFits descriptor) :
    Outcome (writeDescriptor page newEpoch (payloadOf descriptor)) world
      (fun _ after => after = world.placed page (.tagged newEpoch descriptor))
      (fun error after => after = world ∧ DescriptorLimit newEpoch descriptor error) := by
  unfold writeDescriptor
  cases packed : packDescriptor newEpoch (payloadOf descriptor) with
  | error error =>
      exact Outcome.of_error (bind_of_error (ofResult_error error world))
        ⟨rfl, packDescriptor_error fits packed⟩
  | ok block =>
      rw [packDescriptor_ok fits packed]
      exact Outcome.of_ok rfl rfl

theorem young_tagged (epoch : Nat) (descriptor : TaggedDescriptor) :
    Young epoch (.tagged (epoch + 1) descriptor) := by
  intro tag held
  cases held
  exact Nat.lt_succ_self epoch

theorem Underway.beside (underway : Underway start epoch ledger world) (effect : Effect PhysicalPage)
    (tags : UpTo (world.arena.apply effect) (epoch + 1))
    (harmless : Harmless start epoch ledger (.arena effect)) :
    Underway start epoch ledger { world with
      arena := world.arena.apply effect, log := world.log ++ [.arena effect] } :=
  ⟨underway.staged, underway.frontier, underway.bounded, underway.tags, tags, underway.low,
    underway.supers, underway.trail.trans (.arena_single rfl rfl rfl harmless)⟩

theorem Underway.placed (underway : Underway start epoch ledger world) {page : Nat}
    (descriptor : TaggedDescriptor) (spare : SpareArena start epoch ledger page) :
    Underway start epoch ledger (world.placed page (.tagged (epoch + 1) descriptor)) := by
  refine underway.beside (.pwrite page _) (underway.arenaTags.pwrite page fun tag held => ?_)
    (.arenaWrite spare (young_tagged epoch descriptor))
  cases held
  exact le_rfl

theorem Stored.descriptor_kept (sound : Stored start epoch info ledger) {row : DescriptorRow}
    {arena : Disk PhysicalPage} (same : ∀ slot : Bool, arena.pread (row.1.page + slot.toNat) =
      start.arena.pread (row.1.page + slot.toNat)) :
    descriptorsAt arena (epoch + 1) row.1.page = descriptorsAt start.arena epoch row.1.page :=
  (recordAt_congr same).trans (sound.arenaTags.recordAt_next tagged_descriptor row.1.page)

theorem Stored.pair (sound : Stored start epoch info ledger) {row : DescriptorRow}
    (member : row ∈ ledger.rows ++ ledger.pool) :
    row.1.page % 2 = 0 ∧ row.1.page + 1 < start.arena.size := by
  have inside := sound.rolls.page member
  have even := sound.rolls.even
  rw [RETIREMENT_DESCRIPTOR_COPIES] at inside even
  rw [sound.arenaSize]
  omega

theorem Stored.linkable (sound : Stored start epoch info ledger) {row : DescriptorRow}
    (member : row ∈ ledger.rows ++ ledger.pool) : row.1.page ≠ NULL_PAGE := by
  have half := (sound.pair member).1
  rw [NULL_PAGE]
  omega

theorem pages_apart {page other : Nat} (half : page % 2 = 0) (half' : other % 2 = 0)
    (different : page ≠ other) (slot slot' : Bool) : page + slot.toNat ≠ other + slot'.toNat := by
  have small := Bool.toNat_le slot
  have small' := Bool.toNat_le slot'
  omega

/-! ### The head of the queue -/

/-- The head's descriptor with what is left of its generation. -/
def keptRow (head : DescriptorRow) (cursor : Option Nat) (remaining : Nat) : DescriptorRow :=
  (head.1, { head.2 with cursorHeaderPage := cursor, remainingSegments := remaining })

/-- What the head of the queue comes to, and the arena's metadata with it. -/
inductive Settled (arena : ArenaMeta) (size : Nat) (state : Reclaiming) (head : DescriptorRow)
    (rest pool : List DescriptorRow) (settled : ArenaMeta) (after : Disk PhysicalPage) (epoch : Nat) :
    List DescriptorRow → List DescriptorRow → Prop
  | kept (left : 0 < state.remaining) (same : settled = arena) (sized : after.size = size)
      (rolls : Rolls (descriptorsAt after epoch) settled
        (keptRow head state.cursor state.remaining :: rest) pool) :
      Settled arena size state head rest pool settled after epoch
        (keptRow head state.cursor state.remaining :: rest) pool
  | freed (drained : state.remaining = 0) (waiting : rest ≠ []) (freed : TaggedDescriptor)
      (next : settled.nextIncarnation = arena.nextIncarnation)
      (same : settled.arenaPages = arena.arenaPages) (sized : after.size = size)
      (rolls : Rolls (descriptorsAt after epoch) settled rest ((head.1, freed) :: pool)) :
      Settled arena size state head rest pool settled after epoch rest ((head.1, freed) :: pool)
  | reset (drained : state.remaining = 0) (alone : rest = [])
      (next : settled.nextIncarnation = arena.nextIncarnation) (empty : settled.arenaPages = 0)
      (rolls : ∀ descriptors, Rolls descriptors settled [] []) :
      Settled arena size state head rest pool settled after epoch [] []

/-- The state after the head of the queue has been settled. -/
structure HeadSettled (start : World) (epoch : Nat) (info : Info) (ledger : Ledger)
    (state : Reclaiming) (head : DescriptorRow) (rest : List DescriptorRow) (world : World)
    (settled : ArenaMeta) (after : World) : Prop where
  underway : Underway start epoch ledger after
  only : ArenaOnly world after
  outcome : ∃ queue pool, Settled info.ext.arena start.arena.size state head rest ledger.pool settled
    after.arena (epoch + 1) queue pool

theorem Rolls.within {descriptors : Nat → Option TaggedDescriptor} {old new : ArenaMeta}
    {queue pool : List DescriptorRow} (rolls : Rolls descriptors new queue pool)
    (pages : new.arenaPages ≤ old.arenaPages) (next : new.nextIncarnation = old.nextIncarnation) :
    old.Within new := by
  have listed : ∀ row ∈ queue ++ pool, row.1.page < old.arenaPages ∧
      row.1.incarnation < old.nextIncarnation := fun row member =>
    ⟨(rolls.page member).2.trans_le pages, next ▸ (rolls.taken row member).2⟩
  have few : (queue ++ pool).length ≤ old.arenaPages := by
    have inside : (queue ++ pool).map (fun row => row.1.page) ⊆ List.range old.arenaPages := by
      intro page member
      obtain ⟨row, held, rfl⟩ := List.mem_map.mp member
      exact List.mem_range.mpr (listed row held).1
    have short := (List.subperm_of_subset rolls.distinct inside).length_le
    rwa [List.length_map, List.length_range] at short
  rw [List.length_append] at few
  refine ⟨pages, next, fun page member => ?_, fun incarnation member => ?_, ?_⟩
  · rw [List.reduceOption_mem_iff, rolls.queued.headPage, rolls.tailPage, rolls.freed.headPage] at member
    simp only [List.mem_cons, List.not_mem_nil, or_false, @eq_comm _ (some page),
      Option.map_eq_some_iff] at member
    rcases member with ⟨row, first, rfl⟩ | ⟨row, last, rfl⟩ | ⟨row, first, rfl⟩
    · exact (listed row (List.mem_append_left pool (List.mem_of_head? first))).1
    · exact (listed row (List.mem_append_left pool (List.mem_of_getLast? last))).1
    · exact (listed row (List.mem_append_right queue (List.mem_of_head? first))).1
  · rw [List.reduceOption_mem_iff, rolls.queued.headIncarnation, rolls.tailIncarnation,
      rolls.freed.headIncarnation] at member
    simp only [List.mem_cons, List.not_mem_nil, or_false, @eq_comm _ (some incarnation),
      Option.map_eq_some_iff] at member
    rcases member with ⟨row, first, rfl⟩ | ⟨row, last, rfl⟩ | ⟨row, first, rfl⟩
    · exact (listed row (List.mem_append_left pool (List.mem_of_head? first))).2
    · exact (listed row (List.mem_append_left pool (List.mem_of_getLast? last))).2
    · exact (listed row (List.mem_append_right queue (List.mem_of_head? first))).2
  · rw [rolls.queued.count, rolls.freed.count]
    omega

theorem Settled.within {arena settled : ArenaMeta} {size : Nat} {state : Reclaiming}
    {head : DescriptorRow} {rest pool queue pool' : List DescriptorRow} {after : Disk PhysicalPage}
    (outcome : Settled arena size state head rest pool settled after epoch queue pool') :
    arena.Within settled := by
  cases outcome with
  | kept left same sized rolls => exact rolls.within (by rw [same]) (by rw [same])
  | freed drained waiting freed next same sized rolls => exact rolls.within same.le next
  | reset drained alone next empty rolls =>
      exact (rolls fun _ => none).within (empty ▸ Nat.zero_le _) next

/-- The head of the queue as a reclamation has found it, before anything is done to the arena. -/
structure AtHead (start : World) (epoch : Nat) (info : Info) (ledger : Ledger) (world : World)
    (head : DescriptorRow) (rest : List DescriptorRow) (slot : Bool) : Prop where
  sound : Stored start epoch info ledger
  underway : Underway start epoch ledger world
  untouched : world.arena = start.arena
  rows : ledger.rows = head :: rest
  selected : ∃ tag, DualCopy.select epoch (copiesAt Block.asTagged start.arena head.1.page) =
    some (slot, tag, head.2)

/-- The state after the head's other copy has been written. -/
def World.rewritten (world : World) (head : DescriptorRow) (slot : Bool) (epoch : Nat)
    (descriptor : TaggedDescriptor) : World :=
  world.placed (head.1.page + (!slot).toNat) (.tagged (epoch + 1) descriptor)

section Head

variable {state : Reclaiming} {head : DescriptorRow} {rest : List DescriptorRow}
  {generation : Nat} {slot : Bool} {descriptor : TaggedDescriptor}

theorem AtHead.rolls (here : AtHead start epoch info ledger world head rest slot) :
    Rolls (descriptorsAt start.arena epoch) info.ext.arena (head :: rest) ledger.pool := by
  have rolls := here.sound.rolls
  rwa [here.rows] at rolls

theorem AtHead.mem (here : AtHead start epoch info ledger world head rest slot) {row : DescriptorRow}
    (member : row ∈ head :: rest ++ ledger.pool) : row ∈ ledger.rows ++ ledger.pool := by
  rwa [here.rows]

theorem AtHead.linked (here : AtHead start epoch info ledger world head rest slot)
    {row : DescriptorRow} (member : row ∈ head :: rest ++ ledger.pool) :
    row.1.page ≠ NULL_PAGE ∧ 0 < row.1.incarnation :=
  ⟨here.sound.linkable (here.mem member), (here.rolls.taken row member).1⟩

theorem AtHead.written (here : AtHead start epoch info ledger world head rest slot) :
    descriptorsAt (world.rewritten head slot epoch descriptor).arena (epoch + 1) head.1.page =
      some descriptor := by
  obtain ⟨tag, selected⟩ := here.selected
  rw [← here.untouched] at selected
  exact recordAt_of (@select_rewrite _ Block.asTagged world.arena epoch head.1.page tag slot
    head.2 (.tagged (epoch + 1) descriptor) selected _ rfl)

theorem AtHead.kept (here : AtHead start epoch info ledger world head rest slot)
    {row : DescriptorRow} (listed : row ∈ rest ++ ledger.pool) :
    descriptorsAt (world.rewritten head slot epoch descriptor).arena (epoch + 1) row.1.page =
      descriptorsAt start.arena epoch row.1.page := by
  refine here.sound.descriptor_kept fun slot' => ?_
  rw [← here.untouched]
  have half := (here.rolls.page List.mem_cons_self).1
  have half' := (here.rolls.page (List.mem_cons_of_mem head listed)).1
  refine if_neg (pages_apart half' half (fun same => ?_) slot' (!slot))
  exact (List.nodup_cons.mp here.rolls.distinct).1 (List.mem_map.mpr ⟨row, listed, same⟩)

theorem AtHead.size (here : AtHead start epoch info ledger world head rest slot) :
    (world.rewritten head slot epoch descriptor).arena.size = start.arena.size := by
  have inside := (here.sound.pair (here.mem List.mem_cons_self)).2
  have small := Bool.toNat_le (!slot)
  rw [World.rewritten, World.placed, Disk.size_pwrite, here.untouched]
  omega

theorem AtHead.rewrites (here : AtHead start epoch info ledger world head rest slot)
    (fits : DescriptorFits descriptor) (rewrites : ledger.Rewrites descriptor) :
    Outcome (writeDescriptor (head.1.page + (!slot).toNat) (epoch + 1) (payloadOf descriptor)) world
      (fun _ after => after = world.rewritten head slot epoch descriptor ∧
        Underway start epoch ledger after)
      (Refused failpoint start epoch info ledger) := by
  obtain ⟨tag, selected⟩ := here.selected
  have placed := here.underway.placed descriptor (.other (here.mem List.mem_cons_self) selected)
  exact here.underway.refuses (Outcome.mono (writeDescriptor_outcome world _ _ descriptor fits)
    (fun _ _ held => ⟨held, held ▸ placed⟩) fun _ _ held => ⟨held.1, .descriptor rewrites held.2⟩)

theorem keepHead_outcome (here : AtHead start epoch info ledger world head rest slot)
    (named : head.2.generation = some generation) (more : 0 < state.remaining)
    (few : state.remaining < 2 ^ 64) {cursor : Nat} (at_ : state.cursor = some cursor)
    (short : cursor < NULL_PAGE) :
    Outcome (keepHead failpoint epoch generation head.1.page head.1.incarnation head.2 slot state)
      world (fun _ after => HeadSettled start epoch info ledger state head rest world
        info.ext.arena after) (Refused failpoint start epoch info ledger) := by
  have rolls := here.rolls
  obtain ⟨held, known, status⟩ := rolls.queued.held List.mem_cons_self
  have next : ∀ ref ∈ head.2.next, ∃ row ∈ rest, row.1 = ref := by
    intro ref leads
    rw [rolls.queued.next] at leads
    obtain ⟨row, first, same⟩ := Option.map_eq_some_iff.mp leads
    exact ⟨row, List.mem_of_head? first, same⟩
  have behind : ∀ {row}, row ∈ rest → row ∈ head :: rest ++ ledger.pool := fun member =>
    List.mem_cons_of_mem head (List.mem_append_left ledger.pool member)
  have same : (⟨head.1.incarnation, .queued, some generation, some cursor, state.remaining,
      head.2.next⟩ : TaggedDescriptor) = (keptRow head state.cursor state.remaining).2 := by
    rw [keptRow, ← known, ← status, ← named, at_]
  have fits : DescriptorFits ⟨head.1.incarnation, .queued, some generation, some cursor,
      state.remaining, head.2.next⟩ := by
    refine ⟨(rolls.taken head List.mem_cons_self).1, .queued short more few, fun ref leads => ?_⟩
    obtain ⟨row, member, rfl⟩ := next ref leads
    exact here.linked (behind member)
  have rewrites : ledger.Rewrites ⟨head.1.incarnation, .queued, some generation, some cursor,
      state.remaining, head.2.next⟩ := by
    refine ⟨⟨head, by rw [here.rows]; exact List.mem_cons_self, rfl, fun number held => ?_⟩,
      fun ref leads => ?_⟩
    · exact named.trans held
    · obtain ⟨row, member, same⟩ := next ref leads
      exact ⟨row, here.mem (behind member), same⟩
  unfold keepHead
  simp only [at_]
  refine Outcome.bind (here.rewrites fits rewrites) ?_
  rintro _ after ⟨rfl, underway⟩
  refine Outcome.bind (underway.reaches "retirement_descriptor_updated") ?_
  rintro _ _ rfl
  refine Outcome.mono (underway.reaches "retirement_arena_synced") ?_ fun _ _ refused => refused
  rintro _ _ rfl
  refine ⟨underway, ⟨rfl, rfl⟩, _, _, .kept more rfl here.size ?_⟩
  exact rolls.keep (here.written.trans (congrArg some same)) rfl status rfl fun row listed =>
    here.kept listed

theorem freeHead_outcome (here : AtHead start epoch info ledger world head rest slot)
    (drained : state.remaining = 0) (waiting : rest ≠ []) :
    Outcome (freeHead failpoint epoch head.1.page head.1.incarnation slot
      (info.ext.arena.dequeued head)) world
      (HeadSettled start epoch info ledger state head rest world)
      (Refused failpoint start epoch info ledger) := by
  have rolls := here.rolls
  obtain ⟨held, known, status⟩ := rolls.queued.held List.mem_cons_self
  have first : ∀ ref ∈ ledger.pool.head?.map Prod.fst, ∃ row ∈ ledger.pool, row.1 = ref := by
    intro ref leads
    obtain ⟨row, first, same⟩ := Option.map_eq_some_iff.mp leads
    exact ⟨row, List.mem_of_head? first, same⟩
  have headPage : (info.ext.arena.dequeued head).freeHeadPage =
      (ledger.pool.head?.map Prod.fst).map DescriptorRef.page :=
    rolls.freed.headPage.trans (Option.map_map _ _ _).symm
  have headIncarnation : (info.ext.arena.dequeued head).freeHeadIncarnation =
      (ledger.pool.head?.map Prod.fst).map DescriptorRef.incarnation :=
    rolls.freed.headIncarnation.trans (Option.map_map _ _ _).symm
  have fits : DescriptorFits ⟨head.1.incarnation, .free, none, none, 0,
      ledger.pool.head?.map Prod.fst⟩ := by
    refine ⟨(rolls.taken head List.mem_cons_self).1, .free, fun ref leads => ?_⟩
    obtain ⟨row, member, rfl⟩ := first ref leads
    exact here.linked (List.mem_append_right (head :: rest) member)
  have rewrites : ledger.Rewrites ⟨head.1.incarnation, .free, none, none, 0,
      ledger.pool.head?.map Prod.fst⟩ := by
    refine ⟨⟨head, by rw [here.rows]; exact List.mem_cons_self, rfl, fun _ held => by cases held⟩,
      fun ref leads => ?_⟩
    obtain ⟨row, member, same⟩ := first ref leads
    exact ⟨row, List.mem_append_right ledger.rows member, same⟩
  unfold freeHead
  simp only [headPage, headIncarnation]
  refine Outcome.bind (here.rewrites fits rewrites) ?_
  rintro _ after ⟨rfl, underway⟩
  refine Outcome.bind (underway.reaches "retirement_descriptor_freed") ?_
  rintro _ _ rfl
  refine Outcome.bind (underway.reaches "retirement_arena_synced") ?_
  rintro _ _ rfl
  exact Outcome.of_ok (pure_run _ _) ⟨underway, ⟨rfl, rfl⟩, _, _, .freed drained waiting _ rfl rfl
    here.size (rolls.free waiting here.written known.symm rfl rfl fun row listed => here.kept listed)⟩

theorem AtHead.reset (here : AtHead start epoch info ledger world head rest slot)
    (drained : state.remaining = 0) (alone : rest = []) :
    HeadSettled start epoch info ledger state head rest world { info.ext.arena.dequeued head with
      queueTailPage := none
      queueTailIncarnation := none
      freeHeadPage := none
      freeHeadIncarnation := none
      freeCount := 0
      arenaPages := 0 } world := by
  have next := here.rolls.queued.next
  have count := here.rolls.queued.count
  subst alone
  refine ⟨here.underway, ⟨rfl, rfl⟩, [], [], .reset drained rfl rfl rfl fun descriptors =>
    Rolls.reset descriptors rfl ?_ ?_ rfl rfl ?_ rfl rfl rfl⟩
  · show head.2.next.map DescriptorRef.page = none
    rw [next]
    rfl
  · show head.2.next.map DescriptorRef.incarnation = none
    rw [next]
    rfl
  · show info.ext.arena.queueCount - 1 = 0
    rw [count]
    rfl

theorem dequeueHead_outcome (here : AtHead start epoch info ledger world head rest slot)
    (drained : state.remaining = 0) :
    Outcome (dequeueHead failpoint epoch head.1.page head.1.incarnation head.2 slot info.ext.arena)
      world (HeadSettled start epoch info ledger state head rest world)
      (Refused failpoint start epoch info ledger) := by
  have count := here.rolls.queued.count
  rw [List.length_cons] at count
  unfold dequeueHead
  have settled : Outcome (if info.ext.arena.queueCount - 1 = 0 then do
        reach failpoint "retirement_arena_reset_staged"
        pure { info.ext.arena.dequeued head with
          queueTailPage := none
          queueTailIncarnation := none
          freeHeadPage := none
          freeHeadIncarnation := none
          freeCount := 0
          arenaPages := 0 }
      else freeHead failpoint epoch head.1.page head.1.incarnation slot
        (info.ext.arena.dequeued head)) world
      (HeadSettled start epoch info ledger state head rest world)
      (Refused failpoint start epoch info ledger) := by
    by_cases alone : rest = []
    · refine Outcome.if_pos (by rw [count, alone]; rfl) ?_
      refine Outcome.bind (here.underway.reaches "retirement_arena_reset_staged") ?_
      rintro _ _ rfl
      exact Outcome.of_ok (pure_run _ _) (here.reset drained alone)
    · have long : 0 < rest.length := List.length_pos_iff.mpr alone
      exact Outcome.if_neg (by omega) (freeHead_outcome here drained alone)
  refine Outcome.bind settled fun arena after done => ?_
  refine Outcome.bind (done.underway.reaches "retirement_dequeued") ?_
  rintro _ _ rfl
  exact Outcome.of_ok (pure_run _ _) done

theorem settleHead_outcome (here : AtHead start epoch info ledger world head rest slot)
    (named : head.2.generation = some generation)
    (left : 0 < state.remaining → state.remaining < 2 ^ 64 ∧
      ∃ cursor, state.cursor = some cursor ∧ cursor < NULL_PAGE) :
    Outcome (settleHead failpoint epoch generation head.1.page head.1.incarnation head.2 slot state
        info.ext.arena) world
      (HeadSettled start epoch info ledger state head rest world)
      (Refused failpoint start epoch info ledger) := by
  unfold settleHead
  by_cases more : 0 < state.remaining
  · obtain ⟨few, cursor, at_, short⟩ := left more
    refine Outcome.if_pos more (Outcome.bind (keepHead_outcome here named more few at_ short) ?_)
    exact fun _ after done => Outcome.of_ok (pure_run _ after) done
  · exact Outcome.if_neg more (dequeueHead_outcome here (Nat.eq_zero_of_not_pos more))

end Head

end Writing

end DurableContext.Lifecycle
