import DurableContext.Storage.RadixMap

/-! The primary that owns and reclaims its storage: extents of logical pages in chains of lifecycle
headers, a radix map from segments to extents, and a queue of retired generations whose descriptors
lie in a file of their own.

What a step has written stands in the second copies of the records until a superblock of the next
epoch is written. How a store comes to retire a generation is not part of it. -/

namespace DurableContext.Lifecycle

open Program RadixMap

def SEGMENT_BUCKET_PAGES : Nat := 16

def DATA_PAGE_COPIES : Nat := 2

def RETIREMENT_DESCRIPTOR_COPIES : Nat := 2

def INITIAL_PHYSICAL_PAGES : Nat := 4

def NULL_PAGE : Nat := 2 ^ 64 - 1

/-- What a superblock says of the descriptor arena: the retirement queue, the free list and the
next incarnation. -/
structure ArenaMeta where
  queueHeadPage : Option Nat
  queueHeadIncarnation : Option Nat
  queueTailPage : Option Nat
  queueTailIncarnation : Option Nat
  queueCount : Nat
  freeHeadPage : Option Nat
  freeHeadIncarnation : Option Nat
  freeCount : Nat
  arenaPages : Nat
  nextIncarnation : Nat
  deriving DecidableEq, Repr

/-- What a superblock says besides the fields of the fixed-page primary. -/
structure LifecycleMeta where
  nextPhysicalPage : Nat
  lastAlignmentPaddingPages : Nat
  ownerGeneration : Nat
  ownerHeadPage : Option Nat
  ownerCount : Nat
  oldOwnerGeneration : Option Nat
  oldOwnerHeadPage : Option Nat
  oldOwnerCount : Nat
  freeHeadPage : Option Nat
  freeCount : Nat
  arena : ArenaMeta
  deriving DecidableEq, Repr

/-- The fields of the earlier retirement scheme stay neutral. -/
instance : SuperFields LifecycleMeta where
  format := 38
  added := fun ext => [
    ("radix_levels", jsonNatLength RADIX_LEVELS),
    ("segment_bucket_pages", jsonNatLength SEGMENT_BUCKET_PAGES),
    ("root_node_base_page", jsonNatLength ROOT_NODE_BASE_PAGE),
    ("next_physical_page", jsonNatLength ext.nextPhysicalPage),
    ("owner_generation", jsonNatLength ext.ownerGeneration),
    ("owner_head_page", jsonOptionLength ext.ownerHeadPage),
    ("owner_count", jsonNatLength ext.ownerCount),
    ("retire_generation", jsonOptionLength none),
    ("retire_cursor_page", jsonOptionLength none),
    ("retire_remaining", jsonNatLength 0),
    ("free_head_page", jsonOptionLength ext.freeHeadPage),
    ("free_count", jsonNatLength ext.freeCount),
    ("generation_alignment_pages", jsonNatLength SEGMENT_BUCKET_PAGES),
    ("last_alignment_padding_pages", jsonNatLength ext.lastAlignmentPaddingPages),
    ("old_owner_generation", jsonOptionLength ext.oldOwnerGeneration),
    ("old_owner_head_page", jsonOptionLength ext.oldOwnerHeadPage),
    ("old_owner_count", jsonNatLength ext.oldOwnerCount),
    ("retirement_queue_head_page", jsonOptionLength ext.arena.queueHeadPage),
    ("retirement_queue_head_incarnation", jsonOptionLength ext.arena.queueHeadIncarnation),
    ("retirement_queue_tail_page", jsonOptionLength ext.arena.queueTailPage),
    ("retirement_queue_tail_incarnation", jsonOptionLength ext.arena.queueTailIncarnation),
    ("retirement_queue_count", jsonNatLength ext.arena.queueCount),
    ("retirement_descriptor_free_head_page", jsonOptionLength ext.arena.freeHeadPage),
    ("retirement_descriptor_free_head_incarnation",
      jsonOptionLength ext.arena.freeHeadIncarnation),
    ("retirement_descriptor_free_count", jsonNatLength ext.arena.freeCount),
    ("retirement_descriptor_arena_pages", jsonNatLength ext.arena.arenaPages),
    ("retirement_descriptor_next_incarnation", jsonNatLength ext.arena.nextIncarnation)]

abbrev Info := Meta LifecycleMeta

abbrev PhysicalPage := Block LifecycleMeta

inductive FileEffect where
  | primary (effect : Effect PhysicalPage)
  | arena (effect : Effect PhysicalPage)

/-- The two files, what has been done to them so far, and the handle that does it. -/
structure World where
  primary : Disk PhysicalPage
  arena : Disk PhysicalPage
  log : List FileEffect
  handle : Handle

/-- The primary file as the radix map works on it. -/
def World.radix (world : World) : RadixMap.World LifecycleMeta := ⟨world.primary, [], world.handle⟩

def World.withRadix (world : World) (radix : RadixMap.World LifecycleMeta) : World :=
  { world with
    primary := radix.disk
    log := world.log ++ radix.log.map .primary
    handle := radix.handle }

def onPrimary {α : Type} (program : Op StoreError (RadixMap.World LifecycleMeta) α) :
    Op StoreError World α := fun world =>
  match program world.radix with
  | .ok value radix => .ok value (world.withRadix radix)
  | .error error radix => .error error (world.withRadix radix)

def emitArena (effect : Effect PhysicalPage) : Op StoreError World Unit :=
  modify fun world =>
    { world with arena := world.arena.apply effect, log := world.log ++ [.arena effect] }

/-! ### Lifecycle headers -/

/-- `encode_lifecycle_header`, as the page reads back: a link to the last page reads as none. -/
def packLifecycle (epoch : Nat) (header : LifecycleHeader) : Except StoreError PhysicalPage :=
  if 2 ^ 64 ≤ epoch then .error (.valueError "epoch exceeds uint64")
  else if 2 ^ 64 ≤ header.generation then .error (.valueError "generation exceeds uint64")
  else if 2 ^ LOGICAL_SEGMENT_BITS ≤ header.segmentId then
    .error (.valueError "segment id exceeds fixed radix namespace")
  else if ∃ page ∈ header.nextHeaderPage, 2 ^ 64 ≤ page then
    .error (.valueError "lifecycle next pointer exceeds uint64")
  else .ok (.lifecycle epoch { header with
    nextHeaderPage := header.nextHeaderPage.filter fun page => decide (page ≠ NULL_PAGE) })

def readLifecycle (disk : Disk PhysicalPage) (headerBase committedEpoch : Nat) :
    Except StoreError (LifecycleHeader × Bool) :=
  match DualCopy.select committedEpoch (copiesAt Block.asLifecycle disk headerBase) with
  | some (slot, _, header) => .ok (header, slot)
  | none => .error (.runtimeError
      ("no valid lifecycle header at physical page " ++ toString headerBase))

def writeNewLifecycle (headerBase newEpoch : Nat) (header : LifecycleHeader) :
    Op StoreError (RadixMap.World LifecycleMeta) Unit := do
  let block ← ofResult (packLifecycle newEpoch header)
  emit (.pwrite headerBase block)

def writeExistingLifecycle (headerBase committedEpoch newEpoch : Nat) (header : LifecycleHeader) :
    Op StoreError (RadixMap.World LifecycleMeta) Unit := do
  let world ← get
  let (_, committedSlot) ← ofResult (readLifecycle world.disk headerBase committedEpoch)
  let block ← ofResult (packLifecycle newEpoch header)
  emit (.pwrite (headerBase + (!committedSlot).toNat) block)

/-! ### Retirement descriptors -/

def statusCode : DescriptorStatus → Nat
  | .queued => 1
  | .free => 2

def encodeReference (page incarnation : Option Nat) : Except StoreError (Option DescriptorRef) :=
  match page, incarnation with
  | none, some _ => .error (.valueError "null descriptor page requires null incarnation")
  | none, none => .ok none
  | some _, none => .error (.valueError "descriptor reference requires positive incarnation")
  | some page, some incarnation =>
      if incarnation = 0 then
        .error (.valueError "descriptor reference requires positive incarnation")
      else if 2 ^ 64 ≤ page then .error (.valueError "descriptor page exceeds uint64")
      else if 2 ^ 64 ≤ incarnation then
        .error (.valueError "descriptor incarnation exceeds uint64")
      else .ok (some ⟨page, incarnation⟩)

structure DescriptorPayload where
  incarnation : Nat
  status : DescriptorStatus
  generation : Option Nat
  cursorHeaderPage : Option Nat
  remainingSegments : Nat
  nextPage : Option Nat
  nextIncarnation : Option Nat

def checkOwnership (payload : DescriptorPayload) : Except StoreError Unit :=
  match payload.status with
  | .queued =>
      match payload.generation, payload.cursorHeaderPage with
      | none, _ => .error (.valueError "queued descriptor requires uint64 generation")
      | some generation, cursor =>
          if 2 ^ 64 ≤ generation then
            .error (.valueError "queued descriptor requires uint64 generation")
          else
            match cursor with
            | none => .error (.valueError "queued descriptor requires ownership cursor")
            | some cursor =>
                if payload.remainingSegments = 0 ∨ 2 ^ 64 ≤ payload.remainingSegments then
                  .error (.valueError "queued descriptor requires positive remaining count")
                else if 2 ^ 64 ≤ cursor then
                  .error (.valueError "retirement cursor exceeds uint64")
                else .ok ()
  | .free =>
      if payload.generation ≠ none ∨ payload.cursorHeaderPage ≠ none ∨
          payload.remainingSegments ≠ 0 then
        .error (.valueError "free descriptor cannot retain retirement ownership")
      else .ok ()

/-- `encode_descriptor`, as the page reads back: with a pointer to the last page, not at all. -/
def packDescriptor (epoch : Nat) (payload : DescriptorPayload) : Except StoreError PhysicalPage :=
  if 2 ^ 64 ≤ epoch then .error (.valueError "retirement epoch exceeds uint64")
  else if payload.incarnation = 0 ∨ 2 ^ 64 ≤ payload.incarnation then
    .error (.valueError "retirement incarnation must be positive uint64")
  else do
    checkOwnership payload
    let next ← encodeReference payload.nextPage payload.nextIncarnation
    if payload.cursorHeaderPage = some NULL_PAGE ∨ payload.nextPage = some NULL_PAGE then .ok .blank
    else .ok (.tagged epoch ⟨payload.incarnation, payload.status, payload.generation,
      payload.cursorHeaderPage, payload.remainingSegments, next⟩)

/-- `TaggedDescriptorIO.read`: the newest committed copy, and only then its identity. -/
def readDescriptor (arena : Disk PhysicalPage) (basePage committedEpoch expectedIncarnation : Nat)
    (expectedStatus : DescriptorStatus) : Except StoreError (TaggedDescriptor × Bool) :=
  match DualCopy.select committedEpoch (copiesAt Block.asTagged arena basePage) with
  | none => .error (.runtimeError
      ("no valid v0.35 descriptor at physical page " ++ toString basePage))
  | some (slot, _, descriptor) =>
      if descriptor.incarnation ≠ expectedIncarnation then
        .error (.runtimeError ("descriptor incarnation mismatch: expected " ++
          toString expectedIncarnation ++ ", observed " ++ toString descriptor.incarnation))
      else if descriptor.status ≠ expectedStatus then
        .error (.runtimeError ("descriptor status mismatch: expected " ++
          toString (statusCode expectedStatus) ++ ", observed " ++
          toString (statusCode descriptor.status)))
      else .ok (descriptor, slot)

/-- `TaggedDescriptorIO.write_new` and `write_existing`, to the page they have chosen. -/
def writeDescriptor (page newEpoch : Nat) (payload : DescriptorPayload) :
    Op StoreError World Unit := do
  let block ← ofResult (packDescriptor newEpoch payload)
  emitArena (.pwrite page block)

def committedArenaPages (arena : ArenaMeta) : Except StoreError Nat :=
  if arena.arenaPages % RETIREMENT_DESCRIPTOR_COPIES ≠ 0 then
    .error (.runtimeError "retirement descriptor arena length is malformed")
  else .ok arena.arenaPages

/-- A descriptor and the reference that leads to it. -/
abbrev DescriptorRow := DescriptorRef × TaggedDescriptor

/-! ### Pages -/

def localPage (pageId : Nat) : Nat := DATA_PAGE_COPIES * (pageId % SEGMENT_BUCKET_PAGES)

/-- The page as an extent at `segmentBase` holds it. -/
def readPageAt (disk : Disk PhysicalPage) (segmentBase pageId committedEpoch slots : Nat) : Slots :=
  match DualCopy.select committedEpoch
      (copiesAt (Block.asPage slots) disk (segmentBase + localPage pageId)) with
  | some (_, _, keys) => keys
  | none => List.replicate slots none

def readLogicalPage (disk : Disk PhysicalPage) : Reader := fun pageId committedEpoch slots => do
  let segmentBase ← readSegment disk (pageId / SEGMENT_BUCKET_PAGES) committedEpoch
  match segmentBase with
  | none => .ok (List.replicate slots none)
  | some segmentBase => .ok (readPageAt disk segmentBase pageId committedEpoch slots)

/-- The metadata with the frontier of the handle, if it has one. -/
def withFrontier (handle : Handle) (info : Info) : Info :=
  match handle.frontier with
  | some frontier => { info with ext := { info.ext with nextPhysicalPage := frontier } }
  | none => info

def writeSuper (newEpoch : Nat) (info : Info) : Op StoreError World Unit := do
  let world ← get
  let (_, _, activeSlot) ← ofResult (readSuper world.primary)
  let block ← ofResult (packSuper newEpoch (withFrontier world.handle info))
  onPrimary (emit (.pwrite (!activeSlot).toNat block))

/-! ### Transactions -/

/-- `_reset_operation_state`, and the first `_read_super` of an operation. -/
def openOperation : Op StoreError World (Nat × Info) := do
  modify fun world => { world with handle := Handle.reset }
  let world ← get
  let (epoch, info, _) ← ofResult (readSuper world.primary)
  onPrimary (changeHandle fun handle =>
    { handle with frontier := some info.ext.nextPhysicalPage })
  pure (epoch, info)

/-! ### Reclamation -/

/-- What is left of the head of the queue, and the free list it goes to. -/
structure Reclaiming where
  cursor : Option Nat
  remaining : Nat
  freeHeadPage : Option Nat
  freeCount : Nat

section Reclaim

variable (failpoint : String → Bool) (committedEpoch generation : Nat)

/-- One extent of the retired generation is unmapped and put on the free list. -/
def reclaimOne (state : Reclaiming) : Op StoreError World Reclaiming :=
  match state.cursor with
  | none => throw (.runtimeError "retirement owner chain ended before descriptor count")
  | some cursor => do
      let world ← get
      let (header, _) ← ofResult (readLifecycle world.primary cursor committedEpoch)
      if header.status ≠ .owned then
        throw (.runtimeError "retirement cursor does not reference OWNED storage")
      else if header.generation ≠ generation then
        throw (.runtimeError "queued retirement generation ownership drifted")
      else do
        let segmentBase ←
          onPrimary (stageUnmap header.segmentId committedEpoch (committedEpoch + 1))
        if segmentBase ≠ cursor + LIFECYCLE_COPIES then
          throw (.runtimeError "lifecycle header does not own mapped segment")
        else do
          reach failpoint "mapping_unlinked"
          onPrimary (writeExistingLifecycle cursor committedEpoch (committedEpoch + 1)
            ⟨.free, generation, header.segmentId, state.freeHeadPage⟩)
          reach failpoint "free_header_written"
          pure ⟨header.nextHeaderPage, state.remaining - 1, some cursor, state.freeCount + 1⟩

def reclaimLoop : Nat → Reclaiming → Op StoreError World Reclaiming
  | 0, state => pure state
  | left + 1, state => do
      let state ← reclaimOne failpoint committedEpoch generation state
      reclaimLoop left state

variable (headBase headIncarnation : Nat) (descriptor : TaggedDescriptor) (slot : Bool)

/-- The descriptor keeps what is left of its generation. -/
def keepHead (state : Reclaiming) : Op StoreError World Unit :=
  match state.cursor with
  | none => throw (.runtimeError "partial retirement lost ownership cursor")
  | some cursor => do
      writeDescriptor (headBase + (!slot).toNat) (committedEpoch + 1) ⟨headIncarnation, .queued,
        some generation, some cursor, state.remaining, descriptor.next.map DescriptorRef.page,
        descriptor.next.map DescriptorRef.incarnation⟩
      reach failpoint "retirement_descriptor_updated"
      reach failpoint "retirement_arena_synced"

/-- The descriptor leaves the queue and goes to the free list. -/
def freeHead (arena : ArenaMeta) : Op StoreError World ArenaMeta := do
  writeDescriptor (headBase + (!slot).toNat) (committedEpoch + 1) ⟨headIncarnation, .free, none,
    none, 0, arena.freeHeadPage, arena.freeHeadIncarnation⟩
  reach failpoint "retirement_descriptor_freed"
  reach failpoint "retirement_arena_synced"
  pure { arena with
    freeHeadPage := some headBase
    freeHeadIncarnation := some headIncarnation
    freeCount := arena.freeCount + 1 }

/-- The queue without its head; without anything left in it the arena starts again. -/
def dequeueHead (arena : ArenaMeta) : Op StoreError World ArenaMeta := do
  let popped := { arena with
    queueHeadPage := descriptor.next.map DescriptorRef.page
    queueHeadIncarnation := descriptor.next.map DescriptorRef.incarnation
    queueCount := arena.queueCount - 1 }
  let settled ←
    (if arena.queueCount - 1 = 0 then do
      reach failpoint "retirement_arena_reset_staged"
      pure { popped with
        queueTailPage := none
        queueTailIncarnation := none
        freeHeadPage := none
        freeHeadIncarnation := none
        freeCount := 0
        arenaPages := 0 }
    else freeHead failpoint committedEpoch headBase headIncarnation slot popped)
  reach failpoint "retirement_dequeued"
  pure settled

def settleHead (state : Reclaiming) (arena : ArenaMeta) : Op StoreError World ArenaMeta :=
  if 0 < state.remaining then do
    keepHead failpoint committedEpoch generation headBase headIncarnation descriptor slot state
    pure arena
  else dequeueHead failpoint committedEpoch headBase headIncarnation descriptor slot arena

end Reclaim

/-- The part of the trace of `reclaim_step` that does not count input and output. -/
structure ReclaimTrace where
  committedEpoch : Nat
  reclaimedSegments : Nat
  remainingSegmentsInHead : Nat
  retirementQueueCount : Nat
  retiredGeneration : Option Nat
  freeCount : Nat
  descriptorFreeCount : Nat
  arenaPagesBefore : Nat
  arenaPagesAfter : Nat
  arenaPagesReleased : Nat
  deriving DecidableEq, Repr

/-- The arena is cut down only after the superblock that gives it up. -/
def truncateArena (failpoint : String → Bool) (pages : Nat) (committed truncated synced : String) :
    Op StoreError World Unit := do
  reach failpoint committed
  emitArena (.ftruncate pages)
  reach failpoint truncated
  reach failpoint synced

/-- Only an arena that was reset is emptied. -/
def resetArena (failpoint : String → Bool) (arenaReset : Bool) : Op StoreError World Unit :=
  if arenaReset then
    truncateArena failpoint 0 "retirement_arena_reset_committed" "retirement_arena_truncated"
      "retirement_arena_reset_synced"
  else pure ()

def reclaimStep (failpoint : String → Bool) (budget : Nat) : Op StoreError World ReclaimTrace :=
  if budget = 0 then throw (.valueError "reclaim budget must be positive")
  else do
    let (epoch, info) ← openOperation
    let arena := info.ext.arena
    let pagesBefore ← ofResult (committedArenaPages arena)
    if arena.queueCount = 0 then
      if arena.queueHeadPage ≠ none ∨ arena.queueHeadIncarnation ≠ none ∨
          arena.queueTailPage ≠ none ∨ arena.queueTailIncarnation ≠ none then
        throw (.runtimeError "empty retirement queue retains head/tail identity")
      else pure ⟨epoch, 0, 0, 0, none, info.ext.freeCount, arena.freeCount, pagesBefore,
        pagesBefore, 0⟩
    else
      match arena.queueHeadPage, arena.queueHeadIncarnation with
      | some headBase, some headIncarnation => do
          let world ← get
          let (descriptor, slot) ←
            ofResult (readDescriptor world.arena headBase epoch headIncarnation .queued)
          match descriptor.generation, descriptor.cursorHeaderPage with
          | some generation, some cursor =>
              if descriptor.remainingSegments = 0 then
                throw (.runtimeError "retirement head descriptor is malformed")
              else do
                let reclaimed := min budget descriptor.remainingSegments
                let state ← reclaimLoop failpoint epoch generation reclaimed
                  ⟨some cursor, descriptor.remainingSegments, info.ext.freeHeadPage,
                    info.ext.freeCount⟩
                let settled ← settleHead failpoint epoch generation headBase headIncarnation
                  descriptor slot state arena
                reach failpoint "dependencies_synced"
                writeSuper (epoch + 1) { info with ext := { info.ext with
                  freeHeadPage := state.freeHeadPage
                  freeCount := state.freeCount
                  arena := settled } }
                reach failpoint "committed"
                resetArena failpoint (decide (state.remaining = 0 ∧ settled.queueCount = 0))
                pure ⟨epoch + 1, reclaimed, state.remaining, settled.queueCount, some generation,
                  state.freeCount, settled.freeCount, pagesBefore, settled.arenaPages,
                  if state.remaining = 0 ∧ settled.queueCount = 0 then pagesBefore else 0⟩
          | _, _ => throw (.runtimeError "retirement head descriptor is malformed")
      | _, _ => throw (.runtimeError "non-empty retirement queue has no head identity")

/-- The part of `PartialTailShrinkTrace` that does not count input and output. -/
structure ShrinkTrace where
  epochBefore : Nat
  epochAfter : Nat
  queueCount : Nat
  freeCountBefore : Nat
  freeCountAfter : Nat
  arenaPagesBefore : Nat
  arenaPagesAfter : Nat
  tailAligned : Bool
  tailPage : Option Nat
  tailIncarnation : Option Nat
  deriving DecidableEq, Repr

/-- Neither end of the queue lies in what is given up. -/
def checkRetained (retained : Nat) (label : String) : Option Nat → Except StoreError Unit
  | none => .error (.runtimeError ("live retirement queue lacks " ++ label ++ " identity"))
  | some page =>
      if retained ≤ page then
        .error (.runtimeError ("live retirement queue " ++ label ++ " would be truncated"))
      else .ok ()

/-- The release of the last descriptor of the arena, the head of the free list. -/
def releaseTail (failpoint : String → Bool) (epoch : Nat) (info : Info) (tailBase incarnation : Nat) :
    Op StoreError World ShrinkTrace := do
  let arena := info.ext.arena
  let world ← get
  let (free, _) ← ofResult (readDescriptor world.arena tailBase epoch incarnation .free)
  if ∃ next ∈ free.next, tailBase ≤ next.page then
    throw (.runtimeError "tail free descriptor points outside the retained arena")
  else do
    ofResult (checkRetained tailBase "head" arena.queueHeadPage)
    ofResult (checkRetained tailBase "tail" arena.queueTailPage)
    let released := { arena with
      freeHeadPage := free.next.map DescriptorRef.page
      freeHeadIncarnation := free.next.map DescriptorRef.incarnation
      freeCount := arena.freeCount - 1
      arenaPages := tailBase }
    reach failpoint "retirement_tail_release_staged"
    writeSuper (epoch + 1) { info with ext := { info.ext with arena := released } }
    reach failpoint "committed"
    truncateArena failpoint tailBase "retirement_tail_release_committed"
      "retirement_arena_truncated" "retirement_tail_release_synced"
    pure ⟨epoch, epoch + 1, arena.queueCount, arena.freeCount, arena.freeCount - 1,
      arena.arenaPages, tailBase, true, some tailBase, some incarnation⟩

/-- It does not reset the state of the handle. -/
def shrinkRetirementArenaTailStep (failpoint : String → Bool) : Op StoreError World ShrinkTrace := do
  let world ← get
  let (epoch, info, _) ← ofResult (readSuper world.primary)
  let arena := info.ext.arena
  let pagesBefore ← ofResult (committedArenaPages arena)
  if pagesBefore = 0 then
    if arena.freeCount ≠ 0 ∨ arena.freeHeadPage ≠ none ∨ arena.freeHeadIncarnation ≠ none then
      throw (.runtimeError "zero descriptor arena retains free-list authority")
    else pure ⟨epoch, epoch, arena.queueCount, 0, 0, 0, 0, false, none, none⟩
  else if arena.queueCount = 0 then
    throw (.runtimeError "non-empty descriptor arena has no live retirement queue")
  else if arena.freeCount = 0 then
    if arena.freeHeadPage ≠ none ∨ arena.freeHeadIncarnation ≠ none then
      throw (.runtimeError "empty descriptor free list retains a head identity")
    else pure ⟨epoch, epoch, arena.queueCount, 0, 0, pagesBefore, pagesBefore, false, none, none⟩
  else
    match arena.freeHeadPage, arena.freeHeadIncarnation with
    | some page, some incarnation =>
        let tailBase := pagesBefore - RETIREMENT_DESCRIPTOR_COPIES
        if page ≠ tailBase then
          pure ⟨epoch, epoch, arena.queueCount, arena.freeCount, arena.freeCount, pagesBefore,
            pagesBefore, false, some page, some incarnation⟩
        else releaseTail failpoint epoch info tailBase incarnation
    | _, _ => throw (.runtimeError "descriptor free count is nonzero without a head identity")

/-! ### Initialization -/

def initialArena : ArenaMeta := ⟨none, none, none, none, 0, none, none, 0, 0, 1⟩

def initialLifecycle : LifecycleMeta :=
  ⟨INITIAL_PHYSICAL_PAGES, 0, 0, none, 0, none, none, 0, none, 0, initialArena⟩

/-- The file that `initialize` leaves with this metadata. -/
def createdDisk (info : Info) : Disk PhysicalPage :=
  ((Disk.empty.ftruncate INITIAL_PHYSICAL_PAGES).pwrite ROOT_NODE_BASE_PAGE (.node 1 ⟨0, ∅⟩)).pwrite
    0 (.superblock 1 info)

/-- `initialize`, on paths where there are files already or not. -/
def initializeStore (existing existingArena : Bool) (initialCapacity : Nat) (config : Config) :
    Except StoreError World := do
  if existingArena then
    .error (.runtimeError "segregated retirement descriptor arena already exists")
  else if existing then .error (.runtimeError "segmented fixed-page primary already exists")
  else
    FixedPage.checkConfig initialCapacity config
    let info := FixedPage.initialMeta initialCapacity config initialLifecycle
    let block ← packSuper 1 info
    .ok ⟨((Disk.empty.ftruncate INITIAL_PHYSICAL_PAGES).pwrite ROOT_NODE_BASE_PAGE
      (.node 1 ⟨0, ∅⟩)).pwrite 0 block, .empty, [], Handle.reset⟩

end DurableContext.Lifecycle
