import DurableContext.Lifecycle.Reclaim
import DurableContext.Lifecycle.Unseen

/-! The steps that give retired storage back, and what they leave as it was. -/

namespace DurableContext.Lifecycle

open Program RadixMap

def Ledger.waiting (ledger : Ledger) : Nat := (ledger.queue.flatMap Retired.extents).length

/-- Only the queue and the free lists may have changed, and no extent is lost. -/
structure Keeps (start : World) (epoch : Nat) (ledger : Ledger) (after : World) (epoch' : Nat)
    (ledger' : Ledger) : Prop where
  later : epoch ≤ epoch'
  owner : ledger'.owner = ledger.owner
  old : ledger'.old = ledger.old
  bases : ledger'.bases.Perm ledger.bases
  pages : ∀ entry ∈ ledger.owner ++ ledger.old, ∀ page, entry.1 ≤ page →
    page < entry.1 + EXTENT_PAGES → after.primary.pread page = start.primary.pread page

/-- The state after a step that has reclaimed at least so many extents, or all that waited. -/
def Maintained (start : World) (epoch : Nat) (ledger : Ledger) (reclaimed : Nat) (after : World) :
    Prop :=
  ∃ epoch' info' ledger', Stored after epoch' info' ledger' ∧ after.Current ∧
    Keeps start epoch ledger after epoch' ledger' ∧
    ledger'.waiting ≤ ledger.waiting - reclaimed

/-- A segment of a generation that is in use. -/
def Ledger.Live (ledger : Ledger) (segmentId : Nat) : Prop :=
  ∃ entry ∈ ledger.owner ++ ledger.old, entry.2.segmentId = segmentId

/-- What is in use reads as at the start, at the epoch that the superblock names now. -/
def Readable (start : World) (epoch : Nat) (ledger : Ledger) (after : World) : Prop :=
  ∃ epoch' info' slot, readSuper after.primary = .ok (epoch', info', slot) ∧
    ∀ pageId slots, ledger.Live (pageId / SEGMENT_BUCKET_PAGES) →
      readLogicalPage after.primary pageId epoch' slots =
        readLogicalPage start.primary pageId epoch slots

/-- What a step leaves that stops: nothing that a reader of the committed epoch could see, or the
state that it has committed, with the arena perhaps not cut down yet. -/
def Left (start : World) (epoch : Nat) (ledger : Ledger) (after : World) : Prop :=
  Traced start after (Harmless start epoch ledger) ∨
    ∃ arena, (arena = after.arena ∨ ∃ pages, arena = after.arena.ftruncate pages) ∧
      Maintained start epoch ledger 0 { after with arena }

/-- A step stops at a limit, never because the store contradicts itself. -/
def Halted (failpoint : String → Bool) (start : World) (epoch : Nat) (info : Info)
    (ledger : Ledger) (error : StoreError) (after : World) : Prop :=
  Limit failpoint start epoch info ledger error ∧ Left start epoch ledger after

/-- The state after the arena has been cut down. -/
def World.cut (world : World) (pages : Nat) : World :=
  { world with
    arena := world.arena.ftruncate pages
    log := world.log ++ [.arena (.ftruncate pages)] }

section Steps

variable {start world after : World} {epoch : Nat} {info : Info} {ledger : Ledger}
  {failpoint : String → Bool}

theorem Keeps.of_same (same : after.primary = start.primary) (epoch : Nat)
    (ledger : Ledger) : Keeps start epoch ledger after epoch ledger :=
  ⟨le_rfl, rfl, rfl, List.Perm.refl _, fun _ _ page _ _ => by rw [same]⟩

theorem Keeps.trans {middle after : World} {epoch' epoch'' : Nat} {ledger' ledger'' : Ledger}
    (first : Keeps start epoch ledger middle epoch' ledger')
    (second : Keeps middle epoch' ledger' after epoch'' ledger'') :
    Keeps start epoch ledger after epoch'' ledger'' where
  later := first.later.trans second.later
  owner := second.owner.trans first.owner
  old := second.old.trans first.old
  bases := second.bases.trans first.bases
  pages := by
    intro entry member page above below
    refine (second.pages entry ?_ page above below).trans (first.pages entry member page above below)
    rw [first.owner, first.old]
    exact member

theorem Maintained.trans {middle after : World} {epoch' reclaimed reclaimed' : Nat}
    {ledger' : Ledger} (keeps : Keeps start epoch ledger middle epoch' ledger')
    (count : ledger'.waiting ≤ ledger.waiting - reclaimed)
    (next : Maintained middle epoch' ledger' reclaimed' after) :
    Maintained start epoch ledger (reclaimed + reclaimed') after := by
  obtain ⟨epoch'', info'', ledger'', sound, current, keeps', count'⟩ := next
  exact ⟨epoch'', info'', ledger'', sound, current, keeps.trans keeps', by omega⟩

/-! ### What is in use -/

theorem Stored.readPage (sound : Stored start epoch info ledger) {entry : Nat × LifecycleHeader}
    (member : entry ∈ ledger.owner ++ ledger.old) {pageId : Nat}
    (segment : entry.2.segmentId = pageId / SEGMENT_BUCKET_PAGES) (slots : Nat) :
    readLogicalPage start.primary pageId epoch slots =
      .ok (readPageAt start.primary (entry.1 + LIFECYCLE_COPIES) pageId epoch slots) := by
  obtain ⟨_, _, named, mapped⟩ := sound.books.owned (Ledger.mem_of_live member)
  have read := sound.shape.readSegment named
  rw [segment] at read mapped
  rw [readLogicalPage, read, ok_bind rfl, ← mappingOf, mapped]

theorem Keeps.readPage {epoch' : Nat} {info' : Info} {ledger' : Ledger}
    (keeps : Keeps start epoch ledger after epoch' ledger') (sound : Stored start epoch info ledger)
    (sound' : Stored after epoch' info' ledger') {pageId : Nat}
    (live : ledger.Live (pageId / SEGMENT_BUCKET_PAGES)) (slots : Nat) :
    readLogicalPage after.primary pageId epoch' slots =
      readLogicalPage start.primary pageId epoch slots := by
  obtain ⟨entry, member, segment⟩ := live
  have member' : entry ∈ ledger'.owner ++ ledger'.old := by
    rw [keeps.owner, keeps.old]
    exact member
  rw [sound.readPage member segment, sound'.readPage member' segment, readPageAt, readPageAt]
  have inside : ∀ slot : Bool, localPage pageId + slot.toNat < SEGMENT_DATA_PAGES := by
    intro slot
    have small := Bool.toNat_le slot
    rw [localPage, DATA_PAGE_COPIES, SEGMENT_BUCKET_PAGES, SEGMENT_DATA_PAGES]
    omega
  have copies : copiesAt (Block.asPage slots) after.primary
        (entry.1 + LIFECYCLE_COPIES + localPage pageId) =
      copiesAt (Block.asPage slots) start.primary
        (entry.1 + LIFECYCLE_COPIES + localPage pageId) := by
    refine copiesAt_same fun slot => keeps.pages entry member _ (by omega) ?_
    have short := inside slot
    rw [EXTENT_PAGES]
    omega
  have epochs : DualCopy.select epoch' (copiesAt (Block.asPage slots) start.primary
        (entry.1 + LIFECYCLE_COPIES + localPage pageId)) =
      DualCopy.select epoch (copiesAt (Block.asPage slots) start.primary
        (entry.1 + LIFECYCLE_COPIES + localPage pageId)) :=
    DualCopy.select_epoch keeps.later fun slot tagged held _ =>
      sound.tags _ tagged.1 (tagged_page slots _ _ held)
  rw [copies, epochs]

theorem Keeps.readable {epoch' : Nat} {info' : Info} {ledger' : Ledger}
    (keeps : Keeps start epoch ledger after epoch' ledger') (sound : Stored start epoch info ledger)
    (sound' : Stored after epoch' info' ledger') : Readable start epoch ledger after := by
  obtain ⟨slot, super⟩ := sound'.super
  exact ⟨epoch', info', slot, super, fun pageId slots live =>
    keeps.readPage sound sound' live slots⟩

theorem Maintained.readable {reclaimed : Nat}
    (maintained : Maintained start epoch ledger reclaimed after)
    (sound : Stored start epoch info ledger) : Readable start epoch ledger after := by
  obtain ⟨_, _, _, sound', _, keeps, _⟩ := maintained
  exact keeps.readable sound sound'

theorem Stored.readable (sound : Stored start epoch info ledger)
    (traced : Traced start after (Harmless start epoch ledger)) :
    Readable start epoch ledger after := by
  obtain ⟨slot, super⟩ := sound.super
  exact ⟨epoch, info, slot, (sound.same_super traced).trans super,
    fun pageId slots _ => sound.same_page traced pageId slots⟩

theorem Refused.halted {error : StoreError}
    (refused : Refused failpoint start epoch info ledger error after) :
    Halted failpoint start epoch info ledger error after :=
  ⟨refused.2, Or.inl refused.1⟩

theorem Readable.trans {middle : World} {epoch' : Nat} {info' : Info} {ledger' : Ledger}
    (keeps : Keeps start epoch ledger middle epoch' ledger')
    (sound : Stored start epoch info ledger) (sound' : Stored middle epoch' info' ledger')
    (readable : Readable middle epoch' ledger' after) : Readable start epoch ledger after := by
  obtain ⟨now, info'', slot, super, same⟩ := readable
  refine ⟨now, info'', slot, super, fun pageId slots live => ?_⟩
  refine (same pageId slots ?_).trans (keeps.readPage sound sound' live slots)
  rw [Ledger.Live, keeps.owner, keeps.old]
  exact live

theorem Readable.of_same {middle after : World} (readable : Readable start epoch ledger middle)
    (same : after.primary = middle.primary) : Readable start epoch ledger after := by
  rw [Readable, same]
  exact readable

theorem Left.readable (left : Left start epoch ledger after)
    (sound : Stored start epoch info ledger) : Readable start epoch ledger after := by
  rcases left with traced | ⟨arena, _, maintained⟩
  · exact sound.readable traced
  · exact (maintained.readable sound).of_same rfl

theorem Maintained.left {reclaimed : Nat} {arena : Disk PhysicalPage}
    (maintained : Maintained start epoch ledger reclaimed { after with arena })
    (cut : arena = after.arena ∨ ∃ pages, arena = after.arena.ftruncate pages) :
    Left start epoch ledger after := by
  obtain ⟨epoch', info', ledger', sound, current, keeps, count⟩ := maintained
  exact Or.inr ⟨arena, cut, epoch', info', ledger', sound, current, keeps,
    count.trans (Nat.sub_le _ _)⟩

theorem reach_halted (label : String) (left : Left start epoch ledger world) :
    Outcome (reach failpoint label : Op StoreError World Unit) world (fun _ after => after = world)
      (Halted failpoint start epoch info ledger) :=
  Outcome.mono (reach_outcome failpoint label world start epoch info ledger)
    (fun _ _ held => held) fun _ _ held => ⟨held.2, held.1 ▸ left⟩

theorem truncateArena_outcome (pages : Nat) (committed truncated synced : String)
    (left : Left start epoch ledger world) (left' : Left start epoch ledger (world.cut pages)) :
    Outcome (truncateArena failpoint pages committed truncated synced) world
      (fun _ after => after = world.cut pages) (Halted failpoint start epoch info ledger) := by
  unfold truncateArena
  refine Outcome.bind (reach_halted committed left) ?_
  rintro _ middle rfl
  have cut : emitArena (.ftruncate pages) middle = .ok ⟨⟩ (middle.cut pages) := rfl
  refine Outcome.ok_bind cut (Outcome.bind (reach_halted truncated left') ?_)
  rintro _ _ rfl
  exact reach_halted synced left'

theorem resetArena_outcome (arenaReset : Bool) (left : Left start epoch ledger world)
    (left' : arenaReset = true → Left start epoch ledger (world.cut 0)) :
    Outcome (resetArena failpoint arenaReset) world
      (fun _ after => after = if arenaReset then world.cut 0 else world)
      (Halted failpoint start epoch info ledger) := by
  unfold resetArena
  cases arenaReset with
  | true => exact truncateArena_outcome 0 _ _ _ left (left' rfl)
  | false => exact Outcome.of_ok (pure_run _ _) rfl

/-! ### Reclamation -/

def finalArena (state : Reclaiming) (settled : ArenaMeta) (arena : Disk PhysicalPage) :
    Disk PhysicalPage :=
  if state.remaining = 0 ∧ settled.queueCount = 0 then arena.ftruncate 0 else arena

/-- The ledger that the superblock of a reclamation commits. -/
structure Settles (info : Info) (ledger : Ledger) (head : DescriptorRow) (waiting : List Retired)
    (state : Reclaiming) (left free : Extents) (world : World) (epoch : Nat) (settled : ArenaMeta)
    (arena : Disk PhysicalPage) (ledger' : Ledger) : Prop where
  books : Books (headersAt world.primary (epoch + 1)) (mappingOf (nodesOf world epoch))
    { info.ext with
      freeHeadPage := state.freeHeadPage, freeCount := state.freeCount, arena := settled } ledger'
  owner : ledger'.owner = ledger.owner
  old : ledger'.old = ledger.old
  bases : ledger'.bases = (ledger.reclaiming head state left waiting free).bases
  queue : ledger'.queue.flatMap Retired.extents = left ++ waiting.flatMap Retired.extents
  waits : ∀ retired ∈ ledger'.queue, retired.extents ≠ []
  size : (finalArena state settled arena).size = settled.arenaPages
  tags : UpTo (finalArena state settled arena) (epoch + 1)
  rolls : Rolls (descriptorsAt (finalArena state settled arena) (epoch + 1)) settled ledger'.rows
    ledger'.pool

theorem Settled.settles {head : DescriptorRow} {waiting : List Retired} {state : Reclaiming}
    {left free : Extents} {settled : ArenaMeta} {after : World} {queue pool : List DescriptorRow}
    (sound : Stored start epoch info ledger)
    (behind : ∀ retired ∈ waiting, retired.extents ≠ [])
    (reclaims : Reclaims start epoch info ledger head waiting state left free world)
    (tags : UpTo after.arena (epoch + 1))
    (outcome : Settled info.ext.arena start.arena.size state head (waiting.map Retired.row)
      ledger.pool settled after.arena (epoch + 1) queue pool) :
    ∃ ledger', Settles info ledger head waiting state left free world epoch settled after.arena
      ledger' := by
  obtain ⟨_, _, _, count⟩ := reclaims.books.queued _ List.mem_cons_self
  have remaining : state.remaining = left.length := count
  have drains : state.remaining = 0 → left = [] := fun zero =>
    List.length_eq_zero_iff.mp (remaining.symm.trans zero)
  cases outcome with
  | kept more same sized rolls =>
      have stays : finalArena state settled after.arena = after.arena :=
        if_neg fun both => absurd both.1 (by omega)
      refine ⟨ledger.reclaiming head state left waiting free, reclaims.books.withArena settled, rfl,
        rfl, rfl, rfl, ?_, ?_, ?_, ?_⟩
      · intro retired member
        rcases List.mem_cons.mp member with rfl | later
        · rintro (empty : left = [])
          rw [empty, List.length_nil] at remaining
          omega
        · exact behind retired later
      · rw [stays, sized, same]
        exact sound.arenaSize
      · rw [stays]
        exact tags
      · rw [stays]
        exact rolls
  | freed drained others freed next same sized rolls =>
      have empty := drains drained
      have long : settled.queueCount ≠ 0 := by
        rw [rolls.queued.count]
        exact fun none_ => others (List.length_eq_zero_iff.mp none_)
      have stays : finalArena state settled after.arena = after.arena :=
        if_neg fun both => long both.2
      refine ⟨{ ledger.reclaiming head state left waiting free with
        queue := waiting, pool := (head.1, freed) :: ledger.pool },
        (reclaims.books.dequeue rfl empty _).withArena settled, rfl, rfl, ?_, ?_, behind, ?_, ?_, ?_⟩
      · subst empty
        rfl
      · rw [empty]
        rfl
      · rw [stays, sized, same]
        exact sound.arenaSize
      · rw [stays]
        exact tags
      · rw [stays]
        exact rolls
  | reset drained alone next empty_ rolls =>
      have empty := drains drained
      have nobody : waiting = [] := List.map_eq_nil_iff.mp alone
      have cut : finalArena state settled after.arena = after.arena.ftruncate 0 :=
        if_pos ⟨drained, (rolls fun _ => none).queued.count⟩
      refine ⟨{ ledger.reclaiming head state left waiting free with queue := waiting, pool := [] },
        (reclaims.books.dequeue rfl empty _).withArena settled, rfl, rfl, ?_, ?_, behind, ?_, ?_, ?_⟩
      · subst empty
        rfl
      · rw [empty]
        rfl
      · rw [cut, empty_]
        rfl
      · rw [cut]
        exact tags.ftruncate 0
      · subst nobody
        exact rolls _

theorem Stored.next_books (sound : Stored start epoch info ledger) :
    Books (headersAt start.primary (epoch + 1)) (mappingOf (committed start.primary epoch)) info.ext
      ledger :=
  sound.books.congr (fun entry _ => sound.tags.recordAt_next tagged_lifecycle entry.1)
    fun _ _ => rfl

theorem Stored.reclaims (sound : Stored start epoch info ledger) {retired : Retired}
    {waiting : List Retired} {cursor : Nat} (listed : ledger.queue = retired :: waiting)
    (known : retired.row.2.cursorHeaderPage = some cursor) :
    Reclaims start epoch info ledger retired.row waiting
      ⟨some cursor, retired.row.2.remainingSegments, info.ext.freeHeadPage, info.ext.freeCount⟩
      retired.extents ledger.free (start.opened info) := by
  have same : ledger.reclaiming retired.row ⟨some cursor, retired.row.2.remainingSegments,
      info.ext.freeHeadPage, info.ext.freeCount⟩ retired.extents waiting ledger.free = ledger := by
    have row : keptRow retired.row (some cursor) retired.row.2.remainingSegments = retired.row := by
      rw [keptRow, ← known]
    rw [Ledger.reclaiming, row, ← listed]
  refine ⟨sound.begin, rfl, ?_, ?_, ?_, ?_, fun _ _ _ _ _ => rfl⟩
  · rw [same]
    exact sound.next_books
  · rw [same]
    exact sound.spaced
  · intro entry member
    refine ⟨Ledger.mem_of_queued ?_ member, fun _ => rfl⟩
    rw [listed]
    exact List.mem_cons_self
  · rw [same]

/-- What is left to be reclaimed starts at a page that a descriptor can name. -/
theorem Reclaims.cursor {head : DescriptorRow} {waiting : List Retired} {state : Reclaiming}
    {left free : Extents}
    (reclaims : Reclaims start epoch info ledger head waiting state left free world)
    (more : 0 < state.remaining) : state.remaining < 2 ^ 64 ∧
      ∃ cursor, state.cursor = some cursor ∧ cursor < NULL_PAGE := by
  obtain ⟨_, _, holds, count⟩ := reclaims.books.queued _ List.mem_cons_self
  have remaining : state.remaining = left.length := count
  cases left with
  | nil => exact absurd more (by rw [remaining]; exact Nat.lt_irrefl 0)
  | cons entry rest =>
      have member := Ledger.mem_bases
        (@Ledger.mem_of_queued (ledger.reclaiming head state (entry :: rest) waiting free) entry _
          List.mem_cons_self List.mem_cons_self)
      have few := reclaims.spaced.few (List.ne_nil_of_mem member)
      have inside : (entry :: rest).length ≤
          (ledger.reclaiming head state (entry :: rest) waiting free).bases.length := by
        rw [Ledger.bases, Ledger.entries, Ledger.owned, List.length_map, Ledger.reclaiming]
        simp only [List.length_append, List.flatMap_cons]
        omega
      exact ⟨by rw [remaining]; exact (inside.trans_lt few).trans_le reclaims.underway.bounded,
        entry.1, holds.chain.1, reclaims.spaced.linkable reclaims.underway.bounded member⟩

theorem Stored.of_same {after : World} (sound : Stored world epoch info ledger)
    (primary : after.primary = world.primary) (arena : after.arena = world.arena) :
    Stored after epoch info ledger := by
  obtain ⟨disk, descriptors, _, _⟩ := world
  obtain ⟨disk', descriptors', _, _⟩ := after
  change disk' = disk at primary
  change descriptors' = descriptors at arena
  subst primary arena
  exact ⟨sound.super, sound.size, sound.bounded, sound.tags, sound.shape, sound.spaced, sound.books,
    sound.waits, sound.arenaSize, sound.arenaTags, sound.rolls⟩

theorem Settles.maintained {head : DescriptorRow} {waiting : List Retired} {state : Reclaiming}
    {left free : Extents} {settled : ArenaMeta} {ledger' : Ledger} {middle written final : World}
    (settles : Settles info ledger head waiting state left free middle epoch settled world.arena
      ledger') (sound : Stored start epoch info ledger)
    (reclaims : Reclaims start epoch info ledger head waiting state left free middle)
    (only : ArenaOnly middle world) (front : world.handle.frontier = some world.primary.size)
    (commits : Commits epoch { info with ext := { info.ext with
      freeHeadPage := state.freeHeadPage, freeCount := state.freeCount, arena := settled } } ledger'
      world written)
    (primary : final.primary = written.primary) (handle : final.handle = written.handle)
    (arena : final.arena = finalArena state settled world.arena)
    (count : left.length + (waiting.flatMap Retired.extents).length ≤ ledger.waiting - 1) :
    Maintained start epoch ledger 1 final := by
  obtain ⟨slot, wrote⟩ := commits.wrote
  have small := Bool.toNat_le slot
  have room := reclaims.underway.room
  rw [← only.1] at room
  have disk : final.primary = world.primary.pwrite slot.toNat (.superblock (epoch + 1)
      (Meta.withPages { info with ext := { info.ext with
        freeHeadPage := state.freeHeadPage, freeCount := state.freeCount, arena := settled } }
        world.primary.size)) := by
    rw [primary, wrote]
    rfl
  refine ⟨epoch + 1, _, ledger', commits.sound final primary settles.waits ?_ ?_ ?_, ?_,
    ⟨Nat.le_succ epoch, settles.owner, settles.old, ?_, ?_⟩, ?_⟩
  · rw [arena]
    exact settles.size
  · rw [arena]
    exact settles.tags
  · rw [arena]
    exact settles.rolls
  · intro frontier held
    rw [handle, wrote] at held
    rw [disk, Disk.size_pwrite, ← Option.some.inj (front.symm.trans held)]
    omega
  · rw [settles.bases]
    exact reclaims.bases
  · intro entry member page above below
    have high := (sound.spaced.inside entry.1 (Ledger.mem_bases
      (Ledger.mem_entries.mpr (Or.inl (Ledger.mem_of_live member))))).1
    rw [disk, ← reclaims.pages entry member page above below, ← only.1]
    exact if_neg (by omega)
  · rw [Ledger.waiting, settles.queue, List.length_append]
    exact count

/-- The end of a reclamation: its superblock, and the arena truncated where nothing is queued. -/
theorem Settles.committed {head : DescriptorRow} {waiting : List Retired} {state : Reclaiming}
    {left free : Extents} {settled : ArenaMeta} {ledger' : Ledger} {rest : List DescriptorRow}
    {middle : World}
    (settles : Settles info ledger head waiting state left free middle epoch settled world.arena
      ledger') (sound : Stored start epoch info ledger)
    (reclaims : Reclaims start epoch info ledger head waiting state left free middle)
    (done : HeadSettled start epoch info ledger state head rest middle settled world)
    (within : info.ext.arena.Within settled)
    (count : left.length + (waiting.flatMap Retired.extents).length ≤ ledger.waiting - 1)
    (trace : ReclaimTrace) :
    Outcome (do
        reach failpoint "dependencies_synced"
        writeSuper (epoch + 1) { info with ext := { info.ext with
          freeHeadPage := state.freeHeadPage
          freeCount := state.freeCount
          arena := settled } }
        reach failpoint "committed"
        resetArena failpoint (decide (state.remaining = 0 ∧ settled.queueCount = 0))
        pure trace) world
      (fun _ final => Maintained start epoch ledger 1 final)
      (Halted failpoint start epoch info ledger) := by
  have unseen : Left start epoch ledger world := Or.inl done.underway.trail
  refine Outcome.bind (reach_halted "dependencies_synced" unseen) ?_
  rintro _ world rfl
  have spaced : Spaced (nodesOf middle epoch) middle.primary.size ledger'.bases := by
    rw [settles.bases]
    exact reclaims.spaced
  have follows := settles.books.follows (settles.bases ▸ reclaims.bases) within
    done.underway.bounded
  refine Outcome.bind (Outcome.mono (writeSuper_commits sound reclaims.underway
    { info with ext := { info.ext with
      freeHeadPage := state.freeHeadPage, freeCount := state.freeCount, arena := settled } }
    done.only.1 ?_ settles.books spaced) (fun _ _ held => held)
      fun _ _ held => ⟨.super follows held.2, held.1 ▸ unseen⟩) ?_
  · rw [withFrontier, done.underway.frontier]
    rfl
  intro _ written commits
  have maintained : ∀ final : World, final.primary = written.primary →
      final.handle = written.handle → final.arena = finalArena state settled world.arena →
        Maintained start epoch ledger 1 final := fun final primary handle arena =>
    settles.maintained sound reclaims done.only done.underway.frontier commits primary handle arena
      count
  -- However the arena is left, the new superblock is there.
  have kept : written.arena = world.arena := by
    obtain ⟨slot, wrote⟩ := commits.wrote
    rw [wrote]
    rfl
  have seen : Left start epoch ledger written := by
    refine (maintained { written with arena := finalArena state settled world.arena } rfl rfl
      rfl).left ?_
    rw [kept, finalArena]
    split
    · exact Or.inr ⟨0, rfl⟩
    · exact Or.inl rfl
  refine Outcome.bind (reach_halted "committed" seen) ?_
  rintro _ written rfl
  refine Outcome.bind (resetArena_outcome _ seen fun both => ?_) ?_
  · have cut : (written.cut 0).arena = finalArena state settled world.arena := by
      rw [finalArena, if_pos (of_decide_eq_true both), ← kept]
      rfl
    exact Maintained.left (maintained (written.cut 0) rfl rfl cut) (Or.inl rfl)
  intro _ final reset
  refine Outcome.of_ok (pure_run _ _) (maintained final ?_ ?_ ?_)
  · rw [reset]
    split <;> rfl
  · rw [reset]
    split <;> rfl
  · rw [reset, finalArena, ← kept]
    by_cases both : state.remaining = 0 ∧ settled.queueCount = 0
    · rw [if_pos both, if_pos (decide_eq_true both)]
      rfl
    · rw [if_neg both, if_neg (by rw [decide_eq_true_iff]; exact both)]

theorem reclaimStep_zero (failpoint : String → Bool) (start : World) :
    reclaimStep failpoint 0 start =
      .error (.valueError "reclaim budget must be positive") start := rfl

theorem reclaimStep_outcome (sound : Stored start epoch info ledger) {budget : Nat}
    (some_ : budget ≠ 0) :
    Outcome (reclaimStep failpoint budget) start
      (fun _ after => Maintained start epoch ledger 1 after)
      (Halted failpoint start epoch info ledger) := by
  obtain ⟨slot, super⟩ := sound.super
  have even : committedArenaPages info.ext.arena = .ok info.ext.arena.arenaPages :=
    if_neg (not_not.mpr sound.rolls.even)
  have rolls := sound.rolls
  unfold reclaimStep
  refine Outcome.if_neg some_ (Outcome.ok_bind (openOperation_run super) ?_)
  refine Outcome.ofResult_bind even ?_
  cases listed : ledger.queue with
  | nil =>
      have empty : ledger.rows = [] := by rw [Ledger.rows, listed]; rfl
      rw [empty] at rolls
      refine Outcome.if_pos rolls.queued.count (Outcome.if_neg ?_ (Outcome.of_ok (pure_run _ _) ?_))
      · rw [rolls.queued.headPage, rolls.queued.headIncarnation, rolls.tailPage,
          rolls.tailIncarnation]
        simp
      · have none_ : ledger.waiting = 0 := by rw [Ledger.waiting, listed]; rfl
        refine ⟨epoch, info, ledger, sound.of_same rfl rfl, ?_, Keeps.of_same (by rfl) epoch ledger, ?_⟩
        · intro frontier front
          rw [← Option.some.inj front]
          exact sound.size.symm
        · rw [none_]
  | cons retired waiting =>
      have first : retired ∈ ledger.queue := listed ▸ List.mem_cons_self
      have rows : ledger.rows = retired.row :: waiting.map Retired.row := by
        rw [Ledger.rows, listed]
        rfl
      rw [rows] at rolls
      obtain ⟨generation, named, holds, count⟩ := sound.books.queued retired first
      obtain ⟨entry, rest, extents⟩ := List.exists_cons_of_ne_nil (sound.waits retired first)
      have known : retired.row.2.cursorHeaderPage = some entry.1 := by
        rw [holds.chain.head_eq, extents]
        rfl
      have holding : retired.row.2.remainingSegments ≠ 0 := by
        rw [count, extents]
        exact Nat.succ_ne_zero _
      obtain ⟨held, incarnation, status⟩ := rolls.queued.held List.mem_cons_self
      obtain ⟨slot', tag, selected, read⟩ := readDescriptor_ok held
      rw [incarnation, status] at read
      refine Outcome.if_neg (by rw [rolls.queued.count]; exact Nat.succ_ne_zero _) ?_
      have headPage : info.ext.arena.queueHeadPage = some retired.row.1.page :=
        rolls.queued.headPage
      have headIncarnation : info.ext.arena.queueHeadIncarnation = some retired.row.1.incarnation :=
        rolls.queued.headIncarnation
      simp only [headPage, headIncarnation]
      refine Outcome.get_bind (Outcome.ofResult_bind read ?_)
      simp only [named, known]
      refine Outcome.if_neg holding ?_
      have queued : retired.row ∈ ledger.rows := List.mem_map_of_mem first
      refine Outcome.bind (Outcome.mono (reclaimLoop_outcome sound queued named _ ?_
        (sound.reclaims listed known)) (fun _ _ held => held)
          fun _ _ refused => refused.halted) ?_
      · rw [count]
        exact Nat.min_le_right _ _
      intro state middle ⟨remaining, free, reclaims⟩
      refine Outcome.bind (Outcome.mono (settleHead_outcome ⟨sound, reclaims.underway,
        reclaims.untouched, rows, tag, selected⟩ named fun more => reclaims.cursor more)
          (fun _ _ held => held) fun _ _ refused => refused.halted) ?_
      intro settled after done
      obtain ⟨queue, pool, outcome⟩ := done.outcome
      obtain ⟨ledger', settles⟩ := outcome.settles sound
        (fun other later => sound.waits other (listed ▸ List.mem_cons_of_mem retired later)) reclaims
        done.underway.arenaTags
      refine settles.committed sound reclaims done outcome.within ?_ _
      rw [Ledger.waiting, listed, List.flatMap_cons, List.length_append, List.length_drop, count]
      have long : retired.extents.length ≠ 0 := by rw [extents]; exact Nat.succ_ne_zero _
      omega

/-! ### The tail of the arena -/

theorem checkRetained_ok {retained page : Nat} {label : String} {found : Option Nat}
    (held : found = some page) (below : page < retained) :
    checkRetained retained label found = .ok () := by
  rw [held]
  exact if_neg (Nat.not_le.mpr below)

theorem Stored.before_last (sound : Stored start epoch info ledger) {row : DescriptorRow}
    {rest : List DescriptorRow} (pool : ledger.pool = row :: rest)
    (last : row.1.page + RETIREMENT_DESCRIPTOR_COPIES = info.ext.arena.arenaPages)
    {other : DescriptorRow} (member : other ∈ ledger.rows ++ rest) :
    other.1.page + RETIREMENT_DESCRIPTOR_COPIES ≤ row.1.page := by
  have rolls := sound.rolls
  rw [pool] at rolls
  have perm : (ledger.rows ++ row :: rest).Perm (row :: (ledger.rows ++ rest)) := List.perm_middle
  have apart := List.nodup_cons.mp
    ((perm.map fun row : DescriptorRow => row.1.page).nodup_iff.mp rolls.distinct)
  have different : other.1.page ≠ row.1.page := fun same =>
    apart.1 (List.mem_map.mpr ⟨other, member, same⟩)
  have inside := rolls.page (perm.mem_iff.mpr (List.mem_cons_of_mem row member))
  have half := rolls.page (perm.mem_iff.mpr List.mem_cons_self)
  rw [RETIREMENT_DESCRIPTOR_COPIES] at inside half last ⊢
  omega

/-- Once the superblock names the arena without its last pair, the file may be cut there. -/
theorem Stored.released (sound : Stored start epoch info ledger) (current : start.Current)
    {row : DescriptorRow} {rest : List DescriptorRow} {written : World}
    (pool : ledger.pool = row :: rest)
    (last : row.1.page + RETIREMENT_DESCRIPTOR_COPIES = info.ext.arena.arenaPages)
    (commits : Commits epoch
      { info with ext := { info.ext with arena := info.ext.arena.released row } }
      { ledger with pool := rest } start written) :
    Maintained start epoch ledger 0 (written.cut row.1.page) := by
  have rolls := sound.rolls
  rw [pool] at rolls
  obtain ⟨slot', wrote⟩ := commits.wrote
  have small := Bool.toNat_le slot'
  have room : 4 ≤ start.primary.size := sound.begin.room
  have arena : (written.cut row.1.page).arena = start.arena.ftruncate row.1.page := by
    rw [wrote]
    rfl
  obtain ⟨block, disk⟩ : ∃ block, (written.cut row.1.page).primary =
      start.primary.pwrite slot'.toNat block := by
    rw [wrote]
    exact ⟨_, rfl⟩
  refine ⟨epoch + 1, _, _, commits.sound (written.cut row.1.page) rfl sound.waits ?_ ?_ ?_, ?_,
    ⟨Nat.le_succ epoch, rfl, rfl, List.Perm.refl _, ?_⟩, le_rfl⟩
  · rw [arena]
    rfl
  · rw [arena]
    exact (sound.arenaTags.mono (Nat.le_succ epoch)).ftruncate _
  · rw [arena]
    refine rolls.release last fun other member => sound.descriptor_kept fun slot => if_pos ?_
    have before := sound.before_last pool last member
    have low := Bool.toNat_le slot
    rw [RETIREMENT_DESCRIPTOR_COPIES] at before
    omega
  · intro frontier held
    have same : (written.cut row.1.page).handle = start.handle := by
      rw [wrote]
      rfl
    rw [same] at held
    rw [disk, Disk.size_pwrite, current frontier held]
    omega
  · intro entry member page above _
    have high := (sound.spaced.inside entry.1 (Ledger.mem_bases
      (Ledger.mem_entries.mpr (Or.inl (Ledger.mem_of_live member))))).1
    rw [disk]
    exact if_neg (by omega)

theorem releaseTail_outcome (sound : Stored start epoch info ledger) (current : start.Current)
    {head row : DescriptorRow} {more rest : List DescriptorRow} (rows : ledger.rows = head :: more)
    (pool : ledger.pool = row :: rest)
    (last : row.1.page + RETIREMENT_DESCRIPTOR_COPIES = info.ext.arena.arenaPages) :
    Outcome (releaseTail failpoint epoch info row.1.page row.1.incarnation) start
      (fun _ after => Maintained start epoch ledger 0 after)
      (Halted failpoint start epoch info ledger) := by
  have rolls := sound.rolls
  rw [pool] at rolls
  have below : ∀ other ∈ ledger.rows ++ rest, other.1.page < row.1.page := fun other member =>
    (Nat.lt_add_of_pos_right (Nat.succ_pos 1)).trans_le (sound.before_last pool last member)
  obtain ⟨held, incarnation, status⟩ := rolls.freed.held List.mem_cons_self
  obtain ⟨slot, tag, selected, read⟩ := readDescriptor_ok held
  rw [incarnation, status] at read
  obtain ⟨final, ends⟩ : ∃ final, ledger.rows.getLast? = some final :=
    Option.ne_none_iff_exists'.mp (by rw [rows]; simp)
  have headPage : info.ext.arena.queueHeadPage = some head.1.page := by
    rw [rolls.queued.headPage, rows]
    rfl
  have tailPage : info.ext.arena.queueTailPage = some final.1.page := by
    rw [rolls.tailPage, ends]
    rfl
  unfold releaseTail
  refine Outcome.get_bind (Outcome.ofResult_bind read (Outcome.if_neg ?_ ?_))
  · rintro ⟨next, leads, beyond⟩
    rw [rolls.freed.next] at leads
    obtain ⟨other, found, rfl⟩ := Option.map_eq_some_iff.mp leads
    have before := below other (List.mem_append_right _ (List.mem_of_head? found))
    omega
  refine Outcome.ofResult_bind (checkRetained_ok headPage (below head
    (List.mem_append_left rest (by rw [rows]; exact List.mem_cons_self)))) ?_
  refine Outcome.ofResult_bind (checkRetained_ok tailPage (below final
    (List.mem_append_left rest (List.mem_of_getLast? ends)))) ?_
  have unseen : Left start epoch ledger start := Or.inl (Traced.refl start _)
  have released := @Rolls.release _ (descriptorsAt start.arena epoch) _ _ _ _ rolls last
    fun _ _ => rfl
  have books := (sound.next_books.withPool rest).withArena (info.ext.arena.released row)
  have follows := books.follows (List.Perm.refl ledger.bases)
    (released.within (Nat.le.intro last) rfl) sound.bounded
  refine Outcome.bind (reach_halted "retirement_tail_release_staged" unseen) ?_
  rintro _ start rfl
  refine Outcome.bind (Outcome.mono (writeSuper_commits sound sound.begin _ rfl ?_
    books sound.spaced) (fun _ _ held => held)
      fun _ _ held => ⟨.super follows held.2, held.1 ▸ unseen⟩) ?_
  · cases front : start.handle.frontier with
    | none =>
        rw [withFrontier, front, Meta.withPages, sound.size]
    | some frontier =>
        rw [withFrontier, front, current frontier front]
        rfl
  intro _ written commits
  have maintained := sound.released current pool last commits
  have uncut : Maintained start epoch ledger 0
      { written with arena := written.arena.ftruncate row.1.page } := by
    obtain ⟨epoch', info', ledger', stored, current', keeps, count⟩ := maintained
    exact ⟨epoch', info', ledger', stored.of_same rfl rfl, current',
      ⟨keeps.later, keeps.owner, keeps.old, keeps.bases, keeps.pages⟩, count⟩
  have seen : Left start epoch ledger written := uncut.left (Or.inr ⟨row.1.page, rfl⟩)
  refine Outcome.bind (reach_halted "committed" seen) ?_
  rintro _ written rfl
  refine Outcome.bind (truncateArena_outcome row.1.page _ _ _ seen
    (maintained.left (Or.inl rfl))) ?_
  rintro _ _ rfl
  exact Outcome.of_ok (pure_run _ _) maintained

theorem Stored.unchanged (sound : Stored start epoch info ledger) (current : start.Current) :
    Maintained start epoch ledger 0 start :=
  ⟨epoch, info, ledger, sound, current, Keeps.of_same rfl epoch ledger, le_rfl⟩

theorem shrinkRetirementArenaTailStep_outcome (sound : Stored start epoch info ledger)
    (current : start.Current) :
    Outcome (shrinkRetirementArenaTailStep failpoint) start
      (fun _ after => Maintained start epoch ledger 0 after)
      (Halted failpoint start epoch info ledger) := by
  obtain ⟨slot, super⟩ := sound.super
  have even : committedArenaPages info.ext.arena = .ok info.ext.arena.arenaPages :=
    if_neg (not_not.mpr sound.rolls.even)
  have rolls := sound.rolls
  have same := sound.unchanged current
  unfold shrinkRetirementArenaTailStep
  refine Outcome.get_bind (Outcome.ofResult_bind super (Outcome.ofResult_bind even ?_))
  by_cases nothing : info.ext.arena.arenaPages = 0
  · have empty : ledger.pool = [] := by
      refine List.eq_nil_iff_forall_not_mem.mpr fun row member => ?_
      have inside := (rolls.page (List.mem_append_right ledger.rows member)).2
      omega
    rw [empty] at rolls
    refine Outcome.if_pos nothing (Outcome.if_neg ?_ (Outcome.of_ok (pure_run _ _) same))
    rw [rolls.freed.count, rolls.freed.headPage, rolls.freed.headIncarnation]
    simp
  refine Outcome.if_neg nothing ?_
  cases rows : ledger.rows with
  | nil =>
      have inside := (rolls.pages 0).mpr ⟨rfl, Nat.pos_of_ne_zero nothing⟩
      rw [rows, rolls.idle rows] at inside
      cases inside
  | cons head more =>
      refine Outcome.if_neg (by rw [rolls.queued.count, rows]; exact Nat.succ_ne_zero _) ?_
      cases pool : ledger.pool with
      | nil =>
          rw [pool] at rolls
          refine Outcome.if_pos rolls.freed.count (Outcome.if_neg ?_
            (Outcome.of_ok (pure_run _ _) same))
          rw [rolls.freed.headPage, rolls.freed.headIncarnation]
          simp
      | cons row rest =>
          rw [pool] at rolls
          have headPage : info.ext.arena.freeHeadPage = some row.1.page := rolls.freed.headPage
          have headIncarnation : info.ext.arena.freeHeadIncarnation = some row.1.incarnation :=
            rolls.freed.headIncarnation
          refine Outcome.if_neg (by rw [rolls.freed.count]; exact Nat.succ_ne_zero _) ?_
          simp only [headPage, headIncarnation]
          by_cases last : row.1.page = info.ext.arena.arenaPages - RETIREMENT_DESCRIPTOR_COPIES
          · refine Outcome.if_neg (not_not.mpr last) ?_
            rw [← last]
            refine releaseTail_outcome sound current rows pool ?_
            have whole := rolls.even
            rw [RETIREMENT_DESCRIPTOR_COPIES] at last whole ⊢
            omega
          · exact Outcome.if_pos last (Outcome.of_ok (pure_run _ _) same)

end Steps

end DurableContext.Lifecycle
