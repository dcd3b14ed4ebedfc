import DurableContext.Lifecycle.Arena
import DurableContext.Storage.FixedPageCrash

/-! The two ends of an operation: it opens a handle over the committed files, and the superblock that
it writes last makes what it has staged the committed state. -/

namespace DurableContext.Lifecycle

open Program RadixMap

def World.opened (world : World) (info : Info) : World :=
  { world with handle := { Handle.reset with frontier := some info.ext.nextPhysicalPage } }

/-- The handle has no frontier of its own, or the end of the file. -/
def World.Current (world : World) : Prop :=
  ∀ frontier ∈ world.handle.frontier, frontier = world.primary.size

/-- The metadata as it is written, with the frontier. -/
def Meta.withPages (info : Info) (pages : Nat) : Info :=
  { info with ext := { info.ext with nextPhysicalPage := pages } }

section Ends

variable {start world : World} {epoch : Nat} {info : Info} {ledger : Ledger}

theorem openOperation_run {slot : Bool} (super : readSuper world.primary = .ok (epoch, info, slot)) :
    openOperation world = .ok (epoch, info) (world.opened info) := by
  unfold openOperation
  rw [bind_of_ok (modify_run _ _), bind_of_ok (get_run _), super, bind_of_ok (ofResult_ok _ _)]
  have changed : onPrimary (changeHandle fun handle => { handle with
      frontier := some info.ext.nextPhysicalPage })
        { world with handle := Handle.reset } =
      .ok ⟨⟩ (world.opened info) := by
    simp [onPrimary, changeHandle, modify_run, World.radix, World.withRadix, World.opened]
  exact (bind_of_ok changed).trans rfl

theorem Stored.begin (sound : Stored world epoch info ledger) :
    Underway world epoch ledger (world.opened info) where
  staged := by
    have staged := Staged.of_reset sound.shape []
    rw [sound.size] at staged ⊢
    exact staged
  frontier := congrArg some sound.size.symm
  bounded := sound.bounded
  tags := sound.tags.mono (Nat.le_succ epoch)
  arenaTags := sound.arenaTags.mono (Nat.le_succ epoch)
  low := by
    intro path nodeBase visited
    exact sound.spaced.low path nodeBase visited
  supers := fun _ _ => rfl
  trail := (Traced.refl world _).of_same rfl rfl rfl rfl rfl rfl

theorem Underway.readSuper_same (underway : Underway start epoch ledger world) :
    readSuper world.primary = readSuper start.primary := by
  have copies : copiesAt Block.asSuperblock world.primary 0 =
      copiesAt Block.asSuperblock start.primary 0 := by
    refine copiesAt_same fun slot => underway.supers _ ?_
    have small := Bool.toNat_le slot
    omega
  rw [readSuper, readSuper, copies]

theorem UpTo.clean {disk : Disk PhysicalPage} (tags : UpTo disk epoch) : Clean disk epoch :=
  fun _ nodeBase _ slot tagged held =>
    tags (nodeBase + slot.toNat) tagged.1 (tagged_node _ _ held)

/-- What is staged is what the next epoch reads, once the superblock of that epoch is there. -/
theorem Underway.next_nodes (underway : Underway start epoch ledger world)
    (sound : Stored start epoch info ledger) (slot : Bool) (block : PhysicalPage) :
    Shape (committed (world.primary.pwrite slot.toNat block) (epoch + 1)) world.primary.size ∧
      (∀ path nodeBase, Visits (committed (world.primary.pwrite slot.toNat block) (epoch + 1)) path
        nodeBase ↔ Visits (nodesOf world epoch) path nodeBase) ∧
      ∀ segmentId, mappingOf (committed (world.primary.pwrite slot.toNat block) (epoch + 1))
        segmentId = mappingOf (nodesOf world epoch) segmentId := by
  have same : ∀ path nodeBase, Visits (nodesOf world epoch) path nodeBase →
      committed (world.primary.pwrite slot.toNat block) (epoch + 1) nodeBase =
        nodesOf world epoch nodeBase := by
    intro path nodeBase visited
    refine Eq.trans ?_ (underway.staged.next_epoch sound.tags.clean visited)
    have low := underway.low path nodeBase visited
    have small := Bool.toNat_le slot
    have kept : ∀ page, 2 ≤ page →
        (world.primary.pwrite slot.toNat block).pread page = world.primary.pread page :=
      fun page high => if_neg (by omega)
    exact readNode_congr (kept _ low) (kept _ (by omega)) (epoch + 1)
  obtain ⟨shape, visits, finds⟩ := underway.shape.congr _ le_rfl same
  exact ⟨shape, visits, fun segmentId => finds _ (length_digitsOf segmentId)⟩

/-- What the superblock of the next epoch commits: the state is sound again with any arena that fits
the metadata. -/
structure Commits (epoch : Nat) (new : Info) (ledger : Ledger) (world after : World) : Prop where
  wrote : ∃ slot : Bool, after = world.wrote slot.toNat
    (.superblock (epoch + 1) (Meta.withPages new world.primary.size))
  sound : ∀ final : World, final.primary = after.primary →
    (∀ retired ∈ ledger.queue, retired.extents ≠ []) →
    final.arena.size = new.ext.arena.arenaPages → UpTo final.arena (epoch + 1) →
      Rolls (descriptorsAt final.arena (epoch + 1)) new.ext.arena ledger.rows ledger.pool →
        Stored final (epoch + 1) (Meta.withPages new world.primary.size) ledger

theorem packSuper_outcome (newEpoch : Nat) (new : Info) :
    (packSuper newEpoch new : Except StoreError PhysicalPage) = .ok (.superblock newEpoch new) ∨
      ∃ error, (packSuper newEpoch new : Except StoreError PhysicalPage) = .error error ∧
        SuperLimit newEpoch new error := by
  unfold packSuper
  by_cases long : MAX_PAYLOAD < superPayloadLength new
  · exact Or.inr ⟨_, if_pos long, .payload long⟩
  rw [if_neg long]
  by_cases late : 2 ^ 64 ≤ newEpoch
  · exact Or.inr ⟨_, if_pos late, .epoch late⟩
  · exact Or.inl (if_neg late)

theorem Books.follows {headers : Nat → Option LifecycleHeader} {mapping : Nat → Option Nat}
    {freeHeadPage : Option Nat} {freeCount : Nat} {arena : ArenaMeta} {ledger' : Ledger}
    (books : Books headers mapping { info.ext with freeHeadPage, freeCount, arena } ledger')
    (perm : ledger'.bases.Perm ledger.bases) (within : info.ext.arena.Within arena) {pages : Nat}
    (bounded : pages ≤ 2 ^ 64) : Follows info ledger (Meta.withPages
      { info with ext := { info.ext with freeHeadPage, freeCount, arena } } pages) where
  rest := rfl
  pages := bounded
  freeHead := by
    intro page leads
    have linked : freeHeadPage = ledger'.free.head?.map Prod.fst := books.free.head_eq
    obtain ⟨entry, first, rfl⟩ := Option.map_eq_some_iff.mp (linked.symm.trans leads)
    exact perm.mem_iff.mp (Ledger.mem_bases
      (Ledger.mem_entries.mpr (Or.inr (List.mem_of_head? first))))
  freeCount := by
    have count : freeCount = ledger'.free.length := books.freeCount
    have whole : ledger'.bases.length = ledger'.owned.length + ledger'.free.length := by
      rw [Ledger.bases, Ledger.entries, List.length_map, List.length_append]
    show freeCount ≤ ledger.bases.length
    rw [← perm.length_eq, whole, count]
    exact Nat.le_add_left _ _
  arena := within

theorem writeSuper_commits (sound : Stored start epoch info ledger)
    (underway : Underway start epoch ledger world) (new : Info) {ledger' : Ledger} {state : World}
    (same : state.primary = world.primary)
    (front : withFrontier state.handle new = Meta.withPages new state.primary.size)
    (books : Books (headersAt world.primary (epoch + 1)) (mappingOf (nodesOf world epoch)) new.ext
      ledger')
    (spaced : Spaced (nodesOf world epoch) world.primary.size ledger'.bases) :
    Outcome (writeSuper (epoch + 1) new) state
      (fun _ after => Commits epoch new ledger' state after)
      (fun error after => after = state ∧
        SuperLimit (epoch + 1) (Meta.withPages new state.primary.size) error) := by
  obtain ⟨slot, super⟩ := sound.super
  rw [← underway.readSuper_same, ← same] at super
  unfold writeSuper
  refine Outcome.get_bind (Outcome.ofResult_bind super ?_)
  simp only [front]
  refine (packSuper_outcome (epoch + 1) (Meta.withPages new state.primary.size)).elim
    (fun packed => ?_) fun refused => ?_
  rotate_left
  · obtain ⟨error, failed, limit⟩ := refused
    rw [failed]
    exact Outcome.of_error (bind_of_error (ofResult_error _ _)) ⟨rfl, limit⟩
  refine Outcome.ofResult_bind packed (Outcome.of_ok (emit_run state _ _) ⟨⟨!slot, rfl⟩, ?_⟩)
  intro final primary waits arenaSize arenaTags rolls
  replace primary : final.primary = world.primary.pwrite (!slot).toNat (.superblock (epoch + 1)
      (Meta.withPages new state.primary.size)) := by
    rw [primary, ← same]
    rfl
  obtain ⟨shape, visits, mapped⟩ := underway.next_nodes sound (!slot)
    (.superblock (epoch + 1) (Meta.withPages new state.primary.size))
  have room := underway.room
  have small := Bool.toNat_le (!slot)
  have size : final.primary.size = world.primary.size := by
    rw [primary]
    show max world.primary.size ((!slot).toNat + 1) = world.primary.size
    omega
  have spaced' : Spaced (committed final.primary (epoch + 1)) final.primary.size ledger'.bases := by
    rw [size, primary]
    exact ⟨spaced.apart, spaced.inside, fun base member path nodeBase visited =>
      spaced.nodes base member path nodeBase ((visits path nodeBase).mp visited),
      fun path nodeBase visited => spaced.low path nodeBase ((visits path nodeBase).mp visited)⟩
  refine ⟨⟨!slot, ?_⟩, size.trans (congrArg Disk.size same.symm), size ▸ underway.bounded, ?_, ?_,
    spaced', ?_, waits, arenaSize, arenaTags, rolls⟩
  · rw [same] at super
    rw [primary]
    exact FixedPage.readSuper_advance super _
  · rw [primary]
    refine underway.tags.pwrite _ fun tag held => ?_
    cases held
    exact le_rfl
  · rw [size, primary]
    exact shape
  · have headers : ∀ entry ∈ ledger'.entries, headersAt final.primary (epoch + 1) entry.1 =
        headersAt world.primary (epoch + 1) entry.1 := by
      intro entry member
      have high := (spaced.inside entry.1 (Ledger.mem_bases member)).1
      refine recordAt_congr fun slot' => ?_
      rw [primary]
      exact if_neg (by omega)
    have kept := books.congr headers
      (fun segmentId _ => by rw [primary]; exact mapped segmentId :
        ∀ segmentId < 2 ^ LOGICAL_SEGMENT_BITS, mappingOf (committed final.primary (epoch + 1))
          segmentId = mappingOf (nodesOf world epoch) segmentId)
    exact ⟨kept.owner, kept.ownerCount, kept.old, kept.oldCount, kept.noOld, kept.queued, kept.free,
      kept.freeStatus, kept.freeCount, kept.mapped⟩

end Ends

end DurableContext.Lifecycle
