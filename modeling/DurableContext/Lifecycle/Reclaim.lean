import DurableContext.Lifecycle.Commit

/-! One step of reclamation: extents of the first retired generation are taken off the map and put
on the free list, one after the other, and the descriptor keeps what is left. -/

namespace DurableContext.Lifecycle

open Program RadixMap

section Books

variable {headers : Nat → Option LifecycleHeader} {mapping : Nat → Option Nat} {ext : LifecycleMeta}
  {ledger : Ledger}

theorem Books.withArena (books : Books headers mapping ext ledger) (arena : ArenaMeta) :
    Books headers mapping { ext with arena } ledger :=
  ⟨books.owner, books.ownerCount, books.old, books.oldCount, books.noOld, books.queued, books.free,
    books.freeStatus, books.freeCount, books.mapped⟩

theorem Books.withPool (books : Books headers mapping ext ledger) (pool : List DescriptorRow) :
    Books headers mapping ext { ledger with pool } :=
  ⟨books.owner, books.ownerCount, books.old, books.oldCount, books.noOld, books.queued, books.free,
    books.freeStatus, books.freeCount, books.mapped⟩

theorem Books.dequeue {drained : Retired} {queue : List Retired}
    (books : Books headers mapping ext ledger) (first : ledger.queue = drained :: queue)
    (empty : drained.extents = []) (pool : List DescriptorRow) :
    Books headers mapping ext { ledger with queue, pool } where
  owner := books.owner
  ownerCount := books.ownerCount
  old := books.old
  oldCount := books.oldCount
  noOld := books.noOld
  queued := fun retired member => books.queued retired (first ▸ List.mem_cons_of_mem drained member)
  free := books.free
  freeStatus := books.freeStatus
  freeCount := books.freeCount
  mapped := by
    intro segmentId base named held
    obtain ⟨entry, member, rest⟩ := books.mapped segmentId base named held
    refine ⟨entry, ?_, rest⟩
    rw [Ledger.owned, first, List.flatMap_cons, empty, List.nil_append] at member
    exact member

end Books

/-- The ledger while the head of the queue still holds `left`. -/
def Ledger.reclaiming (ledger : Ledger) (head : DescriptorRow) (state : Reclaiming)
    (left : Extents) (waiting : List Retired) (free : Extents) : Ledger :=
  { ledger with queue := ⟨keptRow head state.cursor state.remaining, left⟩ :: waiting, free }

/-- The state of a reclamation that has still to deal with `left`. -/
structure Reclaims (start : World) (epoch : Nat) (info : Info) (ledger : Ledger)
    (head : DescriptorRow) (waiting : List Retired) (state : Reclaiming) (left free : Extents)
    (world : World) : Prop where
  underway : Underway start epoch ledger world
  untouched : world.arena = start.arena
  books : Books (headersAt world.primary (epoch + 1)) (mappingOf (nodesOf world epoch))
    { info.ext with freeHeadPage := state.freeHeadPage, freeCount := state.freeCount }
    (ledger.reclaiming head state left waiting free)
  spaced : Spaced (nodesOf world epoch) world.primary.size
    (ledger.reclaiming head state left waiting free).bases
  kept : ∀ entry ∈ left, entry ∈ ledger.entries ∧ ∀ slot : Bool,
    world.primary.pread (entry.1 + slot.toNat) = start.primary.pread (entry.1 + slot.toNat)
  bases : (ledger.reclaiming head state left waiting free).bases.Perm ledger.bases
  pages : ∀ entry ∈ ledger.owner ++ ledger.old, ∀ page, entry.1 ≤ page →
    page < entry.1 + EXTENT_PAGES → world.primary.pread page = start.primary.pread page

section Reclaim

variable {start world : World} {epoch : Nat} {info : Info} {ledger : Ledger} {head : DescriptorRow}
  {waiting : List Retired} {state : Reclaiming} {left free : Extents} {generation : Nat}
  {failpoint : String → Bool} {entry : Nat × LifecycleHeader}

theorem Ledger.bases_reclaiming (ledger : Ledger) (head : DescriptorRow) (state state' : Reclaiming)
    (entry : Nat × LifecycleHeader) (left free : Extents) (waiting : List Retired)
    (header : LifecycleHeader) :
    (ledger.reclaiming head state' left waiting ((entry.1, header) :: free)).bases.Perm
      (ledger.reclaiming head state (entry :: left) waiting free).bases := by
  have before := (@Ledger.entries_perm (ledger.reclaiming head state (entry :: left) waiting free)
    _ _ _ _ rfl rfl).map Prod.fst
  have after : (ledger.reclaiming head state' left waiting ((entry.1, header) :: free)).entries.Perm
      ((entry.1, header) :: (ledger.owner ++ ledger.old ++
        (left ++ waiting.flatMap Retired.extents) ++ free)) := List.perm_middle
  exact (after.map Prod.fst).trans before.symm

theorem Reclaims.alone
    (reclaims : Reclaims start epoch info ledger head waiting state (entry :: left) free world)
    {other : Nat × LifecycleHeader}
    (listed : other ∈ ledger.owner ++ ledger.old ∨ other ∈ left) : other.1 ≠ entry.1 := by
  intro same
  have perm := (@Ledger.entries_perm (ledger.reclaiming head state (entry :: left) waiting free)
    _ _ _ _ rfl rfl).map Prod.fst
  have apart := List.nodup_cons.mp (perm.nodup_iff.mp reclaims.spaced.distinct)
  refine apart.1 (List.mem_map.mpr ⟨other, List.mem_append_left _ ?_, same⟩)
  rcases listed with live | held
  · exact List.mem_append_left _ live
  · exact List.mem_append_right _ (List.mem_append_left _ held)

/-- An extent is reclaimed once its header says free and its segment is off the map, with nothing
else touched. -/
theorem Reclaims.freed {after : World} {slot : Bool}
    (reclaims : Reclaims start epoch info ledger head waiting state (entry :: left) free world)
    (framed : Framed epoch (fun page => page = entry.1 + slot.toNat) world after)
    (underway : Underway start epoch ledger after)
    (freed : headersAt after.primary (epoch + 1) entry.1 =
      some ⟨.free, generation, entry.2.segmentId, state.freeHeadPage⟩)
    (unmapped : ∀ other < 2 ^ LOGICAL_SEGMENT_BITS, mappingOf (nodesOf after epoch) other =
      if other = entry.2.segmentId then none else mappingOf (nodesOf world epoch) other) :
    Reclaims start epoch info ledger head waiting
      ⟨entry.2.nextHeaderPage, state.remaining - 1, some entry.1, state.freeCount + 1⟩ left
      ((entry.1, ⟨.free, generation, entry.2.segmentId, state.freeHeadPage⟩) :: free) after := by
  have whole : EXTENT_PAGES = 34 := rfl
  have copies : LIFECYCLE_COPIES = 2 := rfl
  have page := header_page entry.1 slot
  have member : entry.1 ∈ (ledger.reclaiming head state (entry :: left) waiting free).bases :=
    Ledger.mem_bases (Ledger.mem_of_queued List.mem_cons_self List.mem_cons_self)
  have keeps : ∀ other ∈ (ledger.reclaiming head state (entry :: left) waiting free).entries,
      other.1 ≠ entry.1 → ∀ page, other.1 ≤ page → page < other.1 + EXTENT_PAGES →
        after.primary.pread page = world.primary.pread page := by
    intro other listed different page' above below
    have clear := reclaims.spaced.of_ne (Ledger.mem_bases listed) member different
    rw [Clear] at clear
    exact framed.extent reclaims.spaced (Ledger.mem_bases listed) above below (by omega)
  refine ⟨underway, framed.arena.trans reclaims.untouched, ?_, ?_, ?_, ?_, ?_⟩
  · refine reclaims.books.reclaim reclaims.spaced.distinct rfl rfl freed ?_ unmapped
    intro other listed different
    refine recordAt_congr fun slot' => ?_
    have near := header_page other.1 slot'
    exact keeps other listed different _ near.1 (by omega)
  · exact (framed.spaced underway reclaims.spaced).subset
      (Ledger.bases_reclaiming ledger head state _ entry left free waiting _).subperm
  · intro other listed
    obtain ⟨entries, kept⟩ := reclaims.kept other (List.mem_cons_of_mem entry listed)
    refine ⟨entries, fun slot' => ?_⟩
    have near := header_page other.1 slot'
    rw [← kept slot']
    exact keeps other (Ledger.mem_of_queued List.mem_cons_self (List.mem_cons_of_mem entry listed))
      (reclaims.alone (Or.inr listed)) _ near.1 (by omega)
  · exact (Ledger.bases_reclaiming ledger head state _ entry left free waiting _).trans
      reclaims.bases
  · intro other listed page' above below
    rw [← reclaims.pages other listed page' above below]
    exact keeps other (Ledger.mem_entries.mpr (Or.inl (Ledger.mem_of_live listed)))
      (reclaims.alone (Or.inl listed)) page' above below

theorem reclaimOne_outcome (sound : Stored start epoch info ledger)
    (reclaims : Reclaims start epoch info ledger head waiting state (entry :: left) free world)
    (listed : head ∈ ledger.rows) (named : head.2.generation = some generation) :
    Outcome (reclaimOne failpoint epoch generation state) world
      (fun state' after => state' = ⟨entry.2.nextHeaderPage, state.remaining - 1, some entry.1,
          state.freeCount + 1⟩ ∧
        Reclaims start epoch info ledger head waiting state' left
          ((entry.1, ⟨.free, generation, entry.2.segmentId, state.freeHeadPage⟩) :: free) after)
      (Refused failpoint start epoch info ledger) := by
  have underway := reclaims.underway
  obtain ⟨number, known, holds, count⟩ := reclaims.books.queued _ List.mem_cons_self
  have generation_eq : number = generation := Option.some.inj (known.symm.trans named)
  subst generation_eq
  have cursor : state.cursor = some entry.1 := holds.chain.1
  obtain ⟨status, owner, inside, mapped⟩ := holds.entry entry List.mem_cons_self
  obtain ⟨entries, same⟩ := reclaims.kept entry List.mem_cons_self
  obtain ⟨slot, tag, selected⟩ := sound.header entries
  have copies : copiesAt Block.asLifecycle world.primary entry.1 =
      copiesAt Block.asLifecycle start.primary entry.1 := copiesAt_same same
  have member : entry.1 ∈ (ledger.reclaiming head state (entry :: left) waiting free).bases :=
    Ledger.mem_bases (Ledger.mem_of_queued List.mem_cons_self List.mem_cons_self)
  unfold reclaimOne
  simp only [cursor]
  refine Outcome.get_bind (Outcome.ofResult_bind (readLifecycle_ok.mpr
    ⟨tag, by rw [copies]; exact selected⟩) ?_)
  refine Outcome.if_neg (not_not.mpr status) ?_
  refine Outcome.if_neg (not_not.mpr owner) ?_
  refine Outcome.bind (underway.unmap sound inside mapped) ?_
  rintro _ unmapped ⟨rfl, underway₁, framed₁, mapping₁⟩
  refine Outcome.if_neg (not_not.mpr rfl) ?_
  refine Outcome.bind (underway₁.reaches "mapping_unlinked") ?_
  rintro _ middle rfl
  have spaced₁ := framed₁.spaced underway₁ reclaims.spaced
  have header_same : ∀ slot : Bool, middle.primary.pread (entry.1 + slot.toNat) =
      world.primary.pread (entry.1 + slot.toNat) := by
    intro slot
    have within := header_page entry.1 slot
    exact framed₁.extent reclaims.spaced member within.1
      (within.2.trans_le (Nat.add_le_add_left (Nat.le_add_right _ _) entry.1)) id
  have selected₁ : DualCopy.select epoch (copiesAt Block.asLifecycle middle.primary entry.1) =
      some (slot, tag, entry.2) := by rw [copiesAt_same header_same, copies, selected]
  have linkable : ∀ page ∈ state.freeHeadPage, page < NULL_PAGE := by
    intro page listed
    have linked : state.freeHeadPage = free.head?.map Prod.fst := reclaims.books.free.head_eq
    rw [Option.mem_def.mp listed] at linked
    obtain ⟨other, found, rfl⟩ := Option.map_eq_some_iff.mp linked.symm
    exact reclaims.spaced.linkable underway.bounded (Ledger.mem_bases (Ledger.mem_entries.mpr
      (Or.inr (List.mem_of_head? found))))
  refine Outcome.bind (underway₁.refuses (Outcome.mono (writeExistingLifecycle_outcome selected₁
    (epoch + 1) ⟨.free, number, entry.2.segmentId, state.freeHeadPage⟩ ⟨inside, linkable⟩)
      (fun _ _ held => held) fun _ _ held => ⟨held.1, ?_⟩)) ?_
  · rcases held.2 with ⟨large, rfl⟩ | ⟨large, rfl⟩
    · exact .header large
    · exact .generation listed named large
  rintro _ _ rfl
  have whole : EXTENT_PAGES = 34 := rfl
  have copies_ : LIFECYCLE_COPIES = 2 := rfl
  have within := header_page entry.1 (!slot)
  have room := spaced₁.inside entry.1 member
  obtain ⟨underway₂, same₂, framed₂⟩ := underway₁.wrote (entry.1 + (!slot).toNat)
    (.lifecycle (epoch + 1) ⟨.free, number, entry.2.segmentId, state.freeHeadPage⟩) (by omega)
    (by omega) (spaced₁.off member within.1 (by omega))
    (fun tag held => by cases held; exact le_rfl)
    (.primaryWrite (.header entries selected) (young_lifecycle epoch _))
  refine Outcome.bind (underway₂.reaches "free_header_written") ?_
  rintro _ _ rfl
  refine Outcome.of_ok (pure_run _ _) ⟨rfl, reclaims.freed (framed₁.trans framed₂) underway₂
    ?_ fun other named' => (same₂.2 other).trans (mapping₁ other named')⟩
  exact recordAt_of (@select_rewrite _ Block.asLifecycle middle.primary epoch entry.1 tag slot
    entry.2 (.lifecycle (epoch + 1) ⟨.free, number, entry.2.segmentId, state.freeHeadPage⟩)
      selected₁ _ rfl)

/-- As many extents as the descriptor counts can be reclaimed, one after the other. -/
theorem reclaimLoop_outcome (sound : Stored start epoch info ledger)
    (listed : head ∈ ledger.rows) (named : head.2.generation = some generation) (budget : Nat) (bounded : budget ≤ left.length)
    (reclaims : Reclaims start epoch info ledger head waiting state left free world) :
    Outcome (reclaimLoop failpoint epoch generation budget state) world
      (fun state' after => state'.remaining = state.remaining - budget ∧
        ∃ free', Reclaims start epoch info ledger head waiting state' (left.drop budget) free' after)
      (Refused failpoint start epoch info ledger) := by
  induction budget generalizing state left free world with
  | zero => exact Outcome.of_ok (pure_run _ _) ⟨rfl, free, reclaims⟩
  | succ budget ih =>
      cases left with
      | nil => exact absurd bounded (Nat.not_succ_le_zero budget)
      | cons entry rest =>
          rw [reclaimLoop]
          refine Outcome.bind (reclaimOne_outcome sound reclaims listed named) ?_
          rintro _ middle ⟨rfl, next⟩
          refine Outcome.mono (ih (Nat.le_of_succ_le_succ bounded) next) ?_
            fun _ _ refused => refused
          intro state' after ⟨count, free', reclaims'⟩
          refine ⟨?_, free', reclaims'⟩
          rw [count]
          show state.remaining - 1 - budget = state.remaining - (budget + 1)
          omega

end Reclaim

end DurableContext.Lifecycle
