import DurableContext.Lib.Chain
import DurableContext.Lifecycle.Records

/-! Which generation holds which extents, and which descriptors: the ledger that the pages of the
two files keep, and what the store does to it. -/

namespace DurableContext.Lifecycle

open Program RadixMap

/-- Headers in the order they are linked, each at its page. -/
abbrev Extents := List (Nat × LifecycleHeader)

/-- A generation that waits to be reclaimed: its descriptor, and the extents it still holds. -/
structure Retired where
  row : DescriptorRow
  extents : Extents

structure Ledger where
  owner : Extents
  old : Extents
  queue : List Retired
  free : Extents
  pool : List DescriptorRow

namespace Ledger

def owned (ledger : Ledger) : Extents :=
  ledger.owner ++ ledger.old ++ ledger.queue.flatMap Retired.extents

def entries (ledger : Ledger) : Extents := ledger.owned ++ ledger.free

def bases (ledger : Ledger) : List Nat := ledger.entries.map Prod.fst

def rows (ledger : Ledger) : List DescriptorRow := ledger.queue.map Retired.row

end Ledger

def EXTENT_PAGES : Nat := LIFECYCLE_COPIES + SEGMENT_DATA_PAGES

def headersAt (disk : Disk PhysicalPage) (epoch base : Nat) : Option LifecycleHeader :=
  recordAt Block.asLifecycle disk epoch base

def descriptorsAt (disk : Disk PhysicalPage) (epoch base : Nat) : Option TaggedDescriptor :=
  recordAt Block.asTagged disk epoch base

def mappingOf (view : View) (segmentId : Nat) : Option Nat := find view (digitsOf segmentId)

/-! ### Extents -/

/-- The extents of a generation, linked from `head`, and mapped at the segments they name. -/
structure Holds (headers : Nat → Option LifecycleHeader) (mapping : Nat → Option Nat)
    (generation : Nat) (head : Option Nat) (extents : Extents) : Prop where
  chain : Chain headers LifecycleHeader.nextHeaderPage head extents
  entry : ∀ entry ∈ extents, entry.2.status = .owned ∧ entry.2.generation = generation ∧
    entry.2.segmentId < 2 ^ LOGICAL_SEGMENT_BITS ∧
    mapping entry.2.segmentId = some (entry.1 + LIFECYCLE_COPIES)

/-- The headers and the map say what the ledger says, and the metadata where its lists start. -/
structure Books (headers : Nat → Option LifecycleHeader) (mapping : Nat → Option Nat)
    (ext : LifecycleMeta) (ledger : Ledger) : Prop where
  owner : Holds headers mapping ext.ownerGeneration ext.ownerHeadPage ledger.owner
  ownerCount : ext.ownerCount = ledger.owner.length
  old : Holds headers mapping (ext.oldOwnerGeneration.getD 0) ext.oldOwnerHeadPage ledger.old
  oldCount : ext.oldOwnerCount = ledger.old.length
  noOld : ext.oldOwnerGeneration = none → ledger.old = []
  queued : ∀ retired ∈ ledger.queue, ∃ generation, retired.row.2.generation = some generation ∧
    Holds headers mapping generation retired.row.2.cursorHeaderPage retired.extents ∧
    retired.row.2.remainingSegments = retired.extents.length
  free : Chain headers LifecycleHeader.nextHeaderPage ext.freeHeadPage ledger.free
  freeStatus : ∀ entry ∈ ledger.free, entry.2.status = .free
  freeCount : ext.freeCount = ledger.free.length
  mapped : ∀ segmentId base, segmentId < 2 ^ LOGICAL_SEGMENT_BITS →
    mapping segmentId = some base → ∃ entry ∈ ledger.owned,
      base = entry.1 + LIFECYCLE_COPIES ∧ entry.2.segmentId = segmentId

/-- The extents at two pages share no page. -/
def Clear (base other : Nat) : Prop := base + EXTENT_PAGES ≤ other ∨ other + EXTENT_PAGES ≤ base

instance : Std.Symm Clear := ⟨fun _ _ clear => Or.symm clear⟩

/-- The extents lie apart from one another, from the nodes and from the superblocks. -/
structure Spaced (view : View) (size : Nat) (bases : List Nat) : Prop where
  apart : bases.Pairwise Clear
  inside : ∀ base ∈ bases, 2 ≤ base ∧ base + EXTENT_PAGES ≤ size
  nodes : ∀ base ∈ bases, ∀ path nodeBase, Visits view path nodeBase →
    nodeBase + RADIX_NODE_COPIES ≤ base ∨ base + EXTENT_PAGES ≤ nodeBase
  low : ∀ path nodeBase, Visits view path nodeBase → 2 ≤ nodeBase

/-! ### Descriptors -/

/-- The descriptor that a reference names, if its page still has that incarnation. -/
def resolve (descriptors : Nat → Option TaggedDescriptor) (ref : DescriptorRef) :
    Option TaggedDescriptor :=
  (descriptors ref.page).filter fun descriptor => decide (descriptor.incarnation = ref.incarnation)

/-- A list of descriptors, and what the metadata says of its head and its length. -/
structure Lists (descriptors : Nat → Option TaggedDescriptor) (status : DescriptorStatus)
    (headPage headIncarnation : Option Nat) (count : Nat) (rows : List DescriptorRow) : Prop where
  chain : Chain (resolve descriptors) TaggedDescriptor.next (rows.head?.map Prod.fst) rows
  headPage : headPage = rows.head?.map fun row => row.1.page
  headIncarnation : headIncarnation = rows.head?.map fun row => row.1.incarnation
  count : count = rows.length
  status : ∀ row ∈ rows, row.2.status = status

/-- The queue and the pool of free descriptors share out the pages of the arena. -/
structure Rolls (descriptors : Nat → Option TaggedDescriptor) (arena : ArenaMeta)
    (queue pool : List DescriptorRow) : Prop where
  queued : Lists descriptors .queued arena.queueHeadPage arena.queueHeadIncarnation
    arena.queueCount queue
  tailPage : arena.queueTailPage = queue.getLast?.map fun row => row.1.page
  tailIncarnation : arena.queueTailIncarnation = queue.getLast?.map fun row => row.1.incarnation
  freed : Lists descriptors .free arena.freeHeadPage arena.freeHeadIncarnation arena.freeCount pool
  pages : ∀ page, page ∈ (queue ++ pool).map (fun row => row.1.page) ↔
    page % RETIREMENT_DESCRIPTOR_COPIES = 0 ∧ page < arena.arenaPages
  distinct : ((queue ++ pool).map fun row => row.1.page).Nodup
  even : arena.arenaPages % RETIREMENT_DESCRIPTOR_COPIES = 0
  incarnations : ((queue ++ pool).map fun row => row.1.incarnation).Nodup
  taken : ∀ row ∈ queue ++ pool, 0 < row.1.incarnation ∧ row.1.incarnation < arena.nextIncarnation
  idle : queue = [] → pool = []

section Extents

variable {headers headers' : Nat → Option LifecycleHeader} {mapping mapping' : Nat → Option Nat}
  {ext : LifecycleMeta} {ledger : Ledger} {generation : Nat} {head : Option Nat}
  {extents : Extents} {view : View} {size : Nat} {bases : List Nat}

theorem Holds.congr (holds : Holds headers mapping generation head extents)
    (same : ∀ entry ∈ extents, headers' entry.1 = headers entry.1)
    (mapped : ∀ entry ∈ extents, mapping' entry.2.segmentId = mapping entry.2.segmentId) :
    Holds headers' mapping' generation head extents where
  chain := holds.chain.congr same
  entry := by
    intro entry member
    rw [mapped entry member]
    exact holds.entry entry member

theorem Holds.empty (generation : Nat) : Holds headers mapping generation none [] :=
  ⟨rfl, fun _ member => by cases member⟩

theorem Ledger.mem_owned {entry : Nat × LifecycleHeader} : entry ∈ ledger.owned ↔
    entry ∈ ledger.owner ∨ entry ∈ ledger.old ∨ ∃ retired ∈ ledger.queue, entry ∈ retired.extents := by
  rw [Ledger.owned, List.mem_append, List.mem_append, List.mem_flatMap, or_assoc]

theorem Ledger.mem_entries {entry : Nat × LifecycleHeader} :
    entry ∈ ledger.entries ↔ entry ∈ ledger.owned ∨ entry ∈ ledger.free := by
  rw [Ledger.entries, List.mem_append]

theorem Ledger.mem_of_live {entry : Nat × LifecycleHeader}
    (member : entry ∈ ledger.owner ++ ledger.old) : entry ∈ ledger.owned :=
  Ledger.mem_owned.mpr ((List.mem_append.mp member).imp_right Or.inl)

theorem Ledger.mem_of_queued {entry : Nat × LifecycleHeader} {retired : Retired}
    (queued : retired ∈ ledger.queue) (member : entry ∈ retired.extents) : entry ∈ ledger.entries :=
  Ledger.mem_entries.mpr (Or.inl (Ledger.mem_owned.mpr (Or.inr (Or.inr ⟨retired, queued, member⟩))))

theorem Books.owned (books : Books headers mapping ext ledger) {entry : Nat × LifecycleHeader}
    (member : entry ∈ ledger.owned) : headers entry.1 = some entry.2 ∧ entry.2.status = .owned ∧
      entry.2.segmentId < 2 ^ LOGICAL_SEGMENT_BITS ∧
      mapping entry.2.segmentId = some (entry.1 + LIFECYCLE_COPIES) := by
  have held : ∀ {generation head extents}, Holds headers mapping generation head extents →
      entry ∈ extents → headers entry.1 = some entry.2 ∧ entry.2.status = .owned ∧
        entry.2.segmentId < 2 ^ LOGICAL_SEGMENT_BITS ∧
        mapping entry.2.segmentId = some (entry.1 + LIFECYCLE_COPIES) := by
    intro generation head extents holds inside
    obtain ⟨status, _, named, mapped⟩ := holds.entry entry inside
    exact ⟨holds.chain.held inside, status, named, mapped⟩
  rcases Ledger.mem_owned.mp member with here | here | ⟨retired, queued, here⟩
  · exact held books.owner here
  · exact held books.old here
  · obtain ⟨generation, _, holds, _⟩ := books.queued retired queued
    exact held holds here

theorem Books.held (books : Books headers mapping ext ledger) {entry : Nat × LifecycleHeader}
    (member : entry ∈ ledger.entries) : headers entry.1 = some entry.2 :=
  (Ledger.mem_entries.mp member).elim (fun here => (books.owned here).1) books.free.held

theorem Books.congr (books : Books headers mapping ext ledger)
    (same : ∀ entry ∈ ledger.entries, headers' entry.1 = headers entry.1)
    (mapped : ∀ segmentId < 2 ^ LOGICAL_SEGMENT_BITS, mapping' segmentId = mapping segmentId) :
    Books headers' mapping' ext ledger := by
  have holds : ∀ {generation head extents}, (∀ entry ∈ extents, entry ∈ ledger.owned) →
      Holds headers mapping generation head extents →
        Holds headers' mapping' generation head extents := by
    intro generation head extents inside holds
    exact holds.congr
      (fun entry member => same entry (Ledger.mem_entries.mpr (Or.inl (inside entry member))))
      fun entry member => mapped _ (holds.entry entry member).2.2.1
  refine ⟨holds (fun _ member => Ledger.mem_owned.mpr (Or.inl member)) books.owner,
    books.ownerCount, holds (fun _ member => Ledger.mem_owned.mpr (Or.inr (Or.inl member)))
      books.old, books.oldCount, books.noOld, ?_, books.free.congr fun entry member =>
      same entry (Ledger.mem_entries.mpr (Or.inr member)), books.freeStatus, books.freeCount, ?_⟩
  · intro retired queued
    obtain ⟨generation, named, held, count⟩ := books.queued retired queued
    exact ⟨generation, named, holds (fun _ member =>
      Ledger.mem_owned.mpr (Or.inr (Or.inr ⟨retired, queued, member⟩))) held, count⟩
  · intro segmentId base named held
    rw [mapped segmentId named] at held
    exact books.mapped segmentId base named held

theorem Clear.ne {base other : Nat} (clear : Clear base other) : base ≠ other := by
  rw [Clear, EXTENT_PAGES, LIFECYCLE_COPIES, SEGMENT_DATA_PAGES] at clear
  omega

theorem Spaced.distinct (spaced : Spaced view size bases) : bases.Nodup :=
  spaced.apart.imp Clear.ne

theorem Spaced.of_ne (spaced : Spaced view size bases) {base other : Nat} (member : base ∈ bases)
    (member' : other ∈ bases) (different : base ≠ other) : Clear base other :=
  spaced.apart.forall member member' different

theorem Spaced.subset (spaced : Spaced view size bases) {fewer : List Nat}
    (inside : fewer.Subperm bases) : Spaced view size fewer where
  apart := by
    obtain ⟨middle, perm, sublist⟩ := inside
    exact (perm.pairwise_iff fun clear => Or.symm clear).mp (spaced.apart.sublist sublist)
  inside := fun base member => spaced.inside base (inside.subset member)
  nodes := fun base member => spaced.nodes base (inside.subset member)
  low := spaced.low

/-! ### What is done with extents -/

def Retired.reclaimed (retired : Retired) (next : Option Nat) (rest : Extents) : Retired :=
  ⟨(retired.row.1, { retired.row.2 with
    cursorHeaderPage := next, remainingSegments := retired.row.2.remainingSegments - 1 }), rest⟩

theorem Ledger.entries_perm {retired : Retired} {queue : List Retired}
    {entry : Nat × LifecycleHeader} {rest : Extents} (first : ledger.queue = retired :: queue)
    (extents : retired.extents = entry :: rest) : ledger.entries.Perm
      (entry :: (ledger.owner ++ ledger.old ++ (rest ++ queue.flatMap Retired.extents) ++
        ledger.free)) := by
  have shape : ledger.entries = (ledger.owner ++ ledger.old) ++
      entry :: ((rest ++ queue.flatMap Retired.extents) ++ ledger.free) := by
    simp [Ledger.entries, Ledger.owned, first, extents]
  rw [shape, List.append_assoc (ledger.owner ++ ledger.old)]
  exact List.perm_middle

theorem Books.reclaim {retired : Retired} {queue : List Retired} {cursor : Nat}
    {header : LifecycleHeader} {rest : Extents} (books : Books headers mapping ext ledger)
    (distinct : ledger.bases.Nodup) (first : ledger.queue = retired :: queue)
    (extents : retired.extents = (cursor, header) :: rest)
    (freed : headers' cursor = some ⟨.free, generation, header.segmentId, ext.freeHeadPage⟩)
    (others : ∀ entry ∈ ledger.entries, entry.1 ≠ cursor → headers' entry.1 = headers entry.1)
    (mapped : ∀ other < 2 ^ LOGICAL_SEGMENT_BITS, mapping' other =
      if other = header.segmentId then none else mapping other) :
    Books headers' mapping'
      { ext with freeHeadPage := some cursor, freeCount := ext.freeCount + 1 }
      { ledger with
        queue := retired.reclaimed header.nextHeaderPage rest :: queue
        free := (cursor, ⟨.free, generation, header.segmentId, ext.freeHeadPage⟩) ::
          ledger.free } := by
  have perm := Ledger.entries_perm first extents
  have member : ∀ {entry}, entry ∈ ledger.owner ++ ledger.old ++
      (rest ++ queue.flatMap Retired.extents) ++ ledger.free → entry ∈ ledger.entries :=
    fun inside => perm.mem_iff.mpr (List.mem_cons_of_mem _ inside)
  have away : ∀ {entry}, entry ∈ ledger.owner ++ ledger.old ++
      (rest ++ queue.flatMap Retired.extents) ++ ledger.free → entry.1 ≠ cursor := by
    intro entry inside same
    have nodup := (perm.map Prod.fst).nodup_iff.mp distinct
    rw [List.map_cons, List.nodup_cons] at nodup
    exact nodup.1 (List.mem_map.mpr ⟨entry, inside, same⟩)
  have here : (cursor, header) ∈ ledger.owned := by
    rw [Ledger.mem_owned, first]
    exact Or.inr (Or.inr ⟨retired, List.mem_cons_self, by rw [extents]; exact List.mem_cons_self⟩)
  have kept : ∀ {number head list}, (∀ entry ∈ list, entry ∈ ledger.owner ++ ledger.old ++
      (rest ++ queue.flatMap Retired.extents)) → Holds headers mapping number head list →
        Holds headers' mapping' number head list := by
    intro number head list inside holds
    refine holds.congr (fun entry listed => ?_) fun entry listed => ?_
    · have there := List.mem_append_left ledger.free (inside entry listed)
      exact others entry (member there) (away there)
    · obtain ⟨_, _, named, held⟩ := holds.entry entry listed
      rw [mapped _ named, if_neg]
      intro same
      have held' := (books.owned here).2.2.2
      rw [same] at held
      rw [held, Option.some.injEq] at held'
      exact away (List.mem_append_left ledger.free (inside entry listed)) (by omega)
  obtain ⟨number, known, holds, count⟩ := books.queued retired (first ▸ List.mem_cons_self)
  rw [extents] at holds count
  refine ⟨kept (fun entry (inside : entry ∈ ledger.owner) => by simp [inside]) books.owner,
    books.ownerCount, kept (fun entry (inside : entry ∈ ledger.old) => by simp [inside]) books.old,
    books.oldCount, books.noOld, ?_, ?_, ?_, ?_, ?_⟩
  · intro other queued
    rcases List.mem_cons.mp queued with rfl | later
    · have tail : Holds headers mapping number header.nextHeaderPage rest :=
        ⟨holds.chain.2.2, fun entry inside => holds.entry entry (List.mem_cons_of_mem _ inside)⟩
      refine ⟨number, known, kept (fun entry (inside : entry ∈ rest) => by simp [inside]) tail, ?_⟩
      show retired.row.2.remainingSegments - 1 = rest.length
      rw [count, List.length_cons, Nat.add_sub_cancel]
    · obtain ⟨number', known', holds', count'⟩ :=
        books.queued other (first ▸ List.mem_cons_of_mem _ later)
      refine ⟨number', known', kept (fun entry inside => ?_) holds', count'⟩
      exact List.mem_append_right _ (List.mem_append_right _ (List.mem_flatMap.mpr
        ⟨other, later, inside⟩))
  · refine books.free.cons (fun entry inside => ?_) freed rfl
    have there := List.mem_append_right (ledger.owner ++ ledger.old ++
      (rest ++ queue.flatMap Retired.extents)) inside
    exact others entry (member there) (away there)
  · intro entry inside
    rcases List.mem_cons.mp inside with rfl | later
    · rfl
    · exact books.freeStatus entry later
  · rw [List.length_cons, books.freeCount]
  · intro segmentId base named held
    rw [mapped segmentId named] at held
    by_cases same : segmentId = header.segmentId
    · rw [if_pos same] at held
      cases held
    · rw [if_neg same] at held
      obtain ⟨entry, listed, at_, segment⟩ := books.mapped segmentId base named held
      refine ⟨entry, ?_, at_, segment⟩
      rw [Ledger.owned, first, List.flatMap_cons, extents] at listed
      rw [Ledger.owned, List.flatMap_cons]
      show entry ∈ ledger.owner ++ ledger.old ++ (rest ++ queue.flatMap Retired.extents)
      have different : entry ≠ (cursor, header) := by
        rintro rfl
        exact same segment.symm
      simpa [different] using listed

end Extents

end DurableContext.Lifecycle
