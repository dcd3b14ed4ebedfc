import DurableContext.Lifecycle.Ledger

/-! What is done with the descriptors of the arena: the head of the queue is changed, freed, or taken
with the whole arena, and the last page is given up. -/

namespace DurableContext.Lifecycle

open RadixMap

section Resolving

variable {descriptors descriptors' : Nat → Option TaggedDescriptor} {ref : DescriptorRef}
  {descriptor : TaggedDescriptor}

theorem resolve_eq_some : resolve descriptors ref = some descriptor ↔
    descriptors ref.page = some descriptor ∧ descriptor.incarnation = ref.incarnation := by
  rw [resolve, Option.filter_eq_some_iff, decide_eq_true_iff]

theorem resolve_congr (same : descriptors' ref.page = descriptors ref.page) :
    resolve descriptors' ref = resolve descriptors ref := by
  rw [resolve, resolve, same]

end Resolving

section Rolls

variable {descriptors descriptors' : Nat → Option TaggedDescriptor} {arena arena' : ArenaMeta}
  {queue pool : List DescriptorRow} {status : DescriptorStatus}
  {headPage headIncarnation : Option Nat} {count : Nat} {rows rest : List DescriptorRow}
  {row : DescriptorRow}

theorem Lists.held (lists : Lists descriptors status headPage headIncarnation count rows)
    (member : row ∈ rows) : descriptors row.1.page = some row.2 ∧
      row.2.incarnation = row.1.incarnation ∧ row.2.status = status := by
  obtain ⟨held, same⟩ := resolve_eq_some.mp (lists.chain.held member)
  exact ⟨held, same, lists.status row member⟩

theorem Lists.congr (lists : Lists descriptors status headPage headIncarnation count rows)
    (same : ∀ row ∈ rows, descriptors' row.1.page = descriptors row.1.page) :
    Lists descriptors' status headPage headIncarnation count rows :=
  ⟨lists.chain.congr fun row member => resolve_congr (same row member), lists.headPage,
    lists.headIncarnation, lists.count, lists.status⟩

theorem Lists.next (lists : Lists descriptors status headPage headIncarnation count (row :: rest)) :
    row.2.next = rest.head?.map Prod.fst :=
  lists.chain.2.2.head_eq

theorem Lists.tail (lists : Lists descriptors status headPage headIncarnation count (row :: rest)) :
    Lists descriptors status (row.2.next.map DescriptorRef.page)
      (row.2.next.map DescriptorRef.incarnation) (count - 1) rest where
  chain := by
    rw [← lists.next]
    exact lists.chain.2.2
  headPage := by
    rw [lists.next, Option.map_map]
    rfl
  headIncarnation := by
    rw [lists.next, Option.map_map]
    rfl
  count := by
    rw [lists.count, List.length_cons, Nat.add_sub_cancel]
  status := fun other member => lists.status other (List.mem_cons_of_mem row member)

theorem Lists.cons (lists : Lists descriptors status headPage headIncarnation count rows)
    (others : ∀ other ∈ rows, descriptors' other.1.page = descriptors other.1.page)
    (held : descriptors' row.1.page = some row.2) (same : row.2.incarnation = row.1.incarnation)
    (leads : row.2.next = rows.head?.map Prod.fst) (here : row.2.status = status) :
    Lists descriptors' status (some row.1.page) (some row.1.incarnation) (count + 1)
      (row :: rows) where
  chain := lists.chain.cons (fun other member => resolve_congr (others other member))
    (resolve_eq_some.mpr ⟨held, same⟩) leads
  headPage := rfl
  headIncarnation := rfl
  count := by rw [lists.count, List.length_cons]
  status := by
    intro other member
    rcases List.mem_cons.mp member with rfl | later
    · exact here
    · exact lists.status other later

theorem Rolls.page (rolls : Rolls descriptors arena queue pool) (member : row ∈ queue ++ pool) :
    row.1.page % RETIREMENT_DESCRIPTOR_COPIES = 0 ∧ row.1.page < arena.arenaPages :=
  (rolls.pages row.1.page).mp (List.mem_map.mpr ⟨row, member, rfl⟩)

theorem Rolls.keep {kept : TaggedDescriptor} (rolls : Rolls descriptors arena (row :: rest) pool)
    (held : descriptors' row.1.page = some kept) (same : kept.incarnation = row.2.incarnation)
    (waiting : kept.status = .queued) (leads : kept.next = row.2.next)
    (others : ∀ other ∈ rest ++ pool, descriptors' other.1.page = descriptors other.1.page) :
    Rolls descriptors' arena ((row.1, kept) :: rest) pool := by
  have known := (rolls.queued.held List.mem_cons_self).2.1
  refine ⟨⟨?_, rolls.queued.headPage, rolls.queued.headIncarnation, rolls.queued.count, ?_⟩,
    rolls.tailPage.trans ?_, rolls.tailIncarnation.trans ?_,
    rolls.freed.congr fun other member => others other (List.mem_append_right _ member),
    rolls.pages, rolls.distinct, rolls.even, rolls.incarnations, ?_, fun empty => by cases empty⟩
  · exact rolls.queued.chain.set_head
      (fun other member => resolve_congr (others other (List.mem_append_left _ member)))
      (resolve_eq_some.mpr ⟨held, same.trans known⟩) leads
  · intro other member
    rcases List.mem_cons.mp member with rfl | later
    · exact waiting
    · exact rolls.queued.status other (List.mem_cons_of_mem row later)
  · cases rest <;> rfl
  · cases rest <;> rfl
  · intro other member
    rcases List.mem_cons.mp member with rfl | later
    · exact rolls.taken row List.mem_cons_self
    · exact rolls.taken other (List.mem_cons_of_mem row later)

/-- The arena's metadata without the head of the queue. -/
def ArenaMeta.dequeued (arena : ArenaMeta) (head : DescriptorRow) : ArenaMeta :=
  { arena with
    queueHeadPage := head.2.next.map DescriptorRef.page
    queueHeadIncarnation := head.2.next.map DescriptorRef.incarnation
    queueCount := arena.queueCount - 1 }

theorem Rolls.free {freed : TaggedDescriptor} (rolls : Rolls descriptors arena (row :: rest) pool)
    (waiting : rest ≠ []) (held : descriptors' row.1.page = some freed)
    (same : freed.incarnation = row.2.incarnation) (status : freed.status = .free)
    (leads : freed.next = pool.head?.map Prod.fst)
    (others : ∀ other ∈ rest ++ pool, descriptors' other.1.page = descriptors other.1.page) :
    Rolls descriptors' { arena.dequeued row with
        freeHeadPage := some row.1.page
        freeHeadIncarnation := some row.1.incarnation
        freeCount := arena.freeCount + 1 } rest ((row.1, freed) :: pool) := by
  have known := (rolls.queued.held List.mem_cons_self).2.1
  have perm : (rest ++ (row.1, freed) :: pool).Perm ((row.1, freed) :: (rest ++ pool)) :=
    List.perm_middle
  have pages := perm.map fun row : DescriptorRow => row.1.page
  have incarnations := perm.map fun row : DescriptorRow => row.1.incarnation
  have freeList : Lists descriptors' .free (some row.1.page) (some row.1.incarnation)
      (arena.freeCount + 1) ((row.1, freed) :: pool) :=
    @Lists.cons descriptors descriptors' .free _ _ _ pool (row.1, freed) rolls.freed
      (fun other member => others other (List.mem_append_right _ member)) held (same.trans known)
      leads status
  refine ⟨rolls.queued.tail.congr fun other member => others other (List.mem_append_left _ member),
    rolls.tailPage.trans ?_, rolls.tailIncarnation.trans ?_, freeList,
    fun page => pages.mem_iff.trans (rolls.pages page), pages.nodup_iff.mpr rolls.distinct,
    rolls.even, incarnations.nodup_iff.mpr rolls.incarnations, ?_, fun empty => absurd empty waiting⟩
  · obtain ⟨next, later, rfl⟩ := List.exists_cons_of_ne_nil waiting
    rw [List.getLast?_cons_cons]
  · obtain ⟨next, later, rfl⟩ := List.exists_cons_of_ne_nil waiting
    rw [List.getLast?_cons_cons]
  · intro other member
    rcases List.mem_cons.mp (perm.mem_iff.mp member) with rfl | later
    · exact rolls.taken row List.mem_cons_self
    · exact rolls.taken other (List.mem_cons_of_mem row later)

theorem Rolls.reset (descriptors : Nat → Option TaggedDescriptor) (even : arena.arenaPages = 0)
    (queueHead : arena.queueHeadPage = none) (queueIncarnation : arena.queueHeadIncarnation = none)
    (queueTail : arena.queueTailPage = none) (tailIncarnation : arena.queueTailIncarnation = none)
    (queueCount : arena.queueCount = 0) (freeHead : arena.freeHeadPage = none)
    (freeIncarnation : arena.freeHeadIncarnation = none) (freeCount : arena.freeCount = 0) :
    Rolls descriptors arena [] [] where
  queued := ⟨rfl, queueHead, queueIncarnation, queueCount, fun _ member => by cases member⟩
  tailPage := queueTail
  tailIncarnation := tailIncarnation
  freed := ⟨rfl, freeHead, freeIncarnation, freeCount, fun _ member => by cases member⟩
  pages := by
    intro page
    rw [even]
    exact ⟨fun member => (List.not_mem_nil member).elim, fun inside => absurd inside.2 (Nat.not_lt_zero _)⟩
  distinct := List.nodup_nil
  even := by rw [even, Nat.zero_mod]
  incarnations := List.nodup_nil
  taken := fun _ member => (List.not_mem_nil member).elim
  idle := fun _ => rfl

/-- The arena's metadata without its last descriptor, the first free one. -/
def ArenaMeta.released (arena : ArenaMeta) (row : DescriptorRow) : ArenaMeta :=
  { arena with
    freeHeadPage := row.2.next.map DescriptorRef.page
    freeHeadIncarnation := row.2.next.map DescriptorRef.incarnation
    freeCount := arena.freeCount - 1
    arenaPages := row.1.page }

theorem Rolls.release (rolls : Rolls descriptors arena queue (row :: rest))
    (last : row.1.page + RETIREMENT_DESCRIPTOR_COPIES = arena.arenaPages)
    (others : ∀ other ∈ queue ++ rest, descriptors' other.1.page = descriptors other.1.page) :
    Rolls descriptors' (arena.released row) queue rest := by
  have perm : (queue ++ row :: rest).Perm (row :: (queue ++ rest)) := List.perm_middle
  have pages := perm.map fun row : DescriptorRow => row.1.page
  have incarnations := perm.map fun row : DescriptorRow => row.1.incarnation
  have distinct := List.nodup_cons.mp (pages.nodup_iff.mp rolls.distinct)
  have even := (rolls.page (List.mem_append_right queue List.mem_cons_self)).1
  refine ⟨rolls.queued.congr fun other member => others other (List.mem_append_left _ member),
    rolls.tailPage, rolls.tailIncarnation,
    rolls.freed.tail.congr fun other member => others other (List.mem_append_right _ member),
    fun page => ?_, distinct.2, even, (List.nodup_cons.mp (incarnations.nodup_iff.mp
      rolls.incarnations)).2, fun other member => rolls.taken other
      (perm.mem_iff.mpr (List.mem_cons_of_mem row member)), fun empty => ?_⟩
  · have whole := rolls.pages page
    rw [pages.mem_iff, List.map_cons, List.mem_cons] at whole
    rw [RETIREMENT_DESCRIPTOR_COPIES] at whole last even ⊢
    show page ∈ (queue ++ rest).map (fun row : DescriptorRow => row.1.page) ↔
      page % 2 = 0 ∧ page < row.1.page
    constructor
    · intro member
      have inside := whole.mp (Or.inr member)
      have different : page ≠ row.1.page := by
        rintro rfl
        exact distinct.1 member
      omega
    · rintro ⟨half, below⟩
      refine (whole.mpr (by omega)).resolve_left fun same => ?_
      rw [same] at below
      exact Nat.lt_irrefl _ below
  · exact absurd (rolls.idle empty) (List.cons_ne_nil _ _)

end Rolls

end DurableContext.Lifecycle
