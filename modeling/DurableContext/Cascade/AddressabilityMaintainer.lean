import DurableContext.Cascade.SubjectProfileIndex

/-! The addressability maintainer: canonical mutations of the store, each with a refresh of the
subjects whose profile it may change. -/

namespace DurableContext.Cascade

open Maintenance (EvidenceRecord)
open SubjectProfileIndex (snapshotSubject)

variable {V : Type}

structure AddressabilityMaintainer (V : Type) where
  store : MemoryStore V
  index : SubjectProfileIndex

structure MaintenanceResult where
  operation : String
  affectedSubjectIds : List String
  deriving DecidableEq

namespace AddressabilityMaintainer

/-- The maintainer of a store with a new index. -/
def start (store : MemoryStore V) : AddressabilityMaintainer V := ⟨store, .ofStore store⟩

def refresh (m : AddressabilityMaintainer V) (operation : String) (subjectIds : Finset String) :
    MaintenanceResult × AddressabilityMaintainer V :=
  let ordered := sorted subjectIds
  (⟨operation, ordered⟩,
    { m with index := ordered.foldl (SubjectProfileIndex.refreshSubject m.store) m.index })

def upsertEvidence (m : AddressabilityMaintainer V) (item : EvidenceRecord) :
    MaintenanceResult × AddressabilityMaintainer V :=
  let affected := (m.store.subjectsForEvidence item.id).toFinset
  { m with store := m.store.addEvidence item }.refresh "upsert_evidence" affected

def deleteEvidence (m : AddressabilityMaintainer V) (evidenceId : String) :
    MaintenanceResult × AddressabilityMaintainer V :=
  let affected := (m.store.subjectsForEvidence evidenceId).toFinset
  { m with store := m.store.removeEvidence evidenceId }.refresh "delete_evidence" affected

def upsertAssertion (m : AddressabilityMaintainer V) (item : Assertion V) :
    MaintenanceResult × AddressabilityMaintainer V :=
  let affected : Finset String := match m.store.assertions.lookup item.id with
    | none => {item.subjectId}
    | some previous => {item.subjectId, previous.subjectId}
  { m with store := m.store.addAssertion item }.refresh "upsert_assertion" affected

def deleteAssertion (m : AddressabilityMaintainer V) (assertionId : String) :
    MaintenanceResult × AddressabilityMaintainer V :=
  match m.store.assertions.lookup assertionId with
  | none => (⟨"delete_assertion", []⟩, m)
  | some previous =>
      { m with store := m.store.removeAssertion assertionId }.refresh "delete_assertion"
        {previous.subjectId}

inductive Mutation (V : Type) where
  | upsertEvidence (item : EvidenceRecord)
  | deleteEvidence (evidenceId : String)
  | upsertAssertion (item : Assertion V)
  | deleteAssertion (assertionId : String)

def apply (m : AddressabilityMaintainer V) : Mutation V → AddressabilityMaintainer V
  | .upsertEvidence item => (m.upsertEvidence item).2
  | .deleteEvidence evidenceId => (m.deleteEvidence evidenceId).2
  | .upsertAssertion item => (m.upsertAssertion item).2
  | .deleteAssertion assertionId => (m.deleteAssertion assertionId).2

def run (m : AddressabilityMaintainer V) (mutations : List (Mutation V)) :
    AddressabilityMaintainer V :=
  mutations.foldl apply m

/-- The index holds every subject's snapshot of the store. -/
structure Maintained (m : AddressabilityMaintainer V) : Prop where
  posted : m.index.Posted
  held : ∀ subject, m.index.snapshotOf subject = snapshotSubject m.store subject

variable {m : AddressabilityMaintainer V} {store : MemoryStore V}

theorem maintained_start (store : MemoryStore V) : (start store).Maintained := by
  obtain ⟨posted, held⟩ := SubjectProfileIndex.ofStore_spec store
  exact ⟨posted, held⟩

/-- A change of the store that leaves the snapshots of all but the affected subjects as they are. -/
theorem Maintained.refresh (maintained : m.Maintained) (operation : String)
    (affected : Finset String)
    (away : ∀ subject, subject ∉ affected →
      snapshotSubject store subject = snapshotSubject m.store subject) :
    ({ m with store }.refresh operation affected).2.Maintained := by
  obtain ⟨posted, held⟩ :=
    SubjectProfileIndex.foldl_refreshSubject store (sorted affected) maintained.posted
  refine ⟨posted, fun subject => (held subject).trans ?_⟩
  by_cases inside : subject ∈ affected
  · exact if_pos (mem_sorted.mpr inside)
  · rw [if_neg fun listed => inside (mem_sorted.mp listed), maintained.held]
    exact (away subject inside).symm

theorem snapshotSubject_congr {subject : String}
    (items : store.assertionsForSubject subject = m.store.assertionsForSubject subject)
    (evidence : ∀ item ∈ m.store.assertionsForSubject subject, ∀ id ∈ item.evidenceIds,
      store.evidence.lookup id = m.store.evidence.lookup id) :
    snapshotSubject store subject = snapshotSubject m.store subject := by
  simp only [snapshotSubject, items]
  congr 2
  refine List.flatMap_congr fun id listed => ?_
  rw [mem_sorted, List.mem_toFinset, List.mem_flatMap] at listed
  obtain ⟨item, member, cites⟩ := listed
  rw [evidence item member id cites]

theorem Maintained.changeEvidence (maintained : m.Maintained) (operation : String)
    {evidenceId : String} {evidence : Table String EvidenceRecord}
    (others : ∀ id, id ≠ evidenceId → evidence.lookup id = m.store.evidence.lookup id) :
    ({ m with store := m.store.withEvidence evidence }.refresh operation
      (m.store.subjectsForEvidence evidenceId).toFinset).2.Maintained := by
  refine maintained.refresh operation _ fun subject away => ?_
  refine snapshotSubject_congr (MemoryStore.assertionsForSubject_congr fun id item _ => Iff.rfl) ?_
  intro item member id cites
  refine others id fun here => away ?_
  rw [List.mem_toFinset, MemoryStore.mem_subjectsForEvidence]
  exact ⟨item, member, here ▸ cites⟩

theorem Maintained.changeAssertions (maintained : m.Maintained) (operation : String)
    (affected : Finset String) (evidence : store.evidence = m.store.evidence)
    (others : ∀ id item, item.subjectId ∉ affected →
      (store.assertions.lookup id = some item ↔ m.store.assertions.lookup id = some item)) :
    ({ m with store }.refresh operation affected).2.Maintained := by
  refine maintained.refresh operation affected fun subject away => ?_
  refine snapshotSubject_congr (MemoryStore.assertionsForSubject_congr ?_) ?_
  · intro id item own
    exact others id item fun inside => away (own ▸ inside)
  · intro item _ id _
    rw [evidence]

theorem Maintained.upsertAssertion (maintained : m.Maintained) (item : Assertion V) :
    (m.upsertAssertion item).2.Maintained := by
  refine maintained.changeAssertions "upsert_assertion" _ (MemoryStore.addAssertion_rest.2.2) ?_
  intro id other away
  rw [MemoryStore.addAssertion_assertions]
  by_cases here : id = item.id
  · rw [here, AList.lookup_insert]
    constructor
    · intro same
      cases same
      exact absurd (by split <;> simp) away
    · intro held
      rw [held] at away
      exact absurd (by simp) away
  · rw [AList.lookup_insert_ne here]

theorem Maintained.deleteAssertion (maintained : m.Maintained) (assertionId : String) :
    (m.deleteAssertion assertionId).2.Maintained := by
  unfold AddressabilityMaintainer.deleteAssertion
  cases held : m.store.assertions.lookup assertionId with
  | none => exact maintained
  | some previous =>
      refine maintained.changeAssertions "delete_assertion" _
        (MemoryStore.removeAssertion_rest assertionId) ?_
      intro id other away
      rw [MemoryStore.lookup_removeAssertion]
      by_cases here : id = assertionId
      · rw [here, AList.lookup_erase, held]
        constructor
        · intro absent
          cases absent
        · intro same
          cases same
          exact absurd (Finset.mem_singleton_self _) away
      · rw [AList.lookup_erase_ne here]

theorem Maintained.apply (maintained : m.Maintained) (mutation : Mutation V) :
    (m.apply mutation).Maintained := by
  cases mutation with
  | upsertEvidence item =>
      exact maintained.changeEvidence "upsert_evidence" fun id apart => AList.lookup_insert_ne apart
  | deleteEvidence evidenceId =>
      exact maintained.changeEvidence "delete_evidence" fun id apart => AList.lookup_erase_ne apart
  | upsertAssertion item => exact maintained.upsertAssertion item
  | deleteAssertion assertionId => exact maintained.deleteAssertion assertionId

theorem Maintained.run (maintained : m.Maintained) (mutations : List (Mutation V)) :
    (m.run mutations).Maintained := by
  induction mutations generalizing m with
  | nil => exact maintained
  | cons mutation rest ih => exact ih (maintained.apply mutation)

/-- After any mutations the index is that of the store built anew, and the indexes of the store are
those built anew. -/
theorem run_equivalent (store : MemoryStore V) (mutations : List (Mutation V)) :
    ((start store).run mutations).index.Equivalent
        (.ofStore ((start store).run mutations).store) ∧
      Rows.SameIndexes ((start store).run mutations).store.toRows
        ((start store).run mutations).store.toRows.rebuildLocalityIndexes := by
  have maintained := (maintained_start store).run mutations
  set m := (start store).run mutations
  obtain ⟨posted, held⟩ := SubjectProfileIndex.ofStore_spec m.store
  obtain ⟨assertions, relations⟩ := m.store.toRows.rebuildLocalityIndexes_canonical
  refine ⟨maintained.posted.equivalent posted fun subject => ?_, ?_⟩
  · rw [maintained.held, held]
  · exact m.store.indexed.same (Rows.rebuildLocalityIndexes_indexed m.store.indexed.named)
      assertions relations

end AddressabilityMaintainer
end DurableContext.Cascade
