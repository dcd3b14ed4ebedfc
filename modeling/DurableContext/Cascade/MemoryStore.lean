import DurableContext.Cascade.Reconcile
import DurableContext.Lib.Tally
import DurableContext.Lib.TableRows
import Mathlib.Algebra.GroupWithZero.Nat
import Mathlib.Algebra.Order.Group.Nat
import Mathlib.Algebra.Order.BigOperators.Group.Multiset
import DurableContext.Maintenance.Canonical

/-! The memory store: the canonical evidence, assertions and relations with the indexes that locate
them.

A store carries the proof that its indexes are those of its canonical rows. -/

namespace DurableContext.Cascade

open Maintenance (EvidenceRecord)

/-- The rows of a store and its indexes, as they are kept. -/
structure Rows (V : Type) where
  evidence : Table String EvidenceRecord
  assertions : Table String (Assertion V)
  relations : List AssertionRelation
  state : Table StateKey (StateCell V)
  assertionsByKey : Multimap StateKey String
  assertionsBySubject : Multimap String String
  evidenceSubjectRefcounts : Tally String String
  relationsBySource : Table String (List AssertionRelation)

namespace Rows

variable {V : Type}

def removeAssertionIndexes (rows : Rows V) (item : Assertion V) : Rows V :=
  { rows with
    assertionsByKey := rows.assertionsByKey.discard item.key item.id
    assertionsBySubject := rows.assertionsBySubject.discard item.subjectId item.id
    evidenceSubjectRefcounts :=
      item.evidenceIds.foldl (Tally.decrement item.subjectId) rows.evidenceSubjectRefcounts }

def addAssertionIndexes (rows : Rows V) (item : Assertion V) : Rows V :=
  { rows with
    assertionsByKey := rows.assertionsByKey.add item.key item.id
    assertionsBySubject := rows.assertionsBySubject.add item.subjectId item.id
    evidenceSubjectRefcounts :=
      item.evidenceIds.foldl (Tally.increment item.subjectId) rows.evidenceSubjectRefcounts }

def addRelationIndex (rows : Rows V) (rel : AssertionRelation) : Rows V :=
  let listed := (rows.relationsBySource.lookup rel.sourceAssertionId).getD []
  { rows with
    relationsBySource := rows.relationsBySource.insert rel.sourceAssertionId (listed ++ [rel]) }

def rebuildLocalityIndexes (rows : Rows V) : Rows V :=
  let rows := { rows with
    assertionsByKey := ∅
    assertionsBySubject := ∅
    evidenceSubjectRefcounts := ∅
    relationsBySource := ∅ }
  let rows := (rows.assertions.entries.map Sigma.snd).foldl addAssertionIndexes rows
  rows.relations.foldl addRelationIndex rows

def addAssertion (rows : Rows V) (item : Assertion V) : Rows V :=
  let rows := match rows.assertions.lookup item.id with
    | some previous => rows.removeAssertionIndexes previous
    | none => rows
  { rows with assertions := rows.assertions.insert item.id item }.addAssertionIndexes item

def removeAssertion (rows : Rows V) (assertionId : String) : Rows V :=
  match rows.assertions.lookup assertionId with
  | none => rows
  | some item =>
      { rows with assertions := rows.assertions.erase assertionId }.removeAssertionIndexes item

def addRelation (rows : Rows V) (rel : AssertionRelation) : Rows V :=
  { rows with relations := rows.relations ++ [rel] }.addRelationIndex rel

/-- The table lists the name of every assertion at its place, and nothing else. -/
structure Locates {κ : Type} [DecidableEq κ] (place : Assertion V → κ)
    (assertions : Table String (Assertion V)) (index : Multimap κ String) : Prop where
  full : Multimap.Full index
  listed : ∀ key id, id ∈ index.get key ↔
    ∃ item, assertions.lookup id = some item ∧ place item = key

/-- How often an assertion cites evidence for a subject. -/
def citations (evidenceId subject : String) (item : Assertion V) : Nat :=
  if subject = item.subjectId then item.evidenceIds.count evidenceId else 0

def mentions (assertions : Table String (Assertion V)) (evidenceId subject : String) : Nat :=
  ((assertions.values : Multiset (Assertion V)).map (citations evidenceId subject)).sum

/-- The tally counts how often each subject's assertions cite each evidence. -/
structure Cites (assertions : Table String (Assertion V)) (tally : Tally String String) : Prop where
  exact' : Tally.Exact tally
  counted : ∀ evidenceId subject, tally.count evidenceId subject =
    mentions assertions evidenceId subject

/-- Assertions are stored under their own names, and the indexes list what they should. -/
structure Indexed (rows : Rows V) : Prop where
  named : ∀ id item, rows.assertions.lookup id = some item → item.id = id
  byKey : Locates Assertion.key rows.assertions rows.assertionsByKey
  bySubject : Locates Assertion.subjectId rows.assertions rows.assertionsBySubject
  cited : Cites rows.assertions rows.evidenceSubjectRefcounts
  bySource : ∀ id, (rows.relationsBySource.lookup id).getD [] =
    rows.relations.filter fun rel => decide (rel.sourceAssertionId = id)
  sources : ∀ id rels, rows.relationsBySource.lookup id = some rels → rels ≠ []

section Locates

variable {κ : Type} [DecidableEq κ] {place : Assertion V → κ}
  {assertions : Table String (Assertion V)} {index : Multimap κ String} {item : Assertion V}

theorem Locates.erase (locates : Locates place assertions index) {name : String}
    (held : assertions.lookup name = some item) (named : item.id = name) :
    Locates place (assertions.erase name) (index.discard (place item) item.id) where
  full := locates.full.discard _ _
  listed := by
    subst named
    intro key id
    rw [Multimap.mem_get_discard, locates.listed]
    by_cases here : id = item.id
    · rw [here, AList.lookup_erase, held]
      constructor
      · intro kept
        obtain ⟨⟨other, same, there⟩, apart⟩ := kept
        cases same
        exact absurd ⟨there.symm, rfl⟩ apart
      · intro kept
        obtain ⟨other, absent, _⟩ := kept
        cases absent
    · rw [AList.lookup_erase_ne here]
      exact and_iff_left fun both => here both.2

theorem Locates.insert (locates : Locates place (assertions.erase item.id) index) :
    Locates place (assertions.insert item.id item) (index.add (place item) item.id) where
  full := locates.full.add _ _
  listed := by
    intro key id
    rw [Multimap.mem_get_add, locates.listed]
    by_cases here : id = item.id
    · rw [here, AList.lookup_erase, AList.lookup_insert]
      constructor
      · intro either
        rcases either with ⟨there, _⟩ | ⟨other, absent, _⟩
        · exact ⟨item, rfl, there.symm⟩
        · cases absent
      · intro found
        obtain ⟨other, same, there⟩ := found
        cases same
        exact Or.inl ⟨there.symm, rfl⟩
    · rw [AList.lookup_erase_ne here, AList.lookup_insert_ne here]
      constructor
      · intro either
        exact either.resolve_left fun both => here both.2
      · exact Or.inr

theorem Locates.congr {other : Table String (Assertion V)} (locates : Locates place assertions index)
    (same : ∀ id, other.lookup id = assertions.lookup id) : Locates place other index where
  full := locates.full
  listed := by
    intro key id
    rw [same]
    exact locates.listed key id

theorem foldl_add_full (items : List (Assertion V)) (full : Multimap.Full index) :
    Multimap.Full (items.foldl (fun index item => index.add (place item) item.id) index) := by
  induction items generalizing index with
  | nil => exact full
  | cons item rest ih => exact ih (full.add _ _)

theorem mem_foldl_add (items : List (Assertion V)) (key : κ) (id : String) :
    id ∈ (items.foldl (fun index item => index.add (place item) item.id) index).get key ↔
      id ∈ index.get key ∨ ∃ item ∈ items, item.id = id ∧ place item = key := by
  induction items generalizing index with
  | nil => simp
  | cons item rest ih =>
      rw [List.foldl_cons, ih, Multimap.mem_get_add, List.exists_mem_cons_iff]
      constructor
      · intro either
        rcases either with (⟨there, here⟩ | before) | later
        · exact Or.inr (Or.inl ⟨here.symm, there.symm⟩)
        · exact Or.inl before
        · exact Or.inr (Or.inr later)
      · intro either
        rcases either with before | ⟨here, there⟩ | later
        · exact Or.inl (Or.inr before)
        · exact Or.inl (Or.inl ⟨there.symm, here.symm⟩)
        · exact Or.inr later

theorem locates_foldl (named : ∀ id item, assertions.lookup id = some item → item.id = id) :
    Locates place assertions ((assertions.entries.map Sigma.snd).foldl
      (fun index item => Multimap.add index (place item) item.id) ∅) where
  full := foldl_add_full _ Multimap.full_empty
  listed := by
    intro key id
    rw [mem_foldl_add, Multimap.get_empty]
    constructor
    · intro either
      obtain ⟨item, member, here, there⟩ := either.resolve_left (Finset.notMem_empty id)
      obtain ⟨entry, listed, same⟩ := List.mem_map.mp member
      have held : assertions.lookup entry.1 = some entry.2 := by
        rw [← Option.mem_def, AList.mem_lookup_iff]
        exact listed
      have name := named _ _ held
      rw [same] at held name
      exact ⟨item, by rw [← here, name]; exact held, there⟩
    · intro found
      obtain ⟨item, held, there⟩ := found
      refine Or.inr ⟨item, List.mem_map.mpr ⟨⟨id, item⟩, ?_, rfl⟩, named id item held, there⟩
      rw [← AList.mem_lookup_iff]
      exact held

end Locates

section Cites

variable {assertions other : Table String (Assertion V)} {tally : Tally String String}
  {item : Assertion V}

theorem mentions_congr (same : ∀ id, other.lookup id = assertions.lookup id)
    (evidenceId subject : String) :
    mentions other evidenceId subject = mentions assertions evidenceId subject := by
  have values := (Table.same_iff.mpr same : Table.Same other assertions).values
  rw [mentions, mentions, values]

theorem mentions_insert {name : String} (absent : assertions.lookup name = none)
    (evidenceId subject : String) : mentions (assertions.insert name item) evidenceId subject =
      citations evidenceId subject item + mentions assertions evidenceId subject := by
  rw [mentions, Table.values_insert_new absent, Multiset.map_cons, Multiset.sum_cons]
  rfl

theorem mentions_erase {name : String} (held : assertions.lookup name = some item)
    (evidenceId subject : String) : mentions assertions evidenceId subject =
      citations evidenceId subject item + mentions (assertions.erase name) evidenceId subject := by
  rw [← mentions_insert (AList.lookup_erase name assertions)]
  apply mentions_congr
  intro id
  by_cases here : id = name
  · rw [here, AList.lookup_insert, held]
  · rw [AList.lookup_insert_ne here, AList.lookup_erase_ne here]

theorem Cites.congr (cites : Cites assertions tally)
    (same : ∀ id, other.lookup id = assertions.lookup id) : Cites other tally where
  exact' := cites.exact'
  counted := by
    intro evidenceId subject
    rw [mentions_congr same, cites.counted]

theorem Cites.erase (cites : Cites assertions tally) {name : String}
    (held : assertions.lookup name = some item) :
    Cites (assertions.erase name)
      (item.evidenceIds.foldl (Tally.decrement item.subjectId) tally) where
  exact' := cites.exact'.foldl_decrement _ _
  counted := by
    intro evidenceId subject
    have whole := mentions_erase held evidenceId subject
    rw [Tally.count_foldl_decrement, cites.counted, whole, citations]
    omega

theorem Cites.insert (cites : Cites (assertions.erase item.id) tally) :
    Cites (assertions.insert item.id item)
      (item.evidenceIds.foldl (Tally.increment item.subjectId) tally) where
  exact' := cites.exact'.foldl_increment _ _
  counted := by
    intro evidenceId subject
    have held : (assertions.insert item.id item).lookup item.id = some item :=
      AList.lookup_insert assertions
    have whole := mentions_erase held evidenceId subject
    have rest : mentions ((assertions.insert item.id item).erase item.id) evidenceId subject =
        mentions (assertions.erase item.id) evidenceId subject := by
      apply mentions_congr
      intro id
      by_cases here : id = item.id
      · rw [here, AList.lookup_erase, AList.lookup_erase]
      · rw [AList.lookup_erase_ne here, AList.lookup_erase_ne here, AList.lookup_insert_ne here]
    rw [Tally.count_foldl_increment, cites.counted, whole, rest, citations]
    omega

theorem cites_foldl (items : List (Assertion V)) (exact' : Tally.Exact tally) :
    Tally.Exact (items.foldl
        (fun tally item => item.evidenceIds.foldl (Tally.increment item.subjectId) tally) tally) ∧
      ∀ evidenceId subject, Tally.count (items.foldl (fun tally item =>
          item.evidenceIds.foldl (Tally.increment item.subjectId) tally) tally) evidenceId subject =
        tally.count evidenceId subject + (items.map (citations evidenceId subject)).sum := by
  induction items generalizing tally with
  | nil => exact ⟨exact', fun _ _ => rfl⟩
  | cons item rest ih =>
      obtain ⟨exact'', counted⟩ := ih (exact'.foldl_increment item.subjectId item.evidenceIds)
      refine ⟨exact'', fun evidenceId subject => ?_⟩
      rw [List.foldl_cons, counted, Tally.count_foldl_increment, List.map_cons, List.sum_cons,
        citations, Nat.add_assoc]

theorem cites_rebuilt (assertions : Table String (Assertion V)) :
    Cites assertions ((assertions.entries.map Sigma.snd).foldl (fun tally item =>
      item.evidenceIds.foldl (Tally.increment item.subjectId) tally) ∅) where
  exact' := (cites_foldl _ Tally.exact_empty).1
  counted := by
    intro evidenceId subject
    rw [(cites_foldl _ Tally.exact_empty).2, mentions, Multiset.map_coe, Multiset.sum_coe]
    exact Nat.zero_add _

end Cites

variable {rows : Rows V} {item : Assertion V}

theorem addRelationIndex_bySource {before : List AssertionRelation}
    (bySource : ∀ id, (rows.relationsBySource.lookup id).getD [] =
      before.filter fun rel => decide (rel.sourceAssertionId = id)) (rel : AssertionRelation)
    (id : String) : ((rows.addRelationIndex rel).relationsBySource.lookup id).getD [] =
      (before ++ [rel]).filter fun rel => decide (rel.sourceAssertionId = id) := by
  unfold addRelationIndex
  rw [List.filter_append, ← bySource]
  by_cases here : id = rel.sourceAssertionId
  · rw [here, AList.lookup_insert]
    simp
  · rw [AList.lookup_insert_ne here]
    simp [Ne.symm here]

theorem addRelationIndex_sources
    (sources : ∀ id rels, rows.relationsBySource.lookup id = some rels → rels ≠ [])
    (rel : AssertionRelation) : ∀ id rels,
      (rows.addRelationIndex rel).relationsBySource.lookup id = some rels → rels ≠ [] := by
  intro id rels held
  by_cases here : id = rel.sourceAssertionId
  · rw [here, addRelationIndex, AList.lookup_insert] at held
    cases held
    exact List.append_ne_nil_of_right_ne_nil _ (List.cons_ne_nil _ _)
  · rw [addRelationIndex, AList.lookup_insert_ne here] at held
    exact sources id rels held

theorem Indexed.withEvidence (indexed : rows.Indexed) (evidence : Table String EvidenceRecord) :
    { rows with evidence }.Indexed :=
  ⟨indexed.named, indexed.byKey, indexed.bySubject, indexed.cited, indexed.bySource, indexed.sources⟩

theorem Indexed.withState (indexed : rows.Indexed) (state : Table StateKey (StateCell V)) :
    { rows with state }.Indexed :=
  ⟨indexed.named, indexed.byKey, indexed.bySubject, indexed.cited, indexed.bySource, indexed.sources⟩

theorem Indexed.addRelation (indexed : rows.Indexed) (rel : AssertionRelation) :
    (rows.addRelation rel).Indexed :=
  ⟨indexed.named, indexed.byKey, indexed.bySubject, indexed.cited,
    fun id => addRelationIndex_bySource indexed.bySource rel id,
    addRelationIndex_sources indexed.sources rel⟩

theorem Indexed.removeAssertion (indexed : rows.Indexed) (assertionId : String) :
    (rows.removeAssertion assertionId).Indexed := by
  unfold Rows.removeAssertion
  cases held : rows.assertions.lookup assertionId with
  | none => exact indexed
  | some item =>
      have name := indexed.named _ _ held
      refine ⟨fun id other found => ?_, indexed.byKey.erase held name,
        indexed.bySubject.erase held name, indexed.cited.erase held, indexed.bySource,
        indexed.sources⟩
      have kept : (rows.assertions.erase assertionId).lookup id = some other := found
      by_cases here : id = assertionId
      · rw [here, AList.lookup_erase] at kept
        cases kept
      · rw [AList.lookup_erase_ne here] at kept
        exact indexed.named id other kept

theorem Indexed.addAssertion (indexed : rows.Indexed) (item : Assertion V) :
    (rows.addAssertion item).Indexed := by
  have named : ∀ id other, (rows.assertions.insert item.id item).lookup id = some other →
      other.id = id := by
    intro id other found
    by_cases here : id = item.id
    · rw [here, AList.lookup_insert] at found
      cases found
      exact here.symm
    · rw [AList.lookup_insert_ne here] at found
      exact indexed.named id other found
  unfold Rows.addAssertion
  cases held : rows.assertions.lookup item.id with
  | none =>
      have absent : ∀ id, (rows.assertions.erase item.id).lookup id = rows.assertions.lookup id := by
        intro id
        by_cases here : id = item.id
        · rw [here, AList.lookup_erase, held]
        · exact AList.lookup_erase_ne here
      exact ⟨named, (indexed.byKey.congr absent).insert, (indexed.bySubject.congr absent).insert,
        (indexed.cited.congr absent).insert, indexed.bySource, indexed.sources⟩
  | some previous =>
      have name := indexed.named _ _ held
      exact ⟨named, (indexed.byKey.erase held name).insert,
        (indexed.bySubject.erase held name).insert, (indexed.cited.erase held).insert,
        indexed.bySource, indexed.sources⟩

theorem foldl_addAssertionIndexes (items : List (Assertion V)) (rows : Rows V) :
    items.foldl addAssertionIndexes rows = { rows with
      assertionsByKey := items.foldl (fun index item => index.add item.key item.id)
        rows.assertionsByKey
      assertionsBySubject := items.foldl (fun index item => index.add item.subjectId item.id)
        rows.assertionsBySubject
      evidenceSubjectRefcounts := items.foldl (fun tally item =>
        item.evidenceIds.foldl (Tally.increment item.subjectId) tally)
        rows.evidenceSubjectRefcounts } := by
  induction items generalizing rows with
  | nil => rfl
  | cons item rest ih => exact ih _

theorem foldl_addRelationIndex (rels : List AssertionRelation) (rows : Rows V)
    (before : List AssertionRelation)
    (bySource : ∀ id, (rows.relationsBySource.lookup id).getD [] =
      before.filter fun rel => decide (rel.sourceAssertionId = id))
    (sources : ∀ id rels, rows.relationsBySource.lookup id = some rels → rels ≠ []) :
    ∃ index, rels.foldl addRelationIndex rows = { rows with relationsBySource := index } ∧
      (∀ id, (index.lookup id).getD [] =
        (before ++ rels).filter fun rel => decide (rel.sourceAssertionId = id)) ∧
      ∀ id rels, index.lookup id = some rels → rels ≠ [] := by
  induction rels generalizing rows before with
  | nil => exact ⟨_, rfl, by rw [List.append_nil]; exact bySource, sources⟩
  | cons rel rest ih =>
      obtain ⟨index, same, listed, sources⟩ := ih _ _ (addRelationIndex_bySource bySource rel)
        (addRelationIndex_sources sources rel)
      refine ⟨index, same, fun id => ?_, sources⟩
      rw [listed, List.append_assoc]
      rfl

theorem rebuildLocalityIndexes_indexed
    (named : ∀ id item, rows.assertions.lookup id = some item → item.id = id) :
    rows.rebuildLocalityIndexes.Indexed := by
  simp only [rebuildLocalityIndexes, foldl_addAssertionIndexes]
  obtain ⟨index, same, listed, sources⟩ := foldl_addRelationIndex rows.relations
    { rows with
      assertionsByKey := (rows.assertions.entries.map Sigma.snd).foldl
        (fun index item => Multimap.add index item.key item.id) ∅
      assertionsBySubject := (rows.assertions.entries.map Sigma.snd).foldl
        (fun index item => Multimap.add index item.subjectId item.id) ∅
      evidenceSubjectRefcounts := (rows.assertions.entries.map Sigma.snd).foldl (fun tally item =>
        item.evidenceIds.foldl (Tally.increment item.subjectId) tally) ∅
      relationsBySource := ∅ } [] (fun _ => rfl) fun _ _ held => by cases held
  rw [same]
  exact ⟨named, locates_foldl named, locates_foldl named, cites_rebuilt _, listed, sources⟩

theorem rebuildLocalityIndexes_canonical (rows : Rows V) :
    rows.rebuildLocalityIndexes.assertions = rows.assertions ∧
      rows.rebuildLocalityIndexes.relations = rows.relations := by
  simp only [rebuildLocalityIndexes, foldl_addAssertionIndexes]
  obtain ⟨index, same, _, _⟩ := foldl_addRelationIndex rows.relations
    { rows with
      assertionsByKey := (rows.assertions.entries.map Sigma.snd).foldl
        (fun index item => Multimap.add index item.key item.id) ∅
      assertionsBySubject := (rows.assertions.entries.map Sigma.snd).foldl
        (fun index item => Multimap.add index item.subjectId item.id) ∅
      evidenceSubjectRefcounts := (rows.assertions.entries.map Sigma.snd).foldl (fun tally item =>
        item.evidenceIds.foldl (Tally.increment item.subjectId) tally) ∅
      relationsBySource := ∅ } [] (fun _ => rfl) fun _ _ held => by cases held
  rw [same]
  exact ⟨rfl, rfl⟩

theorem rebuildLocalityIndexes_evidence (rows : Rows V) :
    rows.rebuildLocalityIndexes.evidence = rows.evidence := by
  have relations : ∀ (rels : List AssertionRelation) (rows : Rows V),
      (rels.foldl addRelationIndex rows).evidence = rows.evidence := by
    intro rels
    induction rels with
    | nil => exact fun _ => rfl
    | cons rel rest ih => exact fun rows => ih (addRelationIndex rows rel)
  simp only [rebuildLocalityIndexes, foldl_addAssertionIndexes, relations]

structure SameIndexes (rows other : Rows V) : Prop where
  byKey : Table.Same rows.assertionsByKey other.assertionsByKey
  bySubject : Table.Same rows.assertionsBySubject other.assertionsBySubject
  refcounts : Tally.Same rows.evidenceSubjectRefcounts other.evidenceSubjectRefcounts
  bySource : Table.Same rows.relationsBySource other.relationsBySource

theorem Locates.same {κ : Type} [DecidableEq κ] {place : Assertion V → κ}
    {assertions : Table String (Assertion V)} {index index' : Multimap κ String}
    (locates : Locates place assertions index) (locates' : Locates place assertions index') :
    Table.Same index index' := by
  refine locates.full.same locates'.full fun key id => ?_
  rw [locates.listed, locates'.listed]

theorem Indexed.same {rows other : Rows V} (indexed : rows.Indexed) (indexed' : other.Indexed)
    (assertions : other.assertions = rows.assertions)
    (relations : other.relations = rows.relations) : SameIndexes rows other where
  byKey := indexed.byKey.same (assertions ▸ indexed'.byKey)
  bySubject := indexed.bySubject.same (assertions ▸ indexed'.bySubject)
  refcounts := by
    refine indexed.cited.exact'.same indexed'.cited.exact' fun evidenceId subject => ?_
    rw [indexed.cited.counted, indexed'.cited.counted, assertions]
  bySource := by
    rw [Table.same_iff]
    intro id
    have listed := indexed.bySource id
    have listed' := indexed'.bySource id
    rw [relations] at listed'
    cases held : rows.relationsBySource.lookup id with
    | none =>
        cases held' : other.relationsBySource.lookup id with
        | none => rfl
        | some rels =>
            rw [held] at listed
            rw [held', ← listed] at listed'
            exact absurd listed' (indexed'.sources id rels held')
    | some rels =>
        cases held' : other.relationsBySource.lookup id with
        | none =>
            rw [held] at listed
            rw [held', ← listed] at listed'
            exact absurd listed'.symm (indexed.sources id rels held)
        | some rels' =>
            rw [held] at listed
            rw [held', ← listed] at listed'
            exact congrArg some listed'.symm

end Rows

structure MemoryStore (V : Type) extends Rows V where
  indexed : toRows.Indexed

namespace MemoryStore

variable {V : Type}

def ofCanonical (evidence : Table String EvidenceRecord) (assertions : Table String (Assertion V))
    (relations : List AssertionRelation)
    (named : ∀ id item, assertions.lookup id = some item → item.id = id) : MemoryStore V :=
  ⟨(Rows.mk evidence assertions relations ∅ ∅ ∅ ∅ ∅).rebuildLocalityIndexes,
    Rows.rebuildLocalityIndexes_indexed named⟩

theorem empty_named (id : String) (item : Assertion V)
    (held : (∅ : Table String (Assertion V)).lookup id = some item) : item.id = id := by
  cases held

def cloneCanonicalStore (store : MemoryStore V) : MemoryStore V :=
  ofCanonical store.evidence store.assertions store.relations store.indexed.named

theorem cloneCanonicalStore_evidence {store : MemoryStore V} :
    store.cloneCanonicalStore.evidence = store.evidence :=
  Rows.rebuildLocalityIndexes_evidence _

theorem cloneCanonicalStore_assertions {store : MemoryStore V} :
    store.cloneCanonicalStore.assertions = store.assertions :=
  (Rows.rebuildLocalityIndexes_canonical _).1

theorem cloneCanonicalStore_relations {store : MemoryStore V} :
    store.cloneCanonicalStore.relations = store.relations :=
  (Rows.rebuildLocalityIndexes_canonical _).2

def withEvidence (store : MemoryStore V) (evidence : Table String EvidenceRecord) : MemoryStore V :=
  ⟨{ store.toRows with evidence }, store.indexed.withEvidence evidence⟩

def withState (store : MemoryStore V) (state : Table StateKey (StateCell V)) : MemoryStore V :=
  ⟨{ store.toRows with state }, store.indexed.withState state⟩

def addEvidence (store : MemoryStore V) (item : EvidenceRecord) : MemoryStore V :=
  store.withEvidence (store.evidence.insert item.id item)

def removeEvidence (store : MemoryStore V) (evidenceId : String) : MemoryStore V :=
  store.withEvidence (store.evidence.erase evidenceId)

def addAssertion (store : MemoryStore V) (item : Assertion V) : MemoryStore V :=
  ⟨store.toRows.addAssertion item, store.indexed.addAssertion item⟩

def removeAssertion (store : MemoryStore V) (assertionId : String) : MemoryStore V :=
  ⟨store.toRows.removeAssertion assertionId, store.indexed.removeAssertion assertionId⟩

def addRelation (store : MemoryStore V) (rel : AssertionRelation) : MemoryStore V :=
  ⟨store.toRows.addRelation rel, store.indexed.addRelation rel⟩

/-- The order of a key's and of a subject's assertions. -/
def Earlier (item other : Assertion V) : Prop :=
  item.recordedSeq < other.recordedSeq ∨
    (item.recordedSeq = other.recordedSeq ∧ item.id ≤ other.id)

instance : DecidableRel (Earlier (V := V)) := fun _ _ => inferInstanceAs (Decidable (_ ∨ _))

def located (store : MemoryStore V) (ids : Finset String) : List (Assertion V) :=
  ((sorted ids).filterMap fun id => store.assertions.lookup id).insertionSort Earlier

def assertionsForKey (store : MemoryStore V) (key : StateKey) : List (Assertion V) :=
  store.located (store.assertionsByKey.get key)

def assertionsForSubject (store : MemoryStore V) (subjectId : String) : List (Assertion V) :=
  store.located (store.assertionsBySubject.get subjectId)

def subjectIds (store : MemoryStore V) : List String :=
  sorted store.assertionsBySubject.keys.toFinset

def subjectsForEvidence (store : MemoryStore V) (evidenceId : String) : List String :=
  sorted (store.evidenceSubjectRefcounts.counts evidenceId).keys.toFinset

def relationsForAssertions (store : MemoryStore V) (assertionIds : Finset String) :
    List AssertionRelation :=
  (sorted assertionIds).flatMap fun id =>
    ((store.relationsBySource.lookup id).getD []).filter fun rel =>
      decide (rel.targetAssertionId ∈ assertionIds)

variable {store other : MemoryStore V} {item : Assertion V}

theorem mem_located {κ : Type} [DecidableEq κ] {place : Assertion V → κ} {index : Multimap κ String}
    (locates : Rows.Locates place store.assertions index) (key : κ) :
    item ∈ store.located (index.get key) ↔
      store.assertions.lookup item.id = some item ∧ place item = key := by
  rw [located, List.mem_insertionSort, List.mem_filterMap]
  constructor
  · intro found
    obtain ⟨id, listed, held⟩ := found
    rw [mem_sorted, locates.listed] at listed
    obtain ⟨other, held', there⟩ := listed
    cases held.symm.trans held'
    rw [store.indexed.named id item held]
    exact ⟨held, there⟩
  · intro found
    exact ⟨item.id, mem_sorted.mpr ((locates.listed key item.id).mpr ⟨item, found⟩), found.1⟩

theorem mem_assertionsForKey {key : StateKey} : item ∈ store.assertionsForKey key ↔
    store.assertions.lookup item.id = some item ∧ item.key = key :=
  mem_located store.indexed.byKey key

theorem mem_assertionsForSubject {subject : String} : item ∈ store.assertionsForSubject subject ↔
    store.assertions.lookup item.id = some item ∧ item.subjectId = subject :=
  mem_located store.indexed.bySubject subject

theorem mem_relationsForAssertions {ids : Finset String} {rel : AssertionRelation} :
    rel ∈ store.relationsForAssertions ids ↔
      rel ∈ store.relations ∧ rel.sourceAssertionId ∈ ids ∧ rel.targetAssertionId ∈ ids := by
  simp only [relationsForAssertions, List.mem_flatMap, List.mem_filter, store.indexed.bySource,
    mem_sorted, decide_eq_true_iff]
  constructor
  · intro found
    obtain ⟨id, source, ⟨member, same⟩, target⟩ := found
    exact ⟨member, same ▸ source, target⟩
  · intro found
    obtain ⟨member, source, target⟩ := found
    exact ⟨rel.sourceAssertionId, source, ⟨member, rfl⟩, target⟩

theorem mem_subjectIds {subject : String} : subject ∈ store.subjectIds ↔
    store.assertionsForSubject subject ≠ [] := by
  have listed : subject ∈ store.subjectIds ↔
      ∃ id, id ∈ store.assertionsBySubject.get subject := by
    rw [subjectIds, mem_sorted, List.mem_toFinset, ← AList.mem_keys, Table.mem_iff]
    exact store.indexed.bySubject.full.lookup_isSome subject
  rw [listed]
  constructor
  · intro found
    obtain ⟨id, member⟩ := found
    obtain ⟨item, held, there⟩ := (store.indexed.bySubject.listed subject id).mp member
    have name := store.indexed.named id item held
    exact List.ne_nil_of_mem (mem_assertionsForSubject.mpr ⟨by rw [name]; exact held, there⟩)
  · intro some
    obtain ⟨item, member⟩ := List.exists_mem_of_ne_nil _ some
    obtain ⟨held, there⟩ := mem_assertionsForSubject.mp member
    exact ⟨item.id, (store.indexed.bySubject.listed subject item.id).mpr ⟨item, held, there⟩⟩

theorem mem_subjectsForEvidence {evidenceId subject : String} :
    subject ∈ store.subjectsForEvidence evidenceId ↔
      ∃ item ∈ store.assertionsForSubject subject, evidenceId ∈ item.evidenceIds := by
  have cited := store.indexed.cited
  rw [subjectsForEvidence, mem_sorted, List.mem_toFinset, ← AList.mem_keys, Table.mem_iff,
    cited.exact'.lookup_isSome, cited.counted, Rows.mentions, Nat.pos_iff_ne_zero, ne_eq,
    Multiset.sum_eq_zero_iff]
  constructor
  · intro some
    simp only [not_forall] at some
    obtain ⟨number, counted, positive⟩ := some
    obtain ⟨item, member, here⟩ := Multiset.mem_map.mp counted
    obtain ⟨id, held⟩ := Table.mem_values.mp member
    rw [← here, Rows.citations] at positive
    by_cases own : subject = item.subjectId
    · rw [if_pos own] at positive
      have name := store.indexed.named id item held
      exact ⟨item, mem_assertionsForSubject.mpr ⟨by rw [name]; exact held, own.symm⟩,
        List.count_pos_iff.mp (Nat.pos_of_ne_zero positive)⟩
    · rw [if_neg own] at positive
      exact absurd rfl positive
  · intro found none
    obtain ⟨item, member, cites⟩ := found
    obtain ⟨held, own⟩ := mem_assertionsForSubject.mp member
    have zero := none _ (Multiset.mem_map_of_mem (Rows.citations evidenceId subject)
      (Table.mem_values.mpr ⟨_, held⟩))
    rw [Rows.citations, if_pos own.symm] at zero
    exact List.count_eq_zero.mp zero cites

theorem located_congr {κ : Type} [DecidableEq κ] {place : Assertion V → κ}
    {index index' : Multimap κ String} (locates : Rows.Locates place store.assertions index)
    (locates' : Rows.Locates place other.assertions index') {key : κ}
    (same : ∀ id item, place item = key →
      (store.assertions.lookup id = some item ↔ other.assertions.lookup id = some item)) :
    store.located (index.get key) = other.located (index'.get key) := by
  have sets : index.get key = index'.get key := by
    ext id
    rw [locates.listed, locates'.listed]
    refine exists_congr fun item => and_congr_left fun there => same id item there
  have lookups : (sorted (index.get key)).filterMap (fun id => store.assertions.lookup id) =
      (sorted (index'.get key)).filterMap fun id => other.assertions.lookup id := by
    rw [sets]
    refine List.filterMap_congr fun id listed => ?_
    obtain ⟨item, held, there⟩ := (locates'.listed key id).mp (mem_sorted.mp listed)
    rw [held, (same id item there).mpr held]
  rw [located, located, lookups]

theorem assertionsForKey_congr {key : StateKey} (same : ∀ id item, item.key = key →
    (store.assertions.lookup id = some item ↔ other.assertions.lookup id = some item)) :
    store.assertionsForKey key = other.assertionsForKey key :=
  located_congr store.indexed.byKey other.indexed.byKey same

theorem assertionsForSubject_congr {subject : String} (same : ∀ id item, item.subjectId = subject →
    (store.assertions.lookup id = some item ↔ other.assertions.lookup id = some item)) :
    store.assertionsForSubject subject = other.assertionsForSubject subject :=
  located_congr store.indexed.bySubject other.indexed.bySubject same

theorem relationsForAssertions_congr {ids : Finset String}
    (same : ∀ id ∈ ids, store.relations.filter (fun rel => decide (rel.sourceAssertionId = id) &&
        decide (rel.targetAssertionId ∈ ids)) =
      other.relations.filter fun rel => decide (rel.sourceAssertionId = id) &&
        decide (rel.targetAssertionId ∈ ids)) :
    store.relationsForAssertions ids = other.relationsForAssertions ids := by
  unfold relationsForAssertions
  refine List.flatMap_congr fun id listed => ?_
  have here := same id (mem_sorted.mp listed)
  simp only [store.indexed.bySource, other.indexed.bySource, List.filter_filter]
  simpa only [Bool.and_comm] using here

section Order

instance : Std.Total (Earlier (V := V)) where
  total := by
    intro item other
    rcases lt_trichotomy item.recordedSeq other.recordedSeq with before | same | after
    · exact Or.inl (Or.inl before)
    · exact (String.le_total item.id other.id).imp (fun le => Or.inr ⟨same, le⟩)
        fun le => Or.inr ⟨same.symm, le⟩
    · exact Or.inr (Or.inl after)

instance : IsTrans (Assertion V) Earlier where
  trans := by
    intro item other third first second
    unfold Earlier at *
    rcases first with before | ⟨same, le⟩
    · rcases second with before' | ⟨same', _⟩
      · exact Or.inl (before.trans before')
      · exact Or.inl (same' ▸ before)
    · rcases second with before' | ⟨same', le'⟩
      · exact Or.inl (same ▸ before')
      · exact Or.inr ⟨same.trans same', String.le_trans le le'⟩

theorem pairwise_located (ids : Finset String) : (store.located ids).Pairwise Earlier :=
  List.pairwise_insertionSort _ _

theorem nodup_located (ids : Finset String) : (store.located ids).Nodup := by
  refine (List.perm_insertionSort _ _).nodup_iff.mpr ?_
  refine List.Nodup.filterMap ?_ (Finset.sort_nodup ids _)
  intro id id' item held held'
  exact (store.indexed.named id item held).symm.trans (store.indexed.named id' item held')

theorem eq_of_earlier {key : StateKey} {item' : Assertion V}
    (member : item ∈ store.assertionsForKey key) (member' : item' ∈ store.assertionsForKey key)
    (before : Earlier item item') (after : Earlier item' item) : item = item' := by
  have same : item.id = item'.id := by
    rcases before with lt | ⟨_, le⟩
    · rcases after with lt' | ⟨same, _⟩
      · exact absurd lt (lt_asymm lt')
      · exact absurd lt (by rw [same]; exact lt_irrefl _)
    · rcases after with lt' | ⟨_, le'⟩
      · exact absurd lt' (by simp_all)
      · exact String.le_antisymm le le'
  have held := (mem_assertionsForKey.mp member).1
  rw [same, (mem_assertionsForKey.mp member').1] at held
  exact (Option.some.inj held).symm

theorem addAssertion_assertions :
    (store.addAssertion item).assertions = store.assertions.insert item.id item := by
  simp only [addAssertion, Rows.addAssertion]
  split <;> rfl

theorem addAssertion_rest : (store.addAssertion item).relations = store.relations ∧
    (store.addAssertion item).state = store.state ∧
    (store.addAssertion item).evidence = store.evidence := by
  simp only [addAssertion, Rows.addAssertion]
  split <;> exact ⟨rfl, rfl, rfl⟩

theorem lookup_removeAssertion (assertionId id : String) :
    (store.removeAssertion assertionId).assertions.lookup id =
      (store.assertions.erase assertionId).lookup id := by
  simp only [removeAssertion, Rows.removeAssertion]
  cases held : store.assertions.lookup assertionId with
  | none =>
      by_cases here : id = assertionId
      · rw [here, AList.lookup_erase, held]
      · exact (AList.lookup_erase_ne here).symm
  | some item => rfl

theorem removeAssertion_rest (assertionId : String) :
    (store.removeAssertion assertionId).evidence = store.evidence := by
  simp only [removeAssertion, Rows.removeAssertion]
  split <;> rfl

theorem assertionsForKey_addAssertion
    (fresh : ∀ other ∈ store.assertionsForKey item.key, other.id ≠ item.id)
    (latest : ∀ other ∈ store.assertionsForKey item.key, other.recordedSeq < item.recordedSeq) :
    (store.addAssertion item).assertionsForKey item.key =
      store.assertionsForKey item.key ++ [item] := by
  have members : ∀ other, other ∈ (store.addAssertion item).assertionsForKey item.key ↔
      other ∈ store.assertionsForKey item.key ++ [item] := by
    intro other
    rw [mem_assertionsForKey, addAssertion_assertions, List.mem_append, List.mem_singleton]
    by_cases here : other.id = item.id
    · rw [here, AList.lookup_insert]
      constructor
      · intro found
        exact Or.inr (Option.some.inj found.1).symm
      · intro either
        rcases either with old | same
        · exact absurd here (fresh other old)
        · exact ⟨congrArg some same.symm, congrArg Assertion.key same⟩
    · rw [AList.lookup_insert_ne here, ← mem_assertionsForKey]
      constructor
      · exact Or.inl
      · intro either
        exact either.resolve_right fun same => here (congrArg Assertion.id same)
  have nodup : (store.assertionsForKey item.key ++ [item]).Nodup := by
    rw [List.nodup_append']
    refine ⟨nodup_located _, List.nodup_singleton item, ?_⟩
    rw [List.disjoint_singleton]
    intro old
    exact fresh item old rfl
  have ordered : (store.assertionsForKey item.key ++ [item]).Pairwise Earlier := by
    rw [List.pairwise_append]
    refine ⟨pairwise_located _, List.pairwise_singleton _ _, ?_⟩
    intro other old last here
    rw [List.mem_singleton.mp here]
    exact Or.inl (latest other old)
  refine List.Perm.eq_of_pairwise ?_ (pairwise_located _) ordered
    ((List.perm_ext_iff_of_nodup (nodup_located _) nodup).mpr members)
  intro first second member member' before after
  exact eq_of_earlier member ((members second).mpr member') before after

theorem addRelations_spec (rels : List AssertionRelation) (store : MemoryStore V) :
    (rels.foldl addRelation store).assertions = store.assertions ∧
      (rels.foldl addRelation store).state = store.state ∧
      (rels.foldl addRelation store).relations = store.relations ++ rels := by
  induction rels generalizing store with
  | nil => exact ⟨rfl, rfl, (List.append_nil _).symm⟩
  | cons rel rest ih =>
      obtain ⟨assertions, state, relations⟩ := ih (store.addRelation rel)
      refine ⟨assertions, state, ?_⟩
      rw [List.foldl_cons, relations]
      exact List.append_assoc store.relations [rel] rest

end Order

end MemoryStore
end DurableContext.Cascade
