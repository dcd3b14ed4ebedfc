import DurableContext.Cascade.Invariant

/-! The targets whose expected values and dependencies a change of the store leaves alone. -/

namespace DurableContext.Cascade

open Maintenance (EvidenceRecord)

variable {V : Type} {reprs : Reprs V} {store other : MemoryStore V} {key : StateKey}
  {target : Target} {subject : String}

structure Unaffected (reprs : Reprs V) (store other : MemoryStore V) (target : Target) : Prop where
  dependencies : target.dependencies reprs other = target.dependencies reprs store
  expected : target.expected reprs other = target.expected reprs store

theorem Unaffected.trans {third : MemoryStore V} (first : Unaffected reprs store other target)
    (second : Unaffected reprs other third target) : Unaffected reprs store third target :=
  ⟨second.dependencies.trans first.dependencies, second.expected.trans first.expected⟩

/-- A cell is made of its key's assertions and the relations among them. -/
structure SameCell (store other : MemoryStore V) (key : StateKey) : Prop where
  items : other.assertionsForKey key = store.assertionsForKey key
  relations : other.relationsForAssertions
      ((store.assertionsForKey key).map Assertion.id).toFinset =
    store.relationsForAssertions ((store.assertionsForKey key).map Assertion.id).toFinset

theorem SameCell.cell (same : SameCell store other key) :
    expectedCell reprs other key = expectedCell reprs store key := by
  unfold expectedCell reconciledCell
  simp only [same.items, same.relations]

theorem SameCell.state (same : SameCell store other key) :
    Unaffected reprs store other (.state key) where
  dependencies := by
    simp only [Target.dependencies, stateDependencies, same.items, same.relations]
  expected := congrArg Value.state same.cell

theorem activeAssertions_congr (same : SameCell store other key) {cell : StateCell V}
    (held : expectedCell reprs store key = some cell) :
    activeAssertions other cell = activeAssertions store cell := by
  refine List.filterMap_congr fun id listed => ?_
  obtain ⟨item, member, here⟩ := mem_activeAssertionIds held listed
  have before := (MemoryStore.mem_assertionsForKey.mp member).1
  rw [← same.items] at member
  have after := (MemoryStore.mem_assertionsForKey.mp member).1
  rw [← here, before, after]

theorem evidencePayloads_congr {cell : StateCell V}
    (items : activeAssertions other cell = activeAssertions store cell)
    (evidence : ∀ id ∈ (activeAssertions store cell).flatMap Assertion.evidenceIds,
      other.evidence.lookup id = store.evidence.lookup id) :
    evidencePayloads other cell = evidencePayloads store cell := by
  unfold evidencePayloads
  simp only [items]
  congr 2
  exact List.filterMap_congr fun id cited => by rw [evidence id cited]

theorem SameCell.support (same : SameCell store other key)
    (evidence : ∀ id, evidenceNode id ∈ (Target.support key).dependencies reprs store →
      other.evidence.lookup id = store.evidence.lookup id) :
    Unaffected reprs store other (.support key) := by
  have cells : expectedCell reprs other key = expectedCell reprs store key := same.cell
  cases held : expectedCell reprs store key with
  | none =>
      rw [held] at cells
      refine ⟨?_, ?_⟩
      · simp only [Target.dependencies, held, cells, supportDependencies]
      · simp only [Target.expected, expectedSupport, held, cells, Option.map_none]
  | some cell =>
      rw [held] at cells
      have items := activeAssertions_congr same held
      have payloads := evidencePayloads_congr items fun id cited => evidence id (by
        simp only [Target.dependencies, held, supportDependencies, Finset.mem_insert,
          Finset.mem_union, List.mem_toFinset, List.mem_map]
        exact Or.inr (Or.inr ⟨id, cited, rfl⟩))
      refine ⟨?_, ?_⟩
      · simp only [Target.dependencies, held, cells, supportDependencies, items]
      · simp only [Target.expected, expectedSupport, held, cells, Option.map_some, supportSnapshot,
          payloads]

theorem Unaffected.context (support : Unaffected reprs store other (.support key)) :
    Unaffected reprs store other (.context key) where
  dependencies := rfl
  expected := by
    have same : expectedSupport reprs other key = expectedSupport reprs store key :=
      Value.support.inj support.expected
    simp only [Target.expected, expectedContext, same]

/-- A profile is made of the ids, predicates and evidence of its subject's assertions. -/
structure SameSubject (store other : MemoryStore V) (subject : String) : Prop where
  ids : ∀ id, (∃ item ∈ other.assertionsForSubject subject, item.id = id) ↔
    ∃ item ∈ store.assertionsForSubject subject, item.id = id
  predicates : ∀ predicate, (∃ item ∈ other.assertionsForSubject subject,
      item.predicate = predicate) ↔
    ∃ item ∈ store.assertionsForSubject subject, item.predicate = predicate
  cited : ∀ id, (∃ item ∈ other.assertionsForSubject subject, id ∈ item.evidenceIds) ↔
    ∃ item ∈ store.assertionsForSubject subject, id ∈ item.evidenceIds

theorem SameSubject.of_items
    (items : other.assertionsForSubject subject = store.assertionsForSubject subject) :
    SameSubject store other subject :=
  ⟨fun _ => by rw [items], fun _ => by rw [items], fun _ => by rw [items]⟩

theorem SameSubject.profile (same : SameSubject store other subject)
    (evidence : ∀ id, evidenceNode id ∈ (Target.profile subject).dependencies reprs store →
      other.evidence.lookup id = store.evidence.lookup id) :
    Unaffected reprs store other (.profile subject) := by
  have ids : ((other.assertionsForSubject subject).map fun item => assertionNode item.id).toFinset =
      ((store.assertionsForSubject subject).map fun item => assertionNode item.id).toFinset := by
    ext name
    simp only [List.mem_toFinset, List.mem_map]
    constructor
    · intro found
      obtain ⟨item, member, here⟩ := found
      obtain ⟨item', member', here'⟩ := (same.ids item.id).mp ⟨item, member, rfl⟩
      exact ⟨item', member', by rw [here', here]⟩
    · intro found
      obtain ⟨item, member, here⟩ := found
      obtain ⟨item', member', here'⟩ := (same.ids item.id).mpr ⟨item, member, rfl⟩
      exact ⟨item', member', by rw [here', here]⟩
  have cited : ((other.assertionsForSubject subject).flatMap Assertion.evidenceIds).toFinset =
      ((store.assertionsForSubject subject).flatMap Assertion.evidenceIds).toFinset := by
    ext id
    simp only [List.mem_toFinset, List.mem_flatMap]
    exact same.cited id
  have predicates : ((other.assertionsForSubject subject).map Assertion.predicate).toFinset =
      ((store.assertionsForSubject subject).map Assertion.predicate).toFinset := by
    ext predicate
    simp only [List.mem_toFinset, List.mem_map]
    exact same.predicates predicate
  have nodes : (((other.assertionsForSubject subject).flatMap Assertion.evidenceIds).map
        evidenceNode).toFinset =
      (((store.assertionsForSubject subject).flatMap Assertion.evidenceIds).map
        evidenceNode).toFinset := by
    ext name
    simp only [List.mem_toFinset, List.mem_map]
    refine exists_congr fun id => and_congr_left fun _ => ?_
    rw [← List.mem_toFinset, ← List.mem_toFinset, cited]
  refine ⟨?_, ?_⟩
  · simp only [Target.dependencies, profileDependencies, ids, nodes]
  · simp only [Target.expected, SubjectProfileIndex.snapshotSubject, cited, predicates]
    congr 3
    refine List.flatMap_congr fun id listed => ?_
    rw [mem_sorted, List.mem_toFinset] at listed
    have member : evidenceNode id ∈ (Target.profile subject).dependencies reprs store := by
      simp only [Target.dependencies, profileDependencies, Finset.mem_union, List.mem_toFinset,
        List.mem_map]
      exact Or.inr ⟨id, listed, rfl⟩
    rw [evidence id member]

section Changes

theorem unaffected_evidence (assertions : other.assertions = store.assertions)
    (relations : other.relations = store.relations) {changed : String}
    (evidence : ∀ id, id ≠ changed → other.evidence.lookup id = store.evidence.lookup id)
    (away : ∀ target', (target' = target ∨ target.below = some target') →
      evidenceNode changed ∉ target'.dependencies reprs store) :
    Unaffected reprs store other target := by
  have cell : ∀ key, SameCell store other key := by
    intro key
    refine ⟨MemoryStore.assertionsForKey_congr fun id item _ => by rw [assertions],
      MemoryStore.relationsForAssertions_congr fun id _ => by rw [relations]⟩
  have kept : ∀ target' : Target, evidenceNode changed ∉ target'.dependencies reprs store →
      ∀ id, evidenceNode id ∈ target'.dependencies reprs store →
        other.evidence.lookup id = store.evidence.lookup id := by
    intro target' out id inside
    refine evidence id fun same => out ?_
    rw [← same]
    exact inside
  cases target with
  | profile subject =>
      refine SameSubject.profile (.of_items ?_) (kept _ (away _ (Or.inl rfl)))
      exact MemoryStore.assertionsForSubject_congr fun id item _ => by rw [assertions]
  | state key => exact (cell key).state
  | support key => exact (cell key).support (kept _ (away _ (Or.inl rfl)))
  | context key => exact ((cell key).support (kept _ (away _ (Or.inr rfl)))).context

def Target.Of (target : Target) (keys : List StateKey) (subjects : List String) : Prop :=
  match target with
  | .profile subject => subject ∈ subjects
  | .state key => key ∈ keys
  | .support key => key ∈ keys
  | .context key => key ∈ keys

theorem unaffected_cells (evidence : other.evidence = store.evidence) {keys : List StateKey}
    {subjects : List String} (cell : ∀ key, key ∉ keys → SameCell store other key)
    (profile : ∀ subject, subject ∉ subjects → SameSubject store other subject)
    (away : ¬ target.Of keys subjects) : Unaffected reprs store other target := by
  cases target with
  | profile subject => exact (profile subject away).profile fun id _ => by rw [evidence]
  | state key => exact (cell key away).state
  | support key => exact (cell key away).support fun id _ => by rw [evidence]
  | context key => exact ((cell key away).support fun id _ => by rw [evidence]).context

theorem unaffected_canonical (evidence : other.evidence = store.evidence)
    (assertions : other.assertions = store.assertions)
    (relations : other.relations = store.relations) (target : Target) :
    Unaffected reprs store other target := by
  have nothing : ¬ target.Of [] [] := by
    cases target <;> exact List.not_mem_nil
  refine unaffected_cells evidence (fun key _ => ⟨?_, ?_⟩) (fun subject _ => .of_items ?_) nothing
  · exact MemoryStore.assertionsForKey_congr fun id item _ => by rw [assertions]
  · exact MemoryStore.relationsForAssertions_congr fun id _ => by rw [relations]
  · exact MemoryStore.assertionsForSubject_congr fun id item _ => by rw [assertions]

end Changes

end DurableContext.Cascade
