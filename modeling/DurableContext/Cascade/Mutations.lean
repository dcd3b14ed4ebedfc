import DurableContext.Cascade.Shape

/-! The maintainer's mutations: what each makes invalid covers what it changes, so that the nodes that
stay fresh hold what a new materialization would. -/

namespace DurableContext.Cascade

open DependencyGraph Materialization
open Maintenance (EvidenceRecord)

variable {V : Type} {reprs : Reprs V} {m m' middle : Materialization V} {store : MemoryStore V}
  {chosen : String → Prop} {targets : List Target} {statuses : Table String DerivationStatus}

/-- The nodes that are chosen have become invalid, with all that rest on them, and the others are as
they were. -/
structure Dirtied (chosen : String → Prop) (m m' : Materialization V) : Prop where
  shaped : Shaped m'
  value : ∀ target, m'.value target = m.value target
  posted : m.index.Posted → m'.index.Posted
  dirty : ∀ target : Target, target.Proper → chosen target.node → m'.statusOf target = some .invalid
  kept : ∀ target : Target, target.Proper → ¬ chosen target.node →
    m'.statusOf target = m.statusOf target ∧
      ((m.statusOf target).isSome → m'.dependenciesOf target = m.dependenciesOf target)
  upwards : ∀ target lower : Target, target.Proper → target.below = some lower →
    chosen lower.node → (m.statusOf target).isSome → chosen target.node

theorem Extended.dirtied (extended : Extended targets { m with store } middle)
    (state : store.state = m.store.state)
    (registered : ∀ node, chosen node → (middle.graph.statusOf node).isSome)
    (inside : ∀ node, chosen node → statuses.lookup node = some .invalid)
    (outside : ∀ node, ¬ chosen node → statuses.lookup node = middle.graph.statusOf node)
    (upwards : ∀ source node, chosen source → node ∈ middle.graph.dependentsOf source → chosen node)
    (listed : ∀ target ∈ targets, chosen target.node) :
    Dirtied chosen m { middle with graph := { middle.graph with status := statuses } } where
  shaped := by
    refine extended.shaped.restatus fun node => ?_
    by_cases here : chosen node
    · rw [inside node here]
      exact iff_of_true rfl (registered node here)
    · rw [outside node here]
  value := by
    intro target
    refine Eq.trans ?_ ((extended.value target).trans ?_)
    · cases target <;> rfl
    · cases target with
      | state key => exact congrArg (fun held => Value.state (held.lookup key)) state
      | profile subject | support key | context key => rfl
  posted := extended.posted
  dirty := fun target _ here => inside target.node here
  kept := by
    intro target proper out
    cases held : m.statusOf target with
    | none =>
        refine ⟨?_, fun registered => by cases registered⟩
        refine (outside target.node out).trans ?_
        rcases extended.added target proper held with still | ⟨_, member⟩
        · exact still
        · exact absurd (listed target member) out
    | some found =>
        have before : (m.statusOf target).isSome := by
          rw [held]
          rfl
        obtain ⟨same, edges⟩ := extended.kept target proper before
        exact ⟨((outside target.node out).trans same).trans held, fun _ => edges⟩
  upwards := by
    intro target lower proper below here before
    refine upwards lower.node target.node here (extended.shaped.above proper below ?_)
    rw [(extended.kept target proper before).1]
    exact before

section Kept

theorem Dirtied.fresh (dirtied : Dirtied chosen m m') {target : Target} (proper : target.Proper)
    (fresh : m'.statusOf target = some .fresh) :
    ¬ chosen target.node ∧ m.statusOf target = some .fresh := by
  have out : ¬ chosen target.node := by
    intro here
    rw [dirtied.dirty target proper here] at fresh
    cases fresh
  exact ⟨out, (dirtied.kept target proper out).1.symm.trans fresh⟩

theorem Sound.dirtied (sound : Sound reprs m) (dirtied : Dirtied chosen m m')
    (known : Known m'.store)
    (clean : ∀ target : Target, target.Proper → ¬ chosen target.node →
      m.statusOf target = some .fresh → Unaffected reprs m.store m'.store target)
    (present : ∀ target : Target, target.Proper → ¬ chosen target.node →
      (target.Present m'.store ↔ target.Present m.store)) : Sound reprs m' where
  toShaped := dirtied.shaped
  known := known
  posted := dirtied.posted sound.posted
  fresh := by
    intro target proper fresh
    obtain ⟨out, before⟩ := dirtied.fresh proper fresh
    obtain ⟨edges, held, rests⟩ := sound.fresh target proper before
    have registered : (m.statusOf target).isSome := by
      rw [before]
      rfl
    have same := clean target proper out before
    refine ⟨?_, ?_, ?_⟩
    · rw [(dirtied.kept target proper out).2 registered, edges, same.dependencies]
    · rw [dirtied.value, held, same.expected]
    · intro lower below
      have lowerOut : ¬ chosen lower.node := fun here =>
        out (dirtied.upwards target lower proper below here registered)
      rw [(dirtied.kept lower (proper.below below) lowerOut).1]
      exact rests lower below
  absent := by
    intro target proper none
    have out : ¬ chosen target.node := by
      intro here
      rw [dirtied.dirty target proper here] at none
      cases none
    rw [dirtied.value]
    exact sound.absent target proper ((dirtied.kept target proper out).1.symm.trans none)
  improper := by
    intro target improper
    rw [dirtied.value]
    exact sound.improper target improper
  present := by
    intro target held
    have proper : target.Proper := proper_of_present known held
    by_cases here : chosen target.node
    · rw [dirtied.dirty target proper here]
      rfl
    · rw [(dirtied.kept target proper here).1]
      exact sound.present target ((present target proper here).mp held)

theorem Settled.dirtied (settled : Settled m) (dirtied : Dirtied chosen m m') : Settled m' := by
  intro node held
  obtain ⟨target, proper, names⟩ := dirtied.shaped.named node (by rw [held]; rfl)
  have status : m'.statusOf target = some .rebuilding := by
    rw [Materialization.statusOf, names]
    exact held
  by_cases here : chosen target.node
  · rw [dirtied.dirty target proper here] at status
    cases status
  · rw [(dirtied.kept target proper here).1] at status
    exact settled target.node status

theorem mem_chain {key : StateKey} {target : Target} :
    target ∈ chain key ↔ target = .context key ∨ target = .support key ∨ target = .state key := by
  simp [chain]

theorem mem_chain_proper {key : StateKey} (proper : ProperKey key) {target : Target}
    (member : target ∈ chain key) : target.Proper := by
  rcases mem_chain.mp member with rfl | rfl | rfl <;> exact proper

theorem Tidy.dirtied (tidy : Tidy m) (dirtied : Dirtied chosen m m')
    (present : ∀ target : Target, target.Proper → ¬ chosen target.node →
      (target.Present m'.store ↔ target.Present m.store)) : Tidy m' where
  profiles := by
    intro subject fresh
    obtain ⟨out, before⟩ := @Dirtied.fresh _ _ _ _ dirtied (.profile subject) trivial fresh
    exact (present (.profile subject) trivial out).mpr (tidy.profiles subject before)
  keys := by
    intro key proper vanished whole target member
    have same : ∀ other ∈ chain key, ¬ chosen other.node ∧ m'.statusOf other = m.statusOf other := by
      intro other listed
      have out : ¬ chosen other.node := by
        intro here
        have dirty := dirtied.dirty other (mem_chain_proper proper listed) here
        rcases whole other listed with none | fresh
        · rw [none] at dirty
          cases dirty
        · rw [fresh] at dirty
          cases dirty
      exact ⟨out, (dirtied.kept other (mem_chain_proper proper listed) out).1⟩
    have before : m.store.assertionsForKey key = [] := by
      have bottom : Target.state key ∈ chain key := by simp [chain]
      exact not_not.mp fun held =>
        absurd vanished ((present (.state key) proper (same _ bottom).1).mpr held)
    rw [(same target member).2]
    refine tidy.keys key proper before ?_ target member
    intro other listed
    rw [← (same other listed).2]
    exact whole other listed

end Kept

section Invalidations

theorem Shaped.dirty_evidence (shaped : Shaped m) (state : store.state = m.store.state)
    (evidenceId : String) : Dirtied (m.graph.Reached [evidenceNode evidenceId]) m
      (CascadeMaintainer.invalidateFrom { m with store } [evidenceNode evidenceId]).2 := by
  obtain ⟨statuses, after, spec⟩ := invalidateFrom_spec m.graph [evidenceNode evidenceId]
  have ran : (CascadeMaintainer.invalidateFrom { m with store } [evidenceNode evidenceId]).2 =
      { m with
        store
        graph := { m.graph with status := statuses } } := by
    rw [← after]
    rfl
  rw [ran]
  have begun : Extended [] { m with store } { m with store } :=
    .same (shaped.congr rfl rfl rfl) rfl (fun _ => rfl) rfl rfl
  exact begun.dirtied state (fun node reached => shaped.linked.registered_of_reached reached)
    (fun node => (spec node).1) (fun node => (spec node).2.1)
    (fun source node reached edge => reached.step edge) (fun target member => by cases member)

def seededTargets (keys : List StateKey) (subjects : List String) : List Target :=
  (keys.flatMap fun key => (chain key).reverse) ++ subjects.map .profile

theorem mem_seededTargets {keys : List StateKey} {subjects : List String} {target : Target} :
    target ∈ seededTargets keys subjects ↔ target.Of keys subjects := by
  cases target <;> simp [seededTargets, chain, Target.Of]

theorem Shaped.dirty_seeds (shaped : Shaped m) (state : store.state = m.store.state)
    {keys : List StateKey} (proper : ∀ key ∈ keys, ProperKey key) (subjects : List String) :
    ∃ chosen, Dirtied chosen m (CascadeMaintainer.invalidateSeeds keys subjects
        { m with store }).2 ∧
      (CascadeMaintainer.invalidateSeeds keys subjects { m with store }).2.store = store ∧
      ∀ target : Target, target.Of keys subjects → chosen target.node := by
  have changed : Shaped { m with store } := shaped.congr rfl rfl rfl
  have first := changed.ensureKeys proper
  have extended := first.trans (first.shaped.ensureSubjects subjects)
  set middle := subjects.foldl Materialization.ensureProfile
    (keys.foldl Materialization.ensureStateChain { m with store }) with middle_eq
  set seeds := keys.map stateNode ++ subjects.map profileNode with seeds_eq
  obtain ⟨statuses, after, spec⟩ := invalidateNodes_spec middle.graph seeds
  have ran : (CascadeMaintainer.invalidateSeeds keys subjects { m with store }).2 =
      { middle with graph := { middle.graph with status := statuses } } := by
    rw [← after]
    rfl
  have bottom : ∀ target ∈ seededTargets keys subjects, target.node ∈ seeds →
      middle.graph.Seeded seeds target.node := fun target member listed =>
    Or.inl ⟨listed, extended.covered target member⟩
  have raise : ∀ target lower : Target, target ∈ seededTargets keys subjects →
      target.below = some lower → middle.graph.Seeded seeds lower.node →
      middle.graph.Seeded seeds target.node := fun target lower member below seeded =>
    seeded.step (extended.shaped.above (extended.proper target member) below
      (extended.covered target member))
  have listed : ∀ target ∈ seededTargets keys subjects,
      middle.graph.Seeded seeds target.node := by
    intro target member
    have inside := mem_seededTargets.mp member
    cases target with
    | profile subject =>
        exact bottom _ member (List.mem_append_right _ (List.mem_map_of_mem inside))
    | state key => exact bottom _ member (List.mem_append_left _ (List.mem_map_of_mem inside))
    | support key =>
        refine raise _ (.state key) member rfl ?_
        exact bottom _ (mem_seededTargets.mpr inside)
          (List.mem_append_left _ (List.mem_map_of_mem inside))
    | context key =>
        refine raise _ (.support key) member rfl ?_
        refine raise _ (.state key) (mem_seededTargets.mpr inside) rfl ?_
        exact bottom _ (mem_seededTargets.mpr inside)
          (List.mem_append_left _ (List.mem_map_of_mem inside))
  refine ⟨middle.graph.Seeded seeds, ?_, ?_, fun target inside =>
    listed target (mem_seededTargets.mpr inside)⟩
  · rw [ran]
    refine extended.dirtied state ?_ (fun node => (spec node).1) (fun node => (spec node).2.1)
      (fun source node seeded edge => seeded.step edge) listed
    intro node seeded
    rcases seeded with ⟨_, registered⟩ | reached
    · exact registered
    · exact extended.shaped.linked.registered_of_reached reached
  · rw [ran]
    exact extended.store

end Invalidations

section Stores

variable {other : MemoryStore V} {keys : List StateKey} {subjects : List String}
  {item : Assertion V}

/-- The stores differ in some keys and subjects only. -/
structure Covered (store other : MemoryStore V) (keys : List StateKey) (subjects : List String) :
    Prop where
  evidence : other.evidence = store.evidence
  cell : ∀ key, key ∉ keys → SameCell store other key
  profile : ∀ subject, subject ∉ subjects → SameSubject store other subject

theorem Covered.present (covered : Covered store other keys subjects) {target : Target}
    (away : ¬ target.Of keys subjects) : target.Present other ↔ target.Present store := by
  cases target with
  | profile subject =>
      have same := (covered.profile subject away).ids
      constructor
      · intro held
        obtain ⟨item, member⟩ := List.exists_mem_of_ne_nil _ held
        obtain ⟨item', member', _⟩ := (same item.id).mp ⟨item, member, rfl⟩
        exact List.ne_nil_of_mem member'
      · intro held
        obtain ⟨item, member⟩ := List.exists_mem_of_ne_nil _ held
        obtain ⟨item', member', _⟩ := (same item.id).mpr ⟨item, member, rfl⟩
        exact List.ne_nil_of_mem member'
  | state key | support key | context key =>
      have same := (covered.cell key away).items
      rw [Target.Present, Target.Present, same]

/-- An assertion that is written changes its key and the key it had, and the subjects too unless it
says the same of the same subject. -/
theorem covered_upsert (item : Assertion V) :
    Covered store (store.addAssertion item)
      (CascadeMaintainer.upsertSeeds item (store.assertions.lookup item.id)).1
      (CascadeMaintainer.upsertSeeds item (store.assertions.lookup item.id)).2 := by
  have lookup : ∀ id, (store.addAssertion item).assertions.lookup id =
      if id = item.id then some item else store.assertions.lookup id := by
    intro id
    rw [MemoryStore.addAssertion_assertions]
    by_cases here : id = item.id
    · rw [if_pos here, here, AList.lookup_insert]
    · rw [if_neg here, AList.lookup_insert_ne here]
  have located : ∀ (other : Assertion V) id, other ≠ item →
      (∀ previous, store.assertions.lookup item.id = some previous → other ≠ previous) →
      ((store.addAssertion item).assertions.lookup id = some other ↔
        store.assertions.lookup id = some other) := by
    intro other id apart apart'
    rw [lookup]
    by_cases here : id = item.id
    · rw [if_pos here, here]
      constructor
      · intro same
        exact absurd (Option.some.inj same).symm apart
      · intro held
        exact absurd rfl (apart' other held)
    · rw [if_neg here]
  refine ⟨MemoryStore.addAssertion_rest.2.2, fun key out => ?_, fun subject out => ?_⟩
  · simp only [CascadeMaintainer.upsertSeeds, List.mem_dedup, List.mem_append, Option.mem_toList,
      Option.map_eq_some_iff, List.mem_singleton, not_or, not_exists, not_and] at out
    refine ⟨MemoryStore.assertionsForKey_congr fun id other placed => ?_,
      MemoryStore.relationsForAssertions_congr fun id _ => by rw [MemoryStore.addAssertion_rest.1]⟩
    refine located other id ?_ ?_
    · intro same
      exact out.2 (by rw [← placed, same])
    · intro previous held same
      exact out.1 previous held (by rw [← placed, same])
  · by_cases changed : CascadeMaintainer.profileChanged item (store.assertions.lookup item.id) = true
    · simp only [CascadeMaintainer.upsertSeeds, changed, if_true, List.mem_dedup, List.mem_append,
        Option.mem_toList, Option.map_eq_some_iff, List.mem_singleton, not_or, not_exists,
        not_and] at out
      refine .of_items (MemoryStore.assertionsForSubject_congr fun id other placed => ?_)
      refine located other id ?_ ?_
      · intro same
        exact out.2 (by rw [← placed, same])
      · intro previous held same
        exact out.1 previous held (by rw [← placed, same])
    · obtain ⟨previous, held, agreed⟩ : ∃ previous, store.assertions.lookup item.id = some previous ∧
          previous.subjectId = item.subjectId ∧ previous.predicate = item.predicate ∧
            previous.evidenceIds = item.evidenceIds := by
        cases held : store.assertions.lookup item.id with
        | none =>
            rw [held] at changed
            exact absurd rfl changed
        | some previous =>
            rw [held, CascadeMaintainer.profileChanged, decide_eq_true_iff, not_or, not_or] at changed
            exact ⟨previous, rfl, not_not.mp changed.1, not_not.mp changed.2.1,
              not_not.mp changed.2.2⟩
      obtain ⟨subjects, predicates, evidence⟩ := agreed
      have named : previous.id = item.id := store.indexed.named item.id previous held
      have speaks : ∀ P : Assertion V → Prop, (P item ↔ P previous) →
          ((∃ other ∈ (store.addAssertion item).assertionsForSubject subject, P other) ↔
            ∃ other ∈ store.assertionsForSubject subject, P other) := by
        intro P same
        simp only [MemoryStore.mem_assertionsForSubject, lookup]
        constructor
        · intro found
          obtain ⟨other, ⟨stored, placed⟩, holds⟩ := found
          by_cases here : other.id = item.id
          · rw [if_pos here] at stored
            cases stored
            exact ⟨previous, ⟨by rw [named]; exact held, subjects.trans placed⟩, same.mp holds⟩
          · rw [if_neg here] at stored
            exact ⟨other, ⟨stored, placed⟩, holds⟩
        · intro found
          obtain ⟨other, ⟨stored, placed⟩, holds⟩ := found
          by_cases here : other.id = item.id
          · rw [here, held] at stored
            cases stored
            exact ⟨item, ⟨if_pos rfl, subjects.symm.trans placed⟩, same.mpr holds⟩
          · exact ⟨other, ⟨by rw [if_neg here]; exact stored, placed⟩, holds⟩
      exact ⟨fun id => speaks (fun other => other.id = id) (by rw [named]),
        fun predicate => speaks (fun other => other.predicate = predicate) (by rw [predicates]),
        fun id => speaks (fun other => id ∈ other.evidenceIds) (by rw [evidence])⟩

theorem covered_delete {assertionId : String} (held : store.assertions.lookup assertionId = some item) :
    Covered store (store.removeAssertion assertionId) [item.key] [item.subjectId] := by
  have located : ∀ (other : Assertion V) id, other ≠ item →
      ((store.removeAssertion assertionId).assertions.lookup id = some other ↔
        store.assertions.lookup id = some other) := by
    intro other id apart
    rw [MemoryStore.lookup_removeAssertion]
    by_cases here : id = assertionId
    · rw [here, AList.lookup_erase, held]
      constructor
      · intro same
        cases same
      · intro same
        exact absurd (Option.some.inj same).symm apart
    · rw [AList.lookup_erase_ne here]
  have relations : (store.removeAssertion assertionId).relations = store.relations := by
    simp only [MemoryStore.removeAssertion, Rows.removeAssertion]
    split <;> rfl
  refine ⟨MemoryStore.removeAssertion_rest assertionId, fun key out => ?_, fun subject out => ?_⟩
  · refine ⟨MemoryStore.assertionsForKey_congr fun id other placed => ?_,
      MemoryStore.relationsForAssertions_congr fun id _ => by rw [relations]⟩
    refine located other id fun same => out ?_
    rw [← placed, same]
    exact List.mem_singleton_self _
  · refine .of_items (MemoryStore.assertionsForSubject_congr fun id other placed => ?_)
    refine located other id fun same => out ?_
    rw [← placed, same]
    exact List.mem_singleton_self _

theorem covered_relation (relation : AssertionRelation) :
    Covered store (store.addRelation relation)
      (([relation.sourceAssertionId, relation.targetAssertionId].filterMap fun id =>
        store.assertions.lookup id).map Assertion.key).dedup [] := by
  refine ⟨rfl, fun key out => ?_, fun subject _ => .of_items rfl⟩
  refine ⟨rfl, MemoryStore.relationsForAssertions_congr fun id member => ?_⟩
  have missed : relation.sourceAssertionId ≠ id := by
    intro same
    obtain ⟨item, listed, named⟩ := List.mem_map.mp (List.mem_toFinset.mp member)
    obtain ⟨held, placed⟩ := MemoryStore.mem_assertionsForKey.mp listed
    refine out (List.mem_dedup.mpr (List.mem_map.mpr ⟨item, ?_, placed⟩))
    refine List.mem_filterMap.mpr ⟨relation.sourceAssertionId, List.mem_cons_self, ?_⟩
    rw [same, ← named, held]
  have appended : (store.addRelation relation).relations = store.relations ++ [relation] := rfl
  rw [appended, List.filter_append]
  simp [missed]

end Stores

structure Upheld (reprs : Reprs V) (m : Materialization V) : Prop extends Sound reprs m, Tidy m where
  settled : Settled m

section Steps

variable {item : Assertion V}

theorem Known.same {other : MemoryStore V} (known : Known other)
    (assertions : store.assertions = other.assertions) : Known store := by
  intro id item held
  rw [assertions] at held
  exact known id item held

theorem Known.upsert (known : Known store) (registered : (REGISTRY.lookup item.predicate).isSome) :
    Known (store.addAssertion item) := by
  intro id other held
  rw [MemoryStore.addAssertion_assertions] at held
  by_cases here : id = item.id
  · rw [here, AList.lookup_insert] at held
    cases held
    exact registered
  · rw [AList.lookup_insert_ne here] at held
    exact known id other held

theorem Known.delete (known : Known store) (assertionId : String) :
    Known (store.removeAssertion assertionId) := by
  intro id other held
  rw [MemoryStore.lookup_removeAssertion] at held
  by_cases here : id = assertionId
  · rw [here, AList.lookup_erase] at held
    cases held
  · rw [AList.lookup_erase_ne here] at held
    exact known id other held

theorem Known.key (known : Known store) {id : String} (held : store.assertions.lookup id = some item) :
    ProperKey item.key :=
  ⟨known id item held, rfl⟩

theorem Known.upsertKeys (known : Known store)
    (registered : (REGISTRY.lookup item.predicate).isSome) :
    ∀ key ∈ (CascadeMaintainer.upsertSeeds item (store.assertions.lookup item.id)).1,
      ProperKey key := by
  intro key member
  simp only [CascadeMaintainer.upsertSeeds, List.mem_dedup, List.mem_append, Option.mem_toList,
    Option.map_eq_some_iff, List.mem_singleton] at member
  rcases member with ⟨previous, held, rfl⟩ | rfl
  · exact known.key held
  · exact ⟨registered, rfl⟩

theorem Known.relationKeys (known : Known store) (ids : List String) :
    ∀ key ∈ ((ids.filterMap fun id => store.assertions.lookup id).map Assertion.key).dedup,
      ProperKey key := by
  intro key member
  obtain ⟨item, listed, placed⟩ := List.mem_map.mp (List.mem_dedup.mp member)
  obtain ⟨id, _, held⟩ := List.mem_filterMap.mp listed
  rw [← placed]
  exact known.key held

theorem Upheld.evidence (upheld : Upheld reprs m) (store : MemoryStore V) (state : store.state = m.store.state)
    (assertions : store.assertions = m.store.assertions)
    (relations : store.relations = m.store.relations) {evidenceId : String}
    (evidence : ∀ id, id ≠ evidenceId → store.evidence.lookup id = m.store.evidence.lookup id) :
    Upheld reprs
      (CascadeMaintainer.invalidateFrom { m with store } [evidenceNode evidenceId]).2 := by
  have dirtied := upheld.toShaped.dirty_evidence state evidenceId
  have present : ∀ target : Target, target.Present store ↔ target.Present m.store := by
    intro target
    have keys : ∀ key, store.assertionsForKey key = m.store.assertionsForKey key := fun key =>
      MemoryStore.assertionsForKey_congr fun id item _ => by rw [assertions]
    have subjects : ∀ subject, store.assertionsForSubject subject =
        m.store.assertionsForSubject subject := fun subject =>
      MemoryStore.assertionsForSubject_congr fun id item _ => by rw [assertions]
    cases target with
    | profile subject => rw [Target.Present, Target.Present, subjects]
    | state key | support key | context key => rw [Target.Present, Target.Present, keys]
  have reached : ∀ target : Target, target.Proper → m.statusOf target = some .fresh →
      evidenceNode evidenceId ∈ target.dependencies reprs m.store →
      m.graph.Reached [evidenceNode evidenceId] target.node := by
    intro target proper fresh cited
    rw [← (upheld.fresh target proper fresh).1] at cited
    exact ⟨_, List.mem_singleton_self _,
      .single ((upheld.linked.inverse _ target.node).mpr cited)⟩
  refine ⟨upheld.toSound.dirtied dirtied (upheld.known.same assertions) ?_ fun target _ _ =>
    present target, upheld.toTidy.dirtied dirtied fun target _ _ => present target,
    upheld.settled.dirtied dirtied⟩
  intro target proper out fresh
  refine unaffected_evidence assertions relations evidence fun target' here cited => ?_
  rcases here with same | below
  · rw [same] at cited
    exact out (reached target proper fresh cited)
  · have lower := (upheld.fresh target proper fresh).2.2 target' below
    refine out (dirtied.upwards target target' proper below
      (reached target' (proper.below below) lower cited) ?_)
    rw [fresh]
    rfl

theorem Upheld.seeds (upheld : Upheld reprs m) (store : MemoryStore V) (state : store.state = m.store.state)
    (known : Known store) {keys : List StateKey} {subjects : List String}
    (proper : ∀ key ∈ keys, ProperKey key) (covered : Covered m.store store keys subjects) :
    Upheld reprs (CascadeMaintainer.invalidateSeeds keys subjects { m with store }).2 := by
  obtain ⟨chosen, dirtied, after, listed⟩ := upheld.toShaped.dirty_seeds state proper subjects
  have away : ∀ target : Target, ¬ chosen target.node → ¬ target.Of keys subjects :=
    fun target out inside => out (listed target inside)
  refine ⟨upheld.toSound.dirtied dirtied ?_ ?_ ?_, upheld.toTidy.dirtied dirtied ?_,
    upheld.settled.dirtied dirtied⟩
  · rw [after]
    exact known
  · rw [after]
    intro target _ out _
    exact unaffected_cells covered.evidence covered.cell covered.profile (away target out)
  · rw [after]
    exact fun target _ out => covered.present (away target out)
  · rw [after]
    exact fun target _ out => covered.present (away target out)

theorem Upheld.upsertEvidence (upheld : Upheld reprs m) (item : EvidenceRecord) :
    Upheld reprs (CascadeMaintainer.upsertEvidence item m).2 :=
  upheld.evidence (m.store.addEvidence item) rfl rfl rfl fun _ apart => AList.lookup_insert_ne apart

theorem Upheld.deleteEvidence (upheld : Upheld reprs m) (evidenceId : String) :
    Upheld reprs (CascadeMaintainer.deleteEvidence evidenceId m).2 :=
  upheld.evidence (m.store.removeEvidence evidenceId) rfl rfl rfl fun _ apart =>
    AList.lookup_erase_ne apart

theorem Upheld.upsertAssertion (upheld : Upheld reprs m)
    (registered : (REGISTRY.lookup item.predicate).isSome) :
    Upheld reprs (CascadeMaintainer.upsertAssertion item m).2 :=
  upheld.seeds (m.store.addAssertion item) MemoryStore.addAssertion_rest.2.1
    (upheld.known.upsert registered) (upheld.known.upsertKeys registered) (covered_upsert item)

theorem Upheld.deleteAssertion (upheld : Upheld reprs m) (assertionId : String) :
    Upheld reprs (CascadeMaintainer.deleteAssertion assertionId m).2 := by
  unfold CascadeMaintainer.deleteAssertion
  cases held : m.store.assertions.lookup assertionId with
  | none => exact upheld
  | some previous =>
      refine upheld.seeds (m.store.removeAssertion assertionId) ?_ (upheld.known.delete assertionId) ?_ (covered_delete held)
      · simp only [MemoryStore.removeAssertion, Rows.removeAssertion]
        split <;> rfl
      · intro key member
        rw [List.mem_singleton.mp member]
        exact upheld.known.key held

theorem Upheld.addRelation (upheld : Upheld reprs m) (relation : AssertionRelation) :
    Upheld reprs (CascadeMaintainer.addRelation relation m).2 :=
  upheld.seeds (m.store.addRelation relation) rfl (upheld.known.same rfl)
    (upheld.known.relationKeys _) (covered_relation relation)

end Steps

end DurableContext.Cascade
