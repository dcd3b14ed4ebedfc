import DurableContext.Cascade.MaintainerRuns
import DurableContext.Cascade.Recovery

/-! The nodes that a maintenance intent affects: what its invalidation leaves to be rebuilt, what a
partial rebuild leaves of that, and what is made invalid again after it. -/

namespace DurableContext.Cascade

open DependencyGraph Materialization Program RecoveryCoordinator
open Maintenance (EvidenceRecord)

variable {V : Type} {reprs : Reprs V} {m m' middle : Materialization V}
  {store other : MemoryStore V} {target : Target} {affected : List String}

section Rows

structure SameRows (store other : MemoryStore V) : Prop where
  evidence : other.evidence = store.evidence
  assertions : other.assertions = store.assertions
  relations : other.relations = store.relations

theorem SameRows.trans {last : MemoryStore V} (first : SameRows store other)
    (second : SameRows other last) : SameRows store last :=
  ⟨second.evidence.trans first.evidence, second.assertions.trans first.assertions,
    second.relations.trans first.relations⟩

theorem SameRows.known (same : SameRows store other) (known : Known store) : Known other := by
  intro id item held
  rw [same.assertions] at held
  exact known id item held

theorem Covered.congr {keys : List StateKey} {subjects : List String} {last : MemoryStore V}
    (covered : Covered store other keys subjects) (same : SameRows other last) :
    Covered store last keys subjects where
  evidence := same.evidence.trans covered.evidence
  cell := by
    intro key away
    have items : last.assertionsForKey key = other.assertionsForKey key :=
      MemoryStore.assertionsForKey_congr fun id item _ => by rw [same.assertions]
    have relations : ∀ ids, last.relationsForAssertions ids = other.relationsForAssertions ids :=
      fun ids => MemoryStore.relationsForAssertions_congr fun id _ => by rw [same.relations]
    exact ⟨items.trans (covered.cell key away).items,
      (relations _).trans (covered.cell key away).relations⟩
  profile := by
    intro subject away
    have items : last.assertionsForSubject subject = other.assertionsForSubject subject :=
      MemoryStore.assertionsForSubject_congr fun id item _ => by rw [same.assertions]
    have before := covered.profile subject away
    exact ⟨fun id => items ▸ before.ids id, fun predicate => items ▸ before.predicates predicate,
      fun id => items ▸ before.cited id⟩

end Rows

namespace RecoveryCoordinator

inductive Request (V : Type) where
  | upsertEvidence (item : EvidenceRecord)
  | upsertAssertion (item : Assertion V)
  | deleteAssertion (assertionId : String)

namespace Request

def Registered : Request V → Prop
  | upsertAssertion item => (REGISTRY.lookup item.predicate).isSome
  | _ => True

def prepare (serial : Nat) : Request V → Work V String
  | upsertEvidence item => prepareUpsertEvidence serial item
  | upsertAssertion item => prepareUpsertAssertion serial item
  | deleteAssertion assertionId => prepareDeleteAssertion serial assertionId

def applied : Request V → MemoryStore V → MemoryStore V
  | upsertEvidence item => fun store => store.addEvidence item
  | upsertAssertion item => fun store => store.addAssertion item
  | deleteAssertion assertionId => fun store => store.removeAssertion assertionId

def intent (serial : Nat) (store : MemoryStore V) : Request V → MaintenanceIntent V
  | upsertEvidence item => { newIntent serial .upsertEvidence with evidence := some item }
  | upsertAssertion item =>
      { (newIntent serial .upsertAssertion : MaintenanceIntent V) with
        assertion := some item
        previousAssertion := store.assertions.lookup item.id }
  | deleteAssertion assertionId =>
      { (newIntent serial .deleteAssertion : MaintenanceIntent V) with
        assertionId := some assertionId
        previousAssertion := store.assertions.lookup assertionId }

/-- Only what is stored can be deleted. -/
def Accepted (store : MemoryStore V) : Request V → Prop
  | deleteAssertion assertionId => (store.assertions.lookup assertionId).isSome
  | _ => True

theorem intent_id (serial : Nat) (store : MemoryStore V) (request : Request V) :
    (request.intent serial store).id = intentId serial := by
  cases request <;> rfl

variable {request : Request V}

/-- The store has the rows of the request, and the cells of the store before it. -/
structure Written (request : Request V) (before store : MemoryStore V) : Prop where
  rows : SameRows (request.applied before) store
  state : store.state = before.state

theorem applied_state (request : Request V) (store : MemoryStore V) :
    (request.applied store).state = store.state := by
  cases request with
  | upsertEvidence item => rfl
  | upsertAssertion item => exact MemoryStore.addAssertion_rest.2.1
  | deleteAssertion assertionId =>
      simp only [applied, MemoryStore.removeAssertion, Rows.removeAssertion]
      split <;> rfl

theorem written_applied (request : Request V) (store : MemoryStore V) :
    request.Written store (request.applied store) :=
  ⟨⟨rfl, rfl, rfl⟩, request.applied_state store⟩

theorem removeAssertion_relations (store : MemoryStore V) (assertionId : String) :
    (store.removeAssertion assertionId).relations = store.relations := by
  simp only [MemoryStore.removeAssertion, Rows.removeAssertion]
  split <;> rfl

theorem Written.again (written : request.Written store other) :
    request.Written store (request.applied other) := by
  obtain ⟨⟨evidence, assertions, relations⟩, state⟩ := written
  refine ⟨?_, (request.applied_state other).trans state⟩
  cases request with
  | upsertEvidence item =>
      refine ⟨?_, assertions, relations⟩
      have once : other.evidence = store.evidence.insert item.id item := evidence
      calc (other.addEvidence item).evidence
          = other.evidence.insert item.id item := rfl
        _ = (store.evidence.insert item.id item).insert item.id item := by rw [once]
        _ = store.evidence.insert item.id item := AList.insert_insert _
  | upsertAssertion item =>
      have once : other.assertions = store.assertions.insert item.id item :=
        assertions.trans MemoryStore.addAssertion_assertions
      refine ⟨MemoryStore.addAssertion_rest.2.2.trans evidence, ?_,
        MemoryStore.addAssertion_rest.1.trans relations⟩
      calc (other.addAssertion item).assertions
          = other.assertions.insert item.id item := MemoryStore.addAssertion_assertions
        _ = (store.assertions.insert item.id item).insert item.id item := by rw [once]
        _ = store.assertions.insert item.id item := AList.insert_insert _
        _ = (store.addAssertion item).assertions := MemoryStore.addAssertion_assertions.symm
  | deleteAssertion assertionId =>
      have gone : other.assertions.lookup assertionId = none := by
        rw [assertions]
        exact (MemoryStore.lookup_removeAssertion assertionId assertionId).trans
          (AList.lookup_erase _ _)
      have kept : (other.removeAssertion assertionId).assertions = other.assertions := by
        simp only [MemoryStore.removeAssertion, Rows.removeAssertion, gone]
      exact ⟨(MemoryStore.removeAssertion_rest assertionId).trans evidence,
        kept.trans assertions, (removeAssertion_relations other assertionId).trans relations⟩

end Request
end RecoveryCoordinator

section Affected

/-- A materialization in need of a rebuild of the affected nodes, on which nothing else rests. -/
structure Repairable (reprs : Reprs V) (m : Materialization V) (affected : List String) : Prop where
  upheld : Upheld reprs m
  covered : ∀ node, m.graph.statusOf node = some .invalid → node ∈ affected
  closed : ∀ source ∈ affected, ∀ node ∈ m.graph.dependentsOf source, node ∈ affected

theorem invalidateFrom_closed (clean : Clean m) (roots : List String) :
    ∀ source ∈ (CascadeMaintainer.invalidateFrom m roots).1,
      ∀ node ∈ (CascadeMaintainer.invalidateFrom m roots).2.graph.dependentsOf source,
        node ∈ (CascadeMaintainer.invalidateFrom m roots).1 := by
  obtain ⟨statuses, after, spec⟩ := invalidateFrom_spec m.graph roots
  intro source listed node edge
  have same : (CascadeMaintainer.invalidateFrom m roots).2.graph =
      { m.graph with status := statuses } := after
  rw [same] at edge
  have reached := ((spec source).2.2.mp (mem_sorted.mp listed)).1
  exact mem_sorted.mpr ((spec node).2.2.mpr ⟨reached.step edge, clean node⟩)

theorem invalidateNodes_closed (clean : Clean m) (seeds : List String) :
    ∀ source ∈ (CascadeMaintainer.invalidateNodes m seeds).1,
      ∀ node ∈ (CascadeMaintainer.invalidateNodes m seeds).2.graph.dependentsOf source,
        node ∈ (CascadeMaintainer.invalidateNodes m seeds).1 := by
  obtain ⟨statuses, after, spec⟩ := invalidateNodes_spec m.graph seeds
  intro source listed node edge
  have same : (CascadeMaintainer.invalidateNodes m seeds).2.graph =
      { m.graph with status := statuses } := after
  rw [same] at edge
  have seeded := ((spec source).2.2.mp (mem_sorted.mp listed)).1
  exact mem_sorted.mpr ((spec node).2.2.mpr ⟨seeded.step edge, clean node⟩)

theorem Upheld.repairable_seeds (upheld : Upheld reprs m) (clean : Clean m)
    (state : store.state = m.store.state) (known : Known store) {keys : List StateKey}
    {subjects : List String} (proper : ∀ key ∈ keys, ProperKey key)
    (covered : Covered m.store store keys subjects) :
    Repairable reprs (CascadeMaintainer.invalidateSeeds keys subjects { m with store }).2
        (CascadeMaintainer.invalidateSeeds keys subjects { m with store }).1 ∧
      (CascadeMaintainer.invalidateSeeds keys subjects { m with store }).2.store = store := by
  have changed : Shaped { m with store } := upheld.toShaped.congr rfl rfl rfl
  have first := changed.ensureKeys proper
  have extended := first.trans (first.shaped.ensureSubjects subjects)
  have ready : Clean (subjects.foldl Materialization.ensureProfile
      (keys.foldl Materialization.ensureStateChain { m with store })) :=
    fun node invalid => clean node (extended.clean invalid)
  refine ⟨⟨upheld.seeds store state known proper covered, fun node invalid => ?_,
    invalidateNodes_closed ready _⟩, extended.store⟩
  rcases invalidateSeeds_emitted changed proper subjects invalid with before | emitted
  · exact absurd before (clean node)
  · exact emitted

theorem Upheld.repairable_evidence (upheld : Upheld reprs m) (clean : Clean m)
    (state : store.state = m.store.state) (assertions : store.assertions = m.store.assertions)
    (relations : store.relations = m.store.relations) {evidenceId : String}
    (evidence : ∀ id, id ≠ evidenceId → store.evidence.lookup id = m.store.evidence.lookup id) :
    Repairable reprs
        (CascadeMaintainer.invalidateFrom { m with store } [evidenceNode evidenceId]).2
        (CascadeMaintainer.invalidateFrom { m with store } [evidenceNode evidenceId]).1 ∧
      (CascadeMaintainer.invalidateFrom { m with store } [evidenceNode evidenceId]).2.store =
        store := by
  have ready : Clean { m with store } := clean
  refine ⟨⟨upheld.evidence store state assertions relations evidence, fun node invalid => ?_,
    invalidateFrom_closed ready _⟩, rfl⟩
  rcases invalidateFrom_emitted invalid with before | emitted
  · exact absurd before (clean node)
  · exact emitted

theorem Upheld.repairable (upheld : Upheld reprs m) (clean : Clean m) {request : Request V}
    (registered : request.Registered) (accepted : request.Accepted m.store)
    (written : request.Written m.store store) (serial : Nat) (phase : MaintenancePhase) :
    ∃ affected m', invalidated { request.intent serial m.store with phase } { m with store } =
        .ok (affected, m') ∧ Repairable reprs m' affected ∧ m'.store = store := by
  obtain ⟨rows, state⟩ := written
  cases request with
  | upsertEvidence item =>
      exact ⟨_, _, rfl, upheld.repairable_evidence clean state rows.assertions rows.relations
        fun id apart => by
          rw [rows.evidence]
          exact AList.lookup_insert_ne apart⟩
  | upsertAssertion item =>
      exact ⟨_, _, rfl, upheld.repairable_seeds clean state
        (rows.known (upheld.known.upsert registered)) (upheld.known.upsertKeys registered)
        ((covered_upsert item).congr rows)⟩
  | deleteAssertion assertionId =>
      obtain ⟨previous, held⟩ := Option.isSome_iff_exists.mp accepted
      have ran : invalidated { (Request.deleteAssertion assertionId).intent serial m.store with
          phase } { m with store } = .ok (CascadeMaintainer.invalidateSeeds [previous.key]
            [previous.subjectId] { m with store }) := by
        simp only [invalidated, Request.intent, newIntent, held]
      refine ⟨_, _, ran, upheld.repairable_seeds clean state
        (rows.known (upheld.known.delete assertionId)) ?_ ((covered_delete held).congr rows)⟩
      intro key member
      rw [List.mem_singleton.mp member]
      exact upheld.known.key held

end Affected

section Partial

theorem rebuildMarked_eq (kind : m.graph.kindOf target.node = some target.kind)
    (named : m.Names target) : rebuildMarked reprs target.node m =
      (writeTarget reprs target m).map (registerTarget target) := by
  unfold rebuildMarked
  rw [kind]
  cases target with
  | profile subject =>
      have found : m.subjectByProfileNode.lookup (profileNode subject) = some subject := named
      simp only [Target.kind, Target.node, found]
      rfl
  | state key =>
      have found : m.keyByNode.lookup (stateNode key) = some key := named
      simp only [Target.kind, Target.node, found]
      rfl
  | support key =>
      have found : m.keyByNode.lookup (supportNode key) = some key := named
      simp only [Target.kind, Target.node, found]
      rfl
  | context key =>
      have found : m.keyByNode.lookup (contextNode key) = some key := named
      simp only [Target.kind, Target.node, found]
      rfl

structure Partial (target : Target) (affected : List String) (m m' : Materialization V) : Prop where
  proper : target.Proper
  listed : target.node ∈ affected
  invalid : m.statusOf target = some .invalid
  touched : Touched target m m'
  marked : m'.statusOf target = some .rebuilding

theorem partial_ok (shaped : Shaped m) (known : Known m.store) (proper : target.Proper)
    (listed : target.node ∈ affected) (invalid : m.statusOf target = some .invalid) :
    ∃ graph m', m.graph.markRebuilding target.node = .ok graph ∧
      rebuildMarked reprs target.node { m with graph } = .ok m' ∧ Partial target affected m m' := by
  obtain ⟨graph, marked, first, status₁, _⟩ :=
    mark_ok shaped proper (by rw [invalid]; rfl) .rebuilding
  have registered₁ : (({ m with graph } : Materialization V).statusOf target).isSome := by
    rw [status₁]
    rfl
  obtain ⟨m₂, wrote, second, graph₂, _⟩ :=
    @writeTarget_ok _ reprs _ first.shaped (known.same first.assertions) target
  have registered₂ : (m₂.statusOf target).isSome := by
    rw [Materialization.statusOf, graph₂]
    exact registered₁
  obtain ⟨third, status₃, _⟩ := registerTarget_ok second.shaped proper registered₂
  refine ⟨graph, registerTarget target m₂, marked, ?_, proper, listed, invalid,
    (first.trans second).trans third, status₃⟩
  rw [rebuildMarked_eq (first.shaped.kinds target proper registered₁)
    (first.shaped.names target proper registered₁), wrote]
  rfl

/-- After a partial rebuild the node alone is neither invalid nor fresh as it was. -/
theorem Partial.kept (part : Partial target affected m m') (upheld : Upheld reprs m) :
    Sound reprs m' ∧ Tidy m' ∧
      ∀ node, m'.graph.statusOf node = some .rebuilding → node = target.node := by
  have touched := part.touched
  have sound : Sound reprs m' := by
    refine upheld.toSound.touched touched part.proper ?_ ?_ fun fresh => ?_
    · rw [part.invalid]
      simp
    · rw [part.marked]
      rfl
    · rw [part.marked] at fresh
      cases fresh
  refine ⟨sound, ⟨?_, ?_⟩, ?_⟩
  · intro subject fresh
    have apart : Target.profile subject ≠ target := by
      intro same
      rw [same, part.marked] at fresh
      cases fresh
    rw [touched.status (.profile subject) trivial apart] at fresh
    have present := upheld.profiles subject fresh
    exact (@Target.present_congr _ (.profile subject) _ _ touched.assertions).mpr present
  · intro key proper vanished whole other here
    have away : ∀ other ∈ chain key, m'.statusOf other = m.statusOf other := by
      intro other here
      refine touched.status other (mem_chain_proper proper here) fun same => ?_
      rcases whole other here with none | fresh
      · rw [same, part.marked] at none
        cases none
      · rw [same, part.marked] at fresh
        cases fresh
    have before : m.store.assertionsForKey key = [] := by
      rw [← vanished]
      exact (MemoryStore.assertionsForKey_congr fun id item _ => by rw [touched.assertions]).symm
    rw [away other here]
    refine upheld.keys key proper before (fun lower there => ?_) other here
    rw [← away lower there]
    exact whole lower there
  · intro node working
    by_contra apart
    rw [touched.status_node upheld.toShaped apart] at working
    exact upheld.settled node working

theorem Repairable.reinvalidated (repairable : Repairable reprs m affected)
    (part : Partial target affected m m') :
    Repairable reprs (CascadeMaintainer.invalidateNodes m' affected).2 affected ∧
      SameRows m.store (CascadeMaintainer.invalidateNodes m' affected).2.store := by
  obtain ⟨sound, tidy, working⟩ := part.kept repairable.upheld
  have touched := part.touched
  have closed : ∀ source ∈ affected, ∀ node ∈ m'.graph.dependentsOf source, node ∈ affected := by
    intro source listed node edge
    by_cases here : node = target.node
    · rw [here]
      exact part.listed
    · have depends := (sound.linked.inverse source node).mp edge
      obtain ⟨other, proper, names⟩ := sound.named node (sound.linked.registered_of_mem edge)
      have same := touched.dependencies other proper fun same => here (by rw [← names, same])
      rw [Materialization.dependenciesOf, Materialization.dependenciesOf, names] at same
      rw [same] at depends
      exact repairable.closed source listed node
        ((repairable.upheld.linked.inverse source node).mpr depends)
  have inside : ∀ node, m'.graph.Seeded affected node → node ∈ affected := by
    intro node seeded
    rcases seeded with ⟨listed, _⟩ | ⟨root, listed, path⟩
    · exact listed
    · have first := (List.mem_filter.mp listed).1
      induction path with
      | single edge => exact closed _ first _ edge
      | tail _ edge ih => exact closed _ ih _ edge
  obtain ⟨statuses, after, spec⟩ := invalidateNodes_spec m'.graph affected
  have ran : (CascadeMaintainer.invalidateNodes m' affected).2 =
      { m' with graph := { m'.graph with status := statuses } } := by
    rw [← after]
    rfl
  have begun : Extended [] { m' with store := m'.store } m' :=
    .same sound.toShaped rfl (fun _ => rfl) rfl rfl
  have dirtied : Dirtied (m'.graph.Seeded affected) m'
      { m' with graph := { m'.graph with status := statuses } } := by
    refine begun.dirtied rfl ?_ (fun node => (spec node).1) (fun node => (spec node).2.1)
      (fun source node seeded edge => seeded.step edge) fun target member => by cases member
    intro node seeded
    rcases seeded with ⟨_, registered⟩ | reached
    · exact registered
    · exact sound.linked.registered_of_reached reached
  have same : ∀ other, Unaffected reprs m'.store m'.store other := fun _ => ⟨rfl, rfl⟩
  have seeded : m'.graph.Seeded affected target.node :=
    Or.inl ⟨part.listed, by rw [show m'.graph.statusOf target.node = _ from part.marked]; rfl⟩
  rw [ran]
  refine ⟨⟨⟨sound.dirtied dirtied sound.known (fun target _ _ _ => same target)
    fun _ _ _ => Iff.rfl, tidy.dirtied dirtied fun _ _ _ => Iff.rfl, ?_⟩, ?_, closed⟩,
    touched.evidence, touched.assertions, touched.relations⟩
  · intro node held
    have status : statuses.lookup node = some .rebuilding := held
    by_cases chosen : m'.graph.Seeded affected node
    · rw [(spec node).1 chosen] at status
      cases status
    · rw [(spec node).2.1 chosen] at status
      rw [working node status] at chosen
      exact chosen seeded
  · intro node held
    have status : statuses.lookup node = some .invalid := held
    by_cases chosen : m'.graph.Seeded affected node
    · exact inside node chosen
    · rw [(spec node).2.1 chosen] at status
      have apart : node ≠ target.node := fun here => chosen (here ▸ seeded)
      rw [touched.status_node repairable.upheld.toShaped apart] at status
      exact repairable.covered node status

end Partial

end DurableContext.Cascade
