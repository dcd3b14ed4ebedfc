import DurableContext.Cascade.Creation
import DurableContext.Cascade.Retirement

/-! Runs of a cascade maintainer: mutations and rebuilds of any nodes in any order. What is read is
never stale, and when no node is invalid all is as if the materialization had been made anew. -/

namespace DurableContext.Cascade

open DependencyGraph Materialization Program Session
open Maintenance (EvidenceRecord)

variable {V : Type} {reprs : Reprs V} {m m' : Materialization V} {target : Target}
  {final : Session V}

/-- What a rebuild has done once it has also retired what has vanished. -/
structure Rebuilt (reprs : Reprs V) (m : Materialization V) (names : List String)
    (middle final : Session V) : Prop where
  advanced : Advanced reprs (.start m) middle
  targets : ∀ name ∈ names, middle.held.graph.statusOf name ≠ some .invalid
  cleared : Cleared middle final
  subjects : ∀ subject, Target.node (.profile subject) ∈ middle.rebuilt →
    m.store.assertionsForSubject subject = [] →
    final.held.statusOf (.profile subject) ≠ some .fresh
  keys : ∀ key, ProperKey key → (∃ target ∈ chain key, target.node ∈ middle.rebuilt) →
    m.store.assertionsForKey key = [] →
    (∀ target ∈ chain key, final.held.statusOf target = none ∨
      final.held.statusOf target = some .fresh) →
    ∀ target ∈ chain key, final.held.statusOf target = none
  profiles : ∀ subject, Target.node (.profile subject) ∉ middle.rebuilt →
    final.held.statusOf (.profile subject) = middle.held.statusOf (.profile subject)
  chains : ∀ key, ProperKey key → (∀ target ∈ chain key, target.node ∉ middle.rebuilt) →
    ∀ target ∈ chain key, final.held.statusOf target = middle.held.statusOf target

theorem rebuild_spec (shaped : Shaped m) (known : Known m.store) (targets : Option (List String)) :
    Outcome (Session.rebuild reprs targets) (.start m)
      (fun _ final => ∃ middle, Rebuilt reprs m (targets.getD m.graph.invalidNodes) middle final)
      fun _ _ => False := by
  have ready : Ready (Session.start m) :=
    ⟨shaped, known, fun node member => absurd member (Finset.notMem_empty _)⟩
  rw [Outcome, Session.rebuild, bind_of_ok (get_run _)]
  refine Outcome.bind (rebuildTargets_spec m.graph.status.entries.length
    (targets.getD m.graph.invalidNodes) ready rfl fun target proper registered =>
      shaped.deep proper registered) fun _ middle reached => ?_
  obtain ⟨advanced, ended⟩ := reached
  have shaped' : Shaped middle.held := advanced.ready.shaped
  have listed : Listed middle.held middle.rebuilt := by
    intro node member
    rcases advanced.rebuilt node member with before | ⟨_, fresh⟩
    · exact absurd before (Finset.notMem_empty _)
    · rw [fresh]
      rfl
  have keyRows : ∀ key, middle.held.store.assertionsForKey key = m.store.assertionsForKey key :=
    fun key => MemoryStore.assertionsForKey_congr fun id item _ => by rw [advanced.assertions]; rfl
  have subjectRows : ∀ subject, middle.held.store.assertionsForSubject subject =
      m.store.assertionsForSubject subject := fun subject =>
    MemoryStore.assertionsForSubject_congr fun id item _ => by rw [advanced.assertions]; rfl
  rw [Outcome, bind_of_ok (get_run _), retireRebuiltAbsent, bind_of_ok (get_run _)]
  refine Outcome.bind (retireSubjects_spec shaped' (subjectsOf middle middle.rebuilt))
    fun _ between reached => ?_
  obtain ⟨cleared, left, others⟩ := reached
  refine (@retireKeys_spec _ between cleared.retired.shaped (keysOf middle middle.rebuilt)
    fun key member => ((mem_keysOf shaped' listed).mp member).1).mono (fun _ final reached => ?_)
    fun _ _ absurdity => absurdity
  obtain ⟨cleared', left', others'⟩ := reached
  refine ⟨middle,
    { advanced := advanced
      targets := ended
      cleared := cleared.trans cleared'
      subjects := ?_
      keys := ?_
      profiles := ?_
      chains := ?_ }⟩
  · intro subject member vanished fresh
    refine left subject ((mem_subjectsOf shaped' listed).mpr member) ?_ ?_
    · rw [subjectRows]
      exact vanished
    · rw [← others' (.profile subject) trivial List.not_mem_nil]
      exact fresh
  · intro key proper member vanished whole
    refine left' key ((mem_keysOf shaped' listed).mpr ⟨proper, member⟩) ?_ whole
    rw [cleared.retired.store, keyRows]
    exact vanished
  · intro subject out
    rw [others' (.profile subject) trivial List.not_mem_nil]
    exact others (.profile subject) trivial fun member =>
      out ((mem_subjectsOf shaped' listed).mp member)
  · intro key proper out target here
    have away : key ∉ keysOf middle middle.rebuilt := by
      intro member
      obtain ⟨_, other, there, inside⟩ := (mem_keysOf shaped' listed).mp member
      exact out other there inside
    have proper' := mem_chain_proper proper here
    rw [others' target proper' (by rcases mem_chain.mp here with rfl | rfl | rfl <;> exact away),
      others target proper' (by
        rcases mem_chain.mp here with rfl | rfl | rfl <;> exact List.not_mem_nil)]

section Kept

variable {names : List String} {middle : Session V}

theorem Rebuilt.assertions (rebuilt : Rebuilt reprs m names middle final) :
    final.held.store.assertions = m.store.assertions := by
  rw [rebuilt.cleared.retired.store]
  exact rebuilt.advanced.assertions

theorem Rebuilt.passed (rebuilt : Rebuilt reprs m names middle final) :
    ∀ image ∈ final.images, Passed reprs m image := by
  intro image member
  rcases rebuilt.cleared.images image member with before | retired
  · rcases rebuilt.advanced.images image before with none | passed
    · cases none
    · exact passed
  · have advanced := rebuilt.advanced
    refine ⟨retired.shaped, ?_, ?_, ?_, ?_, ?_⟩
    · rw [retired.store]
      exact advanced.evidence
    · rw [retired.store]
      exact advanced.assertions
    · rw [retired.store]
      exact advanced.relations
    · intro node invalid
      rcases retired.status_node advanced.ready.shaped node with same | ⟨_, gone⟩
      · exact advanced.invalid (same.symm.trans invalid)
      · rw [gone] at invalid
        cases invalid
    · intro sound settled
      exact (advanced.sound sound settled).1.retired retired

/-- Every invalid node that a rebuild comes to is in the middle of its rebuild in some image. -/
theorem Rebuilt.marked (rebuilt : Rebuilt reprs m names middle final) {node : String}
    (listed : node ∈ names) (invalid : m.graph.statusOf node = some .invalid) :
    ∃ image ∈ final.images, image.graph.statusOf node = some .rebuilding := by
  rcases rebuilt.advanced.status node with same | ⟨_, _, member⟩
  · exact absurd (same.trans invalid) (rebuilt.targets node listed)
  · rcases rebuilt.advanced.marked node member with before | ⟨image, passed, working⟩
    · exact absurd before (Finset.notMem_empty _)
    · exact ⟨image, rebuilt.cleared.longer passed, working⟩

theorem Upheld.rebuilt (upheld : Upheld reprs m) (rebuilt : Rebuilt reprs m names middle final) :
    Upheld reprs final.held := by
  obtain ⟨sound, settled⟩ := rebuilt.advanced.sound upheld.toSound upheld.settled
  have retired := rebuilt.cleared.retired
  have keyRows : ∀ key, final.held.store.assertionsForKey key = m.store.assertionsForKey key :=
    fun key => MemoryStore.assertionsForKey_congr fun id item _ => by rw [rebuilt.assertions]
  have subjectRows : ∀ subject, final.held.store.assertionsForSubject subject =
      m.store.assertionsForSubject subject := fun subject =>
    MemoryStore.assertionsForSubject_congr fun id item _ => by rw [rebuilt.assertions]
  -- A node that was not rebuilt is as it was at first.
  have kept : ∀ target : Target, target.node ∉ middle.rebuilt →
      middle.held.statusOf target = m.statusOf target := by
    intro target out
    rcases rebuilt.advanced.status target.node with same | ⟨_, _, member⟩
    · exact same
    · exact absurd member out
  refine ⟨sound.retired retired, ⟨?_, ?_⟩, ?_⟩
  · intro subject fresh
    rw [subjectRows]
    intro vanished
    have out : Target.node (.profile subject) ∉ middle.rebuilt := fun member =>
      rebuilt.subjects subject member vanished fresh
    rw [rebuilt.profiles subject out, kept _ out] at fresh
    exact upheld.profiles subject fresh vanished
  · intro key proper vanished whole
    rw [keyRows] at vanished
    by_cases inside : ∃ target ∈ chain key, target.node ∈ middle.rebuilt
    · exact rebuilt.keys key proper inside vanished whole
    · have out : ∀ target ∈ chain key, target.node ∉ middle.rebuilt := fun target here member =>
        inside ⟨target, here, member⟩
      have same : ∀ target ∈ chain key, final.held.statusOf target = m.statusOf target :=
        fun target here => (rebuilt.chains key proper out target here).trans
          (kept target (out target here))
      intro target here
      rw [same target here]
      refine upheld.keys key proper vanished (fun other there => ?_) target here
      rw [← same other there]
      exact whole other there
  · intro node working
    rcases retired.status_node rebuilt.advanced.ready.shaped node with same | ⟨_, gone⟩
    · exact settled node (same.symm.trans working)
    · rw [gone] at working
      cases working

end Kept

/-! ### What is read -/

section Read

variable {store : MemoryStore V} {key : StateKey}

theorem Target.present_congr {other : MemoryStore V}
    (assertions : other.assertions = store.assertions) :
    target.Present other ↔ target.Present store := by
  have byKey : ∀ key, other.assertionsForKey key = store.assertionsForKey key := fun key =>
    MemoryStore.assertionsForKey_congr fun id item _ => by rw [assertions]
  have bySubject : ∀ subject, other.assertionsForSubject subject =
      store.assertionsForSubject subject := fun subject =>
    MemoryStore.assertionsForSubject_congr fun id item _ => by rw [assertions]
  cases target with
  | profile subject => rw [Target.Present, Target.Present, bySubject]
  | state key | support key | context key => rw [Target.Present, Target.Present, byKey]

/-- What is held of a target that is fresh or not there is what the store gives. -/
theorem Sound.value_expected (sound : Sound reprs m)
    (status : m.statusOf target = none ∨ m.statusOf target = some .fresh) :
    m.value target = target.expected reprs m.store := by
  by_cases proper : target.Proper
  · rcases status with none | fresh
    · have gone : ¬ target.Present m.store := by
        intro here
        have registered := sound.present target here
        rw [none] at registered
        cases registered
      rw [sound.absent target proper none, expected_blank gone]
    · exact (sound.fresh target proper fresh).2.1
  · rw [sound.improper target proper,
      expected_blank fun here => proper (proper_of_present sound.known here)]

theorem Sound.readContext_fresh (sound : Sound reprs m)
    (status : m.graph.statusOf (contextNode key) = none ∨
      m.graph.statusOf (contextNode key) = some .fresh) :
    readContext m key = .ok (expectedContext reprs m.store key) := by
  have held : m.contexts.lookup key = expectedContext reprs m.store key :=
    Value.context.inj (@Sound.value_expected _ reprs m (.context key) sound status)
  unfold Materialization.readContext
  rcases status with none | fresh
  · simp only [none, held]
  · simp only [fresh, held]

theorem Sound.readContext (sound : Sound reprs m) (key : StateKey) :
    (∃ error, readContext m key = .error error) ∨
      readContext m key = .ok (expectedContext reprs m.store key) := by
  cases status : m.graph.statusOf (contextNode key) with
  | none => exact Or.inr (sound.readContext_fresh (Or.inl status))
  | some state =>
      cases state with
      | fresh => exact Or.inr (sound.readContext_fresh (Or.inr status))
      | invalid | rebuilding =>
          unfold Materialization.readContext
          simp only [status]
          exact Or.inl ⟨_, rfl⟩

/-! ### Two materializations of the same store -/

def Clean (m : Materialization V) : Prop := ∀ node, m.graph.statusOf node ≠ some .invalid

theorem Upheld.status (upheld : Upheld reprs m) (clean : Clean m) (node : String) :
    m.graph.statusOf node = none ∨ m.graph.statusOf node = some .fresh := by
  cases status : m.graph.statusOf node with
  | none => exact Or.inl rfl
  | some state =>
      cases state with
      | fresh => exact Or.inr rfl
      | invalid => exact absurd status (clean node)
      | rebuilding => exact absurd status (upheld.settled node)

theorem Upheld.registered (upheld : Upheld reprs m) (clean : Clean m) (proper : target.Proper) :
    (m.statusOf target).isSome ↔ target.Present m.store := by
  refine ⟨fun some => ?_, upheld.present target⟩
  have fresh : m.statusOf target = Option.some .fresh := by
    rcases upheld.status clean target.node with none | fresh
    · rw [Materialization.statusOf, none] at some
      cases some
    · exact fresh
  have chained : ∀ key, ProperKey key → target ∈ chain key → m.store.assertionsForKey key ≠ [] := by
    intro key proper here vanished
    have gone := upheld.keys key proper vanished (fun other _ => upheld.status clean other.node)
      target here
    rw [gone] at fresh
    cases fresh
  cases target with
  | profile subject => exact upheld.profiles subject fresh
  | state key | support key | context key => exact chained key proper (by simp [chain])

/-- Two materializations of the same rows are the same as soon as neither has an invalid node. -/
theorem Upheld.equivalent (upheld : Upheld reprs m) (upheld' : Upheld reprs m') (clean : Clean m)
    (clean' : Clean m') (evidence : m'.store.evidence = m.store.evidence)
    (assertions : m'.store.assertions = m.store.assertions)
    (relations : m'.store.relations = m.store.relations) : m.Equivalent m' := by
  have rows := @unaffected_canonical _ reprs m.store m'.store evidence assertions relations
  have values : ∀ target : Target, m.value target = m'.value target := by
    intro target
    rw [upheld.value_expected (upheld.status clean target.node),
      upheld'.value_expected (upheld'.status clean' target.node), (rows target).expected]
  have same : ∀ target : Target, target.Proper →
      ((m.statusOf target).isSome ↔ (m'.statusOf target).isSome) := by
    intro target proper
    rw [upheld.registered clean proper, upheld'.registered clean' proper,
      Target.present_congr assertions]
  have both : ∀ node, ((m.graph.statusOf node).isSome ↔ (m'.graph.statusOf node).isSome) := by
    intro node
    constructor
    · intro some
      obtain ⟨target, proper, rfl⟩ := upheld.named node some
      exact (same target proper).mp some
    · intro some
      obtain ⟨target, proper, rfl⟩ := upheld'.named node some
      exact (same target proper).mpr some
  have statuses : ∀ node, m.graph.statusOf node = m'.graph.statusOf node := by
    intro node
    have registered := both node
    rcases upheld.status clean node with left | left <;>
      rcases upheld'.status clean' node with right | right <;>
        rw [left, right] at registered ⊢ <;> simp at registered
  have unregistered : ∀ {graph : DependencyGraph Kind} {node : String}, graph.Linked →
      graph.statusOf node = none → graph.kindOf node = none ∧ graph.dependencies.lookup node = none := by
    intro graph node linked none
    constructor
    · refine Option.not_isSome_iff_eq_none.mp fun some => ?_
      rw [linked.kinds, none] at some
      cases some
    · refine Option.not_isSome_iff_eq_none.mp fun some => ?_
      rw [linked.registered, none] at some
      cases some
  have fresh : ∀ {node : String}, m.graph.statusOf node = some .fresh →
      ∃ target : Target, target.node = node ∧ target.Proper ∧ m.statusOf target = some .fresh ∧
        m'.statusOf target = some .fresh := by
    intro node status
    obtain ⟨target, proper, rfl⟩ := upheld.named node (by rw [status]; rfl)
    exact ⟨target, rfl, proper, status, (statuses target.node).symm.trans status⟩
  have kinds : ∀ node, m.graph.kindOf node = m'.graph.kindOf node := by
    intro node
    rcases upheld.status clean node with none | status
    · rw [(unregistered upheld.linked none).1,
        (unregistered upheld'.linked ((statuses node).symm.trans none)).1]
    · obtain ⟨target, rfl, proper, status, status'⟩ := fresh status
      rw [upheld.kinds target proper (by rw [status]; rfl),
        upheld'.kinds target proper (by rw [status']; rfl)]
  have edges : ∀ node, m.graph.dependencies.lookup node = m'.graph.dependencies.lookup node := by
    intro node
    rcases upheld.status clean node with none | status
    · rw [(unregistered upheld.linked none).2,
        (unregistered upheld'.linked ((statuses node).symm.trans none)).2]
    · obtain ⟨target, rfl, proper, status, status'⟩ := fresh status
      obtain ⟨held, found⟩ := Option.isSome_iff_exists.mp
        ((upheld.linked.registered target.node).mpr (Option.isSome_of_eq_some status))
      obtain ⟨held', found'⟩ := Option.isSome_iff_exists.mp
        ((upheld'.linked.registered target.node).mpr (Option.isSome_of_eq_some status'))
      have left := (Multimap.get_of_lookup found).symm.trans (upheld.fresh target proper status).1
      have right := (Multimap.get_of_lookup found').symm.trans (upheld'.fresh target proper status').1
      rw [found, found', left, right, (rows target).dependencies]
  refine ⟨fun key => ?_, ?_, ?_, ?_, ?_, ?_, ?_, ?_⟩
  · rw [Value.state.inj (values (.state key))]
  · exact upheld.posted.equivalent upheld'.posted fun subject =>
      Value.profile.inj (values (.profile subject))
  · exact Table.same_iff.mpr fun key => Value.support.inj (values (.support key))
  · exact Table.same_iff.mpr fun key => Value.context.inj (values (.context key))
  · exact Table.same_iff.mpr edges
  · refine upheld.linked.full.same upheld'.linked.full fun source node => ?_
    refine (upheld.linked.inverse source node).trans (Iff.trans ?_
      (upheld'.linked.inverse source node).symm)
    rw [DependencyGraph.dependenciesOf, DependencyGraph.dependenciesOf, Multimap.get, Multimap.get,
      edges]
  · exact Table.same_iff.mpr statuses
  · exact Table.same_iff.mpr kinds

end Read

section Alike

variable {fresh : Materialization V}

/-- What `Equivalent` does not compare: where the name of a node leads, and the key and the version
of a cell. -/
structure Labelled (m : Materialization V) : Prop where
  names : ∀ target : Target, target.Proper → (m.statusOf target).isSome → m.Names target
  cells : ∀ key cell, m.store.state.lookup key = some cell → cell.key = key ∧ cell.version = 1

theorem Upheld.labelled (upheld : Upheld reprs m) (clean : Clean m) : Labelled m where
  names := upheld.names
  cells := fun key cell held => by
    have expected := Value.state.inj
      (@Sound.value_expected _ reprs m (.state key) upheld.toSound (upheld.status clean _))
    exact expectedCell_labels (expected.symm.trans held)

theorem cell_eq {cell other : StateCell V} (same : signature cell = signature other)
    (key : cell.key = other.key) (version : cell.version = other.version) : cell = other := by
  cases cell
  cases other
  simp only [signature, Prod.mk.injEq] at same
  obtain ⟨values, status, supporting, competing, historical⟩ := same
  simp only at key version
  subst values status supporting competing historical key version
  rfl

theorem Labelled.values (labelled : Labelled m) (labelled' : Labelled fresh)
    (equivalent : m.Equivalent fresh) (target : Target) : m.value target = fresh.value target := by
  obtain ⟨signatures, index, supports, contexts, _⟩ := equivalent
  cases target with
  | profile subject => exact congrArg Value.profile (index.snapshotOf subject)
  | state key =>
      refine congrArg Value.state ?_
      have same := signatures key
      cases held : m.store.state.lookup key with
      | none =>
          rw [held] at same
          exact (Option.map_eq_none_iff.mp same.symm).symm
      | some cell =>
          rw [held] at same
          obtain ⟨other, held', alike⟩ := Option.map_eq_some_iff.mp same.symm
          obtain ⟨named, written⟩ := labelled.cells key cell held
          obtain ⟨named', written'⟩ := labelled'.cells key other held'
          rw [held', cell_eq alike.symm (named.trans named'.symm) (written.trans written'.symm)]
  | support key => exact congrArg Value.support (Table.same_iff.mp supports key)
  | context key => exact congrArg Value.context (Table.same_iff.mp contexts key)

theorem Shaped.of_equivalent (shaped : Shaped fresh) (labelled : Labelled m)
    (same : m.graph.Equivalent fresh.graph) : Shaped m := by
  have status : ∀ target, m.statusOf target = fresh.statusOf target :=
    fun target => same.statusOf target.node
  have edges : ∀ target, m.dependenciesOf target = fresh.dependenciesOf target :=
    fun target => same.dependenciesOf target.node
  exact
    { linked := shaped.linked.of_equivalent same
      named := fun node held => shaped.named node (same.statusOf node ▸ held)
      kinds := fun target proper held =>
        (same.kindOf target.node).trans (shaped.kinds target proper (status target ▸ held))
      names := labelled.names
      shape := fun target proper name member =>
        shaped.shape target proper name (edges target ▸ member)
      based := fun target other proper below held => by
        obtain ⟨registered, listed⟩ :=
          shaped.based target other proper below (status target ▸ held)
        exact ⟨(status other).symm ▸ registered, (edges target).symm ▸ listed⟩ }

/-- One that is equivalent to what would be made anew is being maintained, with nothing to rebuild. -/
theorem Labelled.upheld (labelled : Labelled m)
    (anew : create reprs m.store.cloneCanonicalStore = .ok fresh)
    (equivalent : m.Equivalent fresh) : Upheld reprs m ∧ Clean m := by
  have known := create_known anew
  obtain ⟨_, anew', made⟩ := @create_made _ reprs _ known
  cases anew.symm.trans anew'
  obtain ⟨upheld, clean⟩ := made.upheld known
  have assertions : fresh.store.assertions = m.store.assertions :=
    made.assertions.trans MemoryStore.cloneCanonicalStore_assertions
  have rows := @unaffected_canonical _ reprs m.store fresh.store
    (made.evidence.trans MemoryStore.cloneCanonicalStore_evidence) assertions
    (made.relations.trans MemoryStore.cloneCanonicalStore_relations)
  have present : ∀ target : Target, target.Present fresh.store ↔ target.Present m.store :=
    fun target => Target.present_congr assertions
  have values := labelled.values (upheld.labelled clean) equivalent
  obtain ⟨_, index, _, _, graph⟩ := equivalent
  have status : ∀ target, m.statusOf target = fresh.statusOf target :=
    fun target => graph.statusOf target.node
  refine ⟨{ upheld.toShaped.of_equivalent labelled graph with
    known := known.same MemoryStore.cloneCanonicalStore_assertions.symm
    posted := upheld.posted.of_equivalent index
    fresh := ?_
    absent := fun target proper none => (values target).trans
      (upheld.absent target proper ((status target).symm.trans none))
    improper := fun target improper => (values target).trans (upheld.improper target improper)
    present := fun target here => by
      rw [status]
      exact upheld.present target ((present target).mpr here)
    profiles := fun subject held => (present (.profile subject)).mp
      (upheld.profiles subject ((status _).symm.trans held))
    keys := ?_
    settled := fun node => graph.statusOf node ▸ upheld.settled node },
    fun node => graph.statusOf node ▸ clean node⟩
  · intro target proper held
    obtain ⟨dependencies, value, based⟩ :=
      upheld.fresh target proper ((status target).symm.trans held)
    rw [Materialization.dependenciesOf, graph.dependenciesOf, values, ← (rows target).dependencies,
      ← (rows target).expected]
    exact ⟨dependencies, value, fun other below => (status other).trans (based other below)⟩
  · intro key proper vanished whole target here
    have gone : fresh.store.assertionsForKey key = [] := by
      by_contra some
      exact (present (.state key)).mp some vanished
    rw [status]
    exact upheld.keys key proper gone (fun other listed => status other ▸ whole other listed)
      target here

end Alike

end DurableContext.Cascade
