import DurableContext.Cascade.CascadeRuns

/-! Runs of a cascade maintainer. After any mutations and rebuilds a context that can be read is the
one of the store, and when each mutation is followed by the rebuild of what it has made invalid the
materialization is always the one that would be made anew. -/

namespace DurableContext.Cascade

open DependencyGraph Materialization Program
open Maintenance (EvidenceRecord)

variable {V : Type} {reprs : Reprs V} {m m' : Materialization V} {store : MemoryStore V}

namespace CascadeMaintainer

inductive Mutation (V : Type) where
  | upsertEvidence (item : EvidenceRecord)
  | deleteEvidence (evidenceId : String)
  | upsertAssertion (item : Assertion V)
  | deleteAssertion (assertionId : String)
  | addRelation (relation : AssertionRelation)

/-- A written assertion has a registered predicate. -/
def Mutation.Registered : Mutation V → Prop
  | .upsertAssertion item => (REGISTRY.lookup item.predicate).isSome
  | _ => True

def Mutation.apply : Mutation V → Materialization V → CascadeResult V
  | .upsertEvidence item => CascadeMaintainer.upsertEvidence item
  | .deleteEvidence evidenceId => CascadeMaintainer.deleteEvidence evidenceId
  | .upsertAssertion item => CascadeMaintainer.upsertAssertion item
  | .deleteAssertion assertionId => CascadeMaintainer.deleteAssertion assertionId
  | .addRelation relation => CascadeMaintainer.addRelation relation

inductive Step (V : Type) where
  | mutate (mutation : Mutation V)
  | rebuild (targetNodeIds : Option (List String))

def Step.Registered : Step V → Prop
  | .mutate mutation => mutation.Registered
  | .rebuild _ => True

def rebuild (reprs : Reprs V) (targetNodeIds : Option (List String)) (m : Materialization V) :
    Except Raised (Materialization V) :=
  match m.rebuild reprs targetNodeIds with
  | .ok _ session => .ok session.held
  | .error error _ => .error error

def perform (reprs : Reprs V) (m : Materialization V) : Step V → Except Raised (Materialization V)
  | .mutate mutation => .ok (mutation.apply m).2
  | .rebuild targetNodeIds => rebuild reprs targetNodeIds m

def run (reprs : Reprs V) (m : Materialization V) (steps : List (Step V)) :
    Except Raised (Materialization V) :=
  steps.foldlM (perform reprs) m

/-- A mutation and the rebuild of the nodes that its result names. -/
def maintain (reprs : Reprs V) (m : Materialization V) (mutation : Mutation V) :
    Except Raised (Materialization V) :=
  rebuild reprs (some (mutation.apply m).1) (mutation.apply m).2

def maintainAll (reprs : Reprs V) (m : Materialization V) (mutations : List (Mutation V)) :
    Except Raised (Materialization V) :=
  mutations.foldlM (maintain reprs) m

end CascadeMaintainer

open CascadeMaintainer (Mutation Step perform maintain maintainAll)

section Steps

theorem Upheld.apply (upheld : Upheld reprs m) (mutation : Mutation V)
    (registered : mutation.Registered) : Upheld reprs (mutation.apply m).2 := by
  cases mutation with
  | upsertEvidence item => exact upheld.upsertEvidence item
  | deleteEvidence evidenceId => exact upheld.deleteEvidence evidenceId
  | upsertAssertion item => exact upheld.upsertAssertion registered
  | deleteAssertion assertionId => exact upheld.deleteAssertion assertionId
  | addRelation relation => exact upheld.addRelation relation

/-- A rebuild of any nodes returns, keeps the invariant, and leaves only such nodes invalid as it was
not asked for. -/
theorem Upheld.rebuild (upheld : Upheld reprs m) (targets : Option (List String)) :
    ∃ m', CascadeMaintainer.rebuild reprs targets m = .ok m' ∧ Upheld reprs m' ∧
      m'.store.evidence = m.store.evidence ∧ m'.store.assertions = m.store.assertions ∧
      m'.store.relations = m.store.relations ∧
      ∀ node, m'.graph.statusOf node = some .invalid → m.graph.statusOf node = some .invalid ∧
        node ∉ targets.getD m.graph.invalidNodes := by
  obtain ⟨_, final, ran, middle, rebuilt⟩ :=
    (rebuild_spec upheld.toShaped upheld.known targets).total
  have held : CascadeMaintainer.rebuild reprs targets m = .ok final.held := by
    rw [CascadeMaintainer.rebuild, Materialization.rebuild, ran]
  have advanced := rebuilt.advanced
  have retired := rebuilt.cleared.retired
  refine ⟨final.held, held, upheld.rebuilt rebuilt, ?_, rebuilt.assertions, ?_, ?_⟩
  · rw [retired.store]
    exact advanced.evidence
  · rw [retired.store]
    exact advanced.relations
  · intro node invalid
    have before : middle.held.graph.statusOf node = some .invalid := by
      rcases retired.status_node advanced.ready.shaped node with same | ⟨_, gone⟩
      · exact same.symm.trans invalid
      · rw [gone] at invalid
        cases invalid
    exact ⟨advanced.invalid before, fun named => rebuilt.targets node named before⟩

theorem Upheld.perform (upheld : Upheld reprs m) {step : Step V} (registered : step.Registered) :
    ∃ m', perform reprs m step = .ok m' ∧ Upheld reprs m' := by
  cases step with
  | mutate mutation => exact ⟨_, rfl, upheld.apply mutation registered⟩
  | rebuild targets =>
      obtain ⟨m', ran, upheld', _⟩ := upheld.rebuild targets
      exact ⟨m', ran, upheld'⟩

theorem Upheld.run (upheld : Upheld reprs m) {steps : List (Step V)}
    (registered : ∀ step ∈ steps, step.Registered) :
    ∃ m', CascadeMaintainer.run reprs m steps = .ok m' ∧ Upheld reprs m' := by
  induction steps generalizing m with
  | nil => exact ⟨m, rfl, upheld⟩
  | cons step rest ih =>
      obtain ⟨middle, first, upheld'⟩ := upheld.perform (registered step List.mem_cons_self)
      obtain ⟨m', later, upheld''⟩ := ih upheld' fun other member =>
        registered other (List.mem_cons_of_mem _ member)
      exact ⟨m', (ok_bind first _).trans later, upheld''⟩

end Steps

/-- A materialization that mutations and rebuilds have come to from a new one. -/
def Reachable (reprs : Reprs V) (m : Materialization V) : Prop :=
  ∃ store steps first, Known store ∧ (∀ step ∈ steps, step.Registered) ∧
    create reprs store = .ok first ∧ CascadeMaintainer.run reprs first steps = .ok m

theorem Reachable.upheld (reachable : Reachable reprs m) : Upheld reprs m := by
  obtain ⟨store, steps, first, known, registered, made, ran⟩ := reachable
  obtain ⟨first', made', held⟩ := @create_made _ reprs store known
  cases made.symm.trans made'
  obtain ⟨m', ran', upheld⟩ := (held.upheld known).1.run registered
  cases ran.symm.trans ran'
  exact upheld

section Emitted

theorem invalidateFrom_emitted {roots : List String} {node : String}
    (invalid : (CascadeMaintainer.invalidateFrom m roots).2.graph.statusOf node = some .invalid) :
    m.graph.statusOf node = some .invalid ∨
      node ∈ (CascadeMaintainer.invalidateFrom m roots).1 := by
  obtain ⟨statuses, after, spec⟩ := invalidateFrom_spec m.graph roots
  obtain ⟨_, outside, emitted⟩ := spec node
  have status : (CascadeMaintainer.invalidateFrom m roots).2.graph.statusOf node =
      statuses.lookup node := by
    have same : (CascadeMaintainer.invalidateFrom m roots).2.graph =
        { m.graph with status := statuses } := after
    rw [same]
    rfl
  by_cases before : m.graph.statusOf node = some .invalid
  · exact Or.inl before
  · refine Or.inr (mem_sorted.mpr (emitted.mpr ⟨?_, before⟩))
    by_contra away
    rw [status, outside away] at invalid
    exact before invalid

theorem invalidateNodes_emitted {seeds : List String} {node : String}
    (invalid : (CascadeMaintainer.invalidateNodes m seeds).2.graph.statusOf node = some .invalid) :
    m.graph.statusOf node = some .invalid ∨
      node ∈ (CascadeMaintainer.invalidateNodes m seeds).1 := by
  obtain ⟨statuses, after, spec⟩ := invalidateNodes_spec m.graph seeds
  obtain ⟨_, outside, emitted⟩ := spec node
  have status : (CascadeMaintainer.invalidateNodes m seeds).2.graph.statusOf node =
      statuses.lookup node := by
    have same : (CascadeMaintainer.invalidateNodes m seeds).2.graph =
        { m.graph with status := statuses } := after
    rw [same]
    rfl
  by_cases before : m.graph.statusOf node = some .invalid
  · exact Or.inl before
  · refine Or.inr (mem_sorted.mpr (emitted.mpr ⟨?_, before⟩))
    by_contra away
    rw [status, outside away] at invalid
    exact before invalid

theorem Extended.clean {targets : List Target} (extended : Extended targets m m')
    {node : String} (invalid : m'.graph.statusOf node = some .invalid) :
    m.graph.statusOf node = some .invalid := by
  obtain ⟨target, proper, rfl⟩ := extended.shaped.named node (by rw [invalid]; rfl)
  cases before : m.statusOf target with
  | none =>
      have status : m'.statusOf target = some .invalid := invalid
      rcases extended.added target proper before with none | ⟨fresh, _⟩
      · rw [none] at status
        cases status
      · rw [fresh] at status
        cases status
  | some status =>
      have kept := (extended.kept target proper (by rw [before]; rfl)).1
      exact kept.symm.trans invalid

theorem invalidateSeeds_emitted (shaped : Shaped m) {keys : List StateKey}
    (proper : ∀ key ∈ keys, ProperKey key) (subjects : List String) {node : String}
    (invalid : (CascadeMaintainer.invalidateSeeds keys subjects m).2.graph.statusOf node =
      some .invalid) :
    m.graph.statusOf node = some .invalid ∨
      node ∈ (CascadeMaintainer.invalidateSeeds keys subjects m).1 := by
  have first := shaped.ensureKeys proper
  have extended := first.trans (first.shaped.ensureSubjects subjects)
  rcases invalidateNodes_emitted invalid with before | emitted
  · exact Or.inl (extended.clean before)
  · exact Or.inr emitted

/-- The state nodes of the keys are invalid after it. -/
theorem invalidateSeeds_invalid (shaped : Shaped m) {keys : List StateKey}
    (proper : ∀ key ∈ keys, ProperKey key) (subjects : List String) {key : StateKey}
    (listed : key ∈ keys) :
    (CascadeMaintainer.invalidateSeeds keys subjects m).2.graph.statusOf (stateNode key) =
      some .invalid := by
  have first := shaped.ensureKeys proper
  have extended := first.trans (first.shaped.ensureSubjects subjects)
  obtain ⟨statuses, after, spec⟩ := invalidateNodes_spec (subjects.foldl
    Materialization.ensureProfile (keys.foldl Materialization.ensureStateChain m)).graph
      (keys.map stateNode ++ subjects.map profileNode)
  have same : (CascadeMaintainer.invalidateSeeds keys subjects m).2.graph =
      { (subjects.foldl Materialization.ensureProfile
        (keys.foldl Materialization.ensureStateChain m)).graph with status := statuses } := after
  rw [same]
  have seeded : Target.state key ∈ seededTargets keys subjects := mem_seededTargets.mpr listed
  exact (spec (stateNode key)).1 (Or.inl ⟨List.mem_append_left _ (List.mem_map_of_mem listed),
    extended.covered (.state key) seeded⟩)

theorem Upheld.emitted (upheld : Upheld reprs m) (mutation : Mutation V)
    (registered : mutation.Registered) {node : String}
    (invalid : (mutation.apply m).2.graph.statusOf node = some .invalid) :
    m.graph.statusOf node = some .invalid ∨ node ∈ (mutation.apply m).1 := by
  cases mutation with
  | upsertEvidence item => exact invalidateFrom_emitted invalid
  | deleteEvidence evidenceId => exact invalidateFrom_emitted invalid
  | upsertAssertion item =>
      have seeded := @invalidateSeeds_emitted _ { m with store := m.store.addAssertion item }
        (upheld.toShaped.congr rfl rfl rfl) _ (upheld.known.upsertKeys registered)
      exact seeded _ invalid
  | deleteAssertion assertionId =>
      cases held : m.store.assertions.lookup assertionId with
      | none =>
          refine Or.inl ?_
          simpa only [Mutation.apply, CascadeMaintainer.deleteAssertion, held] using invalid
      | some previous =>
          have seeded := @invalidateSeeds_emitted _
            { m with store := m.store.removeAssertion assertionId }
            (upheld.toShaped.congr rfl rfl rfl) [previous.key] fun key member => by
              rw [List.mem_singleton.mp member]
              exact upheld.known.key held
          have ran : (Mutation.deleteAssertion assertionId).apply m =
              CascadeMaintainer.invalidateSeeds [previous.key] [previous.subjectId]
                { m with store := m.store.removeAssertion assertionId } := by
            simp only [Mutation.apply, CascadeMaintainer.deleteAssertion, held]
          rw [ran] at invalid ⊢
          exact seeded _ invalid
  | addRelation relation =>
      have seeded := @invalidateSeeds_emitted _ { m with store := m.store.addRelation relation }
        (upheld.toShaped.congr rfl rfl rfl) _
        (upheld.known.relationKeys [relation.sourceAssertionId, relation.targetAssertionId])
      exact seeded _ invalid

end Emitted

section Maintained

theorem Upheld.maintain (upheld : Upheld reprs m) (clean : Clean m) {mutation : Mutation V}
    (registered : mutation.Registered) :
    ∃ m', maintain reprs m mutation = .ok m' ∧ Upheld reprs m' ∧ Clean m' := by
  obtain ⟨m', ran, upheld', _, _, _, left⟩ :=
    (upheld.apply mutation registered).rebuild (some (mutation.apply m).1)
  refine ⟨m', ran, upheld', fun node invalid => ?_⟩
  obtain ⟨before, unnamed⟩ := left node invalid
  rcases upheld.emitted mutation registered before with already | emitted
  · exact clean node already
  · exact unnamed emitted

theorem Upheld.maintainAll (upheld : Upheld reprs m) (clean : Clean m)
    {mutations : List (Mutation V)}
    (registered : ∀ mutation ∈ mutations, mutation.Registered) :
    ∃ m', maintainAll reprs m mutations = .ok m' ∧ Upheld reprs m' ∧ Clean m' := by
  induction mutations generalizing m with
  | nil => exact ⟨m, rfl, upheld, clean⟩
  | cons mutation rest ih =>
      obtain ⟨middle, first, upheld', clean'⟩ :=
        upheld.maintain clean (registered mutation List.mem_cons_self)
      obtain ⟨m', later, reached⟩ := ih upheld' clean' fun other member =>
        registered other (List.mem_cons_of_mem _ member)
      exact ⟨m', (ok_bind first _).trans later, reached⟩

theorem mem_invalidNodes {graph : DependencyGraph Kind} {node : String} :
    node ∈ graph.invalidNodes ↔ graph.statusOf node = some .invalid := by
  rw [invalidNodes, List.mem_filter, decide_eq_true_iff, derivedNodes, mem_sorted,
    List.mem_toFinset, ← AList.mem_keys, Table.mem_iff]
  refine ⟨fun found => found.2, fun invalid => ⟨?_, invalid⟩⟩
  exact Option.isSome_of_eq_some invalid

theorem Upheld.rebuildAll (upheld : Upheld reprs m) :
    ∃ m', CascadeMaintainer.rebuild reprs none m = .ok m' ∧ Upheld reprs m' ∧ Clean m' := by
  obtain ⟨m', ran, upheld', _, _, _, left⟩ := upheld.rebuild none
  refine ⟨m', ran, upheld', fun node invalid => ?_⟩
  obtain ⟨before, unnamed⟩ := left node invalid
  exact unnamed (mem_invalidNodes.mpr before)

end Maintained

section Anew

theorem Upheld.anew (upheld : Upheld reprs m) :
    ∃ fresh, create reprs m.store.cloneCanonicalStore = .ok fresh ∧
      (∀ key, fresh.contexts.lookup key = expectedContext reprs m.store key) ∧
      (Clean m → m.Equivalent fresh) := by
  have known : Known m.store.cloneCanonicalStore :=
    upheld.known.same MemoryStore.cloneCanonicalStore_assertions
  obtain ⟨fresh, ran, made⟩ := @create_made _ reprs m.store.cloneCanonicalStore known
  obtain ⟨upheld', clean'⟩ := made.upheld known
  have evidence := made.evidence.trans MemoryStore.cloneCanonicalStore_evidence
  have assertions := made.assertions.trans MemoryStore.cloneCanonicalStore_assertions
  have relations := made.relations.trans MemoryStore.cloneCanonicalStore_relations
  refine ⟨fresh, ran, fun key => ?_, fun clean =>
    upheld.equivalent upheld' clean clean' evidence assertions relations⟩
  have held := @Sound.value_expected _ reprs fresh (.context key) upheld'.toSound
    (upheld'.status clean' (contextNode key))
  have rows := @unaffected_canonical _ reprs m.store fresh.store evidence assertions relations
  exact (Value.context.inj held).trans (Value.context.inj (rows (.context key)).expected)

/-- What is read is what is made anew for the same rows. -/
theorem Upheld.reads_anew (upheld : Upheld reprs m) :
    ∃ fresh, create reprs m.store.cloneCanonicalStore = .ok fresh ∧
      (∀ key, (∃ error, readContext m key = .error error) ∨
        readContext m key = .ok (fresh.contexts.lookup key)) ∧
      (Clean m → m.Equivalent fresh) := by
  obtain ⟨fresh, anew, contexts, equivalent⟩ := upheld.anew
  refine ⟨fresh, anew, fun key => ?_, equivalent⟩
  rw [contexts key]
  exact upheld.toSound.readContext key

end Anew

section Sample

def moved (subject predicate : String) (evidenceIds : List String) : Assertion Int :=
  ⟨"a1", subject, predicate, 10, 1, none, none, "asserted", "positive", evidenceIds, "oracle-v1"⟩

def bareStore : MemoryStore Int := MemoryStore.ofCanonical ∅ ∅ [] MemoryStore.empty_named

theorem bareStore_known : Known bareStore := by
  intro id item held
  cases held

/-- An assertion that is moved to another key, cites evidence, and is deleted. -/
def movedSteps : List (Step Int) :=
  [.mutate (.upsertAssertion (moved "project-x" "deadline" [])),
    .rebuild (some ["context:project-x:deadline:default"]),
    .mutate (.upsertAssertion (moved "project-y" "works_at" ["e1"])),
    .mutate (.upsertEvidence ⟨"e1", "an email", "inbox", 1, none, "default", "active"⟩),
    .rebuild (some ["profile:project-y", "state:project-y:works_at:default"]),
    .mutate (.addRelation ⟨"a1", .corrects, "a0"⟩),
    .mutate (.deleteAssertion "a1")]

theorem movedSteps_registered : ∀ step ∈ movedSteps, step.Registered := by
  intro step member
  simp only [movedSteps, List.mem_cons, List.not_mem_nil, or_false] at member
  rcases member with rfl | rfl | rfl | rfl | rfl | rfl | rfl
  · exact (by decide : (REGISTRY.lookup "deadline").isSome)
  · trivial
  · exact (by decide : (REGISTRY.lookup "works_at").isSome)
  all_goals trivial

end Sample

/-- After any mutations and rebuilds of any nodes, none of which raises, what can be read is what a
new materialization of the same canonical rows holds, and without an invalid node the two are
equivalent. -/
theorem maintainer_coherent (reprs : Reprs V) (store : MemoryStore V) (known : Known store)
    (steps : List (Step V)) (registered : ∀ step ∈ steps, step.Registered) :
    ∃ first final fresh, create reprs store = .ok first ∧
      CascadeMaintainer.run reprs first steps = .ok final ∧
      create reprs final.store.cloneCanonicalStore = .ok fresh ∧
      (∀ key, (∃ error, readContext final key = .error error) ∨
        readContext final key = .ok (fresh.contexts.lookup key)) ∧
      (Clean final → final.Equivalent fresh) := by
  obtain ⟨first, made, held⟩ := @create_made _ reprs store known
  obtain ⟨final, ran, upheld⟩ := (held.upheld known).1.run registered
  obtain ⟨fresh, anew⟩ := upheld.reads_anew
  exact ⟨first, final, fresh, made, ran, anew⟩

theorem maintainer_coherent_sample :
    ∃ first final fresh, create intReprs bareStore = .ok first ∧
      CascadeMaintainer.run intReprs first movedSteps = .ok final ∧
      create intReprs final.store.cloneCanonicalStore = .ok fresh ∧
      (∀ key, (∃ error, readContext final key = .error error) ∨
        readContext final key = .ok (fresh.contexts.lookup key)) ∧
      (Clean final → final.Equivalent fresh) :=
  maintainer_coherent intReprs bareStore bareStore_known movedSteps movedSteps_registered

/-- After every step of a run what is read is what a new materialization of the same canonical rows
holds, and without an invalid node the two are equivalent. -/
theorem every_step_reads_anew (reprs : Reprs V) (store : MemoryStore V) (known : Known store)
    (steps : List (Step V)) (registered : ∀ step ∈ steps, step.Registered) :
    ∃ first, create reprs store = .ok first ∧
      ∀ before after, before ++ after = steps → ∃ m fresh,
        CascadeMaintainer.run reprs first before = .ok m ∧
        create reprs m.store.cloneCanonicalStore = .ok fresh ∧
        (∀ key, (∃ error, readContext m key = .error error) ∨
          readContext m key = .ok (fresh.contexts.lookup key)) ∧
        (Clean m → m.Equivalent fresh) := by
  obtain ⟨first, made, held⟩ := @create_made _ reprs store known
  refine ⟨first, made, fun before after parts => ?_⟩
  obtain ⟨m, ran, upheld⟩ := (held.upheld known).1.run fun step member =>
    registered step (parts ▸ List.mem_append_left after member)
  obtain ⟨fresh, anew⟩ := upheld.reads_anew
  exact ⟨m, fresh, ran, anew⟩

theorem every_step_reads_anew_sample :
    ∃ first, create intReprs bareStore = .ok first ∧
      ∀ before after, before ++ after = movedSteps → ∃ m fresh,
        CascadeMaintainer.run intReprs first before = .ok m ∧
        create intReprs m.store.cloneCanonicalStore = .ok fresh ∧
        (∀ key, (∃ error, readContext m key = .error error) ∨
          readContext m key = .ok (fresh.contexts.lookup key)) ∧
        (Clean m → m.Equivalent fresh) :=
  every_step_reads_anew intReprs bareStore bareStore_known movedSteps movedSteps_registered

/-- Whatever mutations and rebuilds have left, after one rebuild of all invalid nodes every mutation
that is followed by the rebuild of the nodes it names keeps the materialization equivalent to a new
one, with every node fresh and every context readable. -/
theorem maintained_equivalent (reprs : Reprs V) (store : MemoryStore V) (known : Known store)
    (steps : List (Step V)) (registered : ∀ step ∈ steps, step.Registered)
    (mutations : List (Mutation V))
    (registered' : ∀ mutation ∈ mutations, mutation.Registered) :
    ∃ first middle whole final fresh, create reprs store = .ok first ∧
      CascadeMaintainer.run reprs first steps = .ok middle ∧
      CascadeMaintainer.rebuild reprs none middle = .ok whole ∧
      maintainAll reprs whole mutations = .ok final ∧
      create reprs final.store.cloneCanonicalStore = .ok fresh ∧ final.Equivalent fresh ∧
      (∀ node, final.graph.statusOf node = none ∨ final.graph.statusOf node = some .fresh) ∧
      ∀ key, readContext final key = .ok (fresh.contexts.lookup key) := by
  obtain ⟨first, made, held⟩ := @create_made _ reprs store known
  obtain ⟨middle, ran, upheld⟩ := (held.upheld known).1.run registered
  obtain ⟨whole, rebuilt, upheld', clean⟩ := upheld.rebuildAll
  obtain ⟨final, maintained, upheld'', clean'⟩ := upheld'.maintainAll clean registered'
  obtain ⟨fresh, anew, contexts, equivalent⟩ := upheld''.anew
  refine ⟨first, middle, whole, final, fresh, made, ran, rebuilt, maintained, anew,
    equivalent clean', upheld''.status clean', fun key => ?_⟩
  rw [contexts key]
  exact upheld''.toSound.readContext_fresh (upheld''.status clean' (contextNode key))

theorem maintained_equivalent_sample :
    ∃ first middle whole final fresh, create intReprs bareStore = .ok first ∧
      CascadeMaintainer.run intReprs first movedSteps = .ok middle ∧
      CascadeMaintainer.rebuild intReprs none middle = .ok whole ∧
      maintainAll intReprs whole [.upsertAssertion (moved "project-x" "deadline" [])] = .ok final ∧
      create intReprs final.store.cloneCanonicalStore = .ok fresh ∧ final.Equivalent fresh ∧
      (∀ node, final.graph.statusOf node = none ∨ final.graph.statusOf node = some .fresh) ∧
      ∀ key, readContext final key = .ok (fresh.contexts.lookup key) :=
  maintained_equivalent intReprs bareStore bareStore_known movedSteps movedSteps_registered
    [.upsertAssertion (moved "project-x" "deadline" [])] fun mutation member => by
      rw [List.mem_singleton.mp member]
      exact (by decide : (REGISTRY.lookup "deadline").isSome)

end DurableContext.Cascade
