import DurableContext.Cascade.Renewal

/-! A materialization that is made anew holds what is expected of every target. -/

namespace DurableContext.Cascade

open DependencyGraph Materialization
open Program (ok_bind)

variable {V : Type} {reprs : Reprs V} {store : MemoryStore V} {m m' : Materialization V}
  {target : Target} {key : StateKey} {done : List Target}

theorem renew_ok (shaped : Shaped m) (known : Known m.store) (proper : target.Proper)
    (registered : (m.statusOf target).isSome) :
    ∃ middle graph, writeTarget reprs target m = .ok middle ∧
      (registerTarget target middle).graph.markFresh target.node = .ok graph ∧
      Touched target m { registerTarget target middle with graph } ∧
      ({ registerTarget target middle with graph } : Materialization V).statusOf target =
        some .fresh ∧
      ({ registerTarget target middle with graph } : Materialization V).dependenciesOf target =
        lineage m target ∧
      ({ registerTarget target middle with graph } : Materialization V).value target =
        written reprs m target := by
  obtain ⟨middle, wrote, first, graph₁, value₁⟩ := @writeTarget_ok _ reprs _ shaped known target
  have registered₁ : (middle.statusOf target).isSome := by
    rw [Materialization.statusOf, graph₁]
    exact registered
  obtain ⟨second, status₂, lineage₂, value₂⟩ := registerTarget_ok first.shaped proper registered₁
  obtain ⟨graph, marked, third, status₃, lineage₃, value₃⟩ :=
    mark_ok second.shaped proper (by rw [status₂]; rfl) .fresh
  refine ⟨middle, graph, wrote, marked, (first.trans second).trans third, status₃, ?_, ?_⟩
  · rw [lineage₃, lineage₂]
    exact (@written_congr _ reprs _ _ _ first).2
  · rw [value₃, value₂, value₁]

/-- A materialization in the making: some targets are derived and nothing else is there. -/
structure Made (reprs : Reprs V) (store : MemoryStore V) (done : List Target)
    (m : Materialization V) : Prop where
  proper : ∀ target ∈ done, target.Proper
  shaped : Shaped m
  evidence : m.store.evidence = store.evidence
  assertions : m.store.assertions = store.assertions
  relations : m.store.relations = store.relations
  posted : m.index.Posted
  profiles : ∀ subject, m.value (.profile subject) = (Target.profile subject).expected reprs store
  held : ∀ target ∈ done, m.statusOf target = some .fresh ∧
    m.dependenciesOf target = target.dependencies reprs store ∧
    m.value target = target.expected reprs store
  rest : ∀ target : Target, target ∉ done → (target.Proper → m.statusOf target = none) ∧
    ((∀ subject, target ≠ .profile subject) → m.value target = target.blank)

theorem Made.known (made : Made reprs store done m) (known : Known store) : Known m.store := by
  intro id item held
  rw [made.assertions] at held
  exact known id item held

theorem Made.unaffected (made : Made reprs store done m) (target : Target) :
    Unaffected reprs store m.store target :=
  unaffected_canonical made.evidence made.assertions made.relations target

theorem Made.registered (made : Made reprs store done m) (member : target ∈ done) :
    (m.statusOf target).isSome := by
  rw [(made.held target member).1]
  rfl

theorem Made.profile (made : Made reprs store done m) {subject : String}
    (fresh : Target.profile subject ∉ done) :
    Made reprs store (done ++ [.profile subject]) (m.ensureProfile subject) := by
  have extended := made.shaped.ensureProfile subject
  have absent : m.graph.statusOf (profileNode subject) = none := (made.rest _ fresh).1 trivial
  have edges : (m.ensureProfile subject).dependenciesOf (.profile subject) =
      (Target.profile subject).dependencies reprs store := by
    unfold Materialization.ensureProfile
    simp only [absent, if_true]
    refine (dependenciesOf_registerDerived _).trans ((if_pos rfl).trans ?_)
    exact (made.unaffected (.profile subject)).dependencies
  have status : (m.ensureProfile subject).statusOf (.profile subject) = some .fresh := by
    rcases extended.added (.profile subject) trivial absent with none | ⟨fresh, _⟩
    · have held := extended.covered _ (List.mem_singleton_self _)
      rw [none] at held
      cases held
    · exact fresh
  have rows := extended.store
  refine ⟨?_, extended.shaped, rows ▸ made.evidence, rows ▸ made.assertions, rows ▸ made.relations,
    extended.posted made.posted, ?_, ?_, ?_⟩
  · intro target member
    rcases List.mem_append.mp member with before | here
    · exact made.proper target before
    · rw [List.mem_singleton.mp here]
      exact trivial
  · intro other
    rw [extended.value]
    exact made.profiles other
  · intro target member
    rw [extended.value]
    rcases List.mem_append.mp member with before | here
    · obtain ⟨status, dependencies⟩ :=
        extended.kept target (made.proper target before) (made.registered before)
      rw [status, dependencies]
      exact made.held target before
    · rw [List.mem_singleton.mp here]
      exact ⟨status, edges, made.profiles subject⟩
  · intro target out
    rw [List.mem_append, not_or, List.mem_singleton] at out
    obtain ⟨none, blank⟩ := made.rest target out.1
    refine ⟨fun proper => ?_, fun other => (extended.value target).trans (blank other)⟩
    rcases extended.added target proper (none proper) with still | ⟨_, here⟩
    · exact still
    · exact absurd (List.mem_singleton.mp here) out.2

theorem Made.subjects (made : Made reprs store done m) {subjects : List String}
    (distinct : subjects.Nodup) (fresh : ∀ subject ∈ subjects, Target.profile subject ∉ done) :
    Made reprs store (done ++ subjects.map .profile) (subjects.foldl ensureProfile m) := by
  induction subjects generalizing m done with
  | nil =>
      rw [List.map_nil, List.append_nil]
      exact made
  | cons subject rest ih =>
      have first := made.profile (fresh subject List.mem_cons_self)
      have next := ih first (List.nodup_cons.mp distinct).2 fun other member => by
        rw [List.mem_append, not_or, List.mem_singleton]
        refine ⟨fresh other (List.mem_cons_of_mem _ member), fun same => ?_⟩
        rw [Target.profile.inj same] at member
        exact (List.nodup_cons.mp distinct).1 member
      rw [List.append_assoc] at next
      exact next

theorem renewed_expected (rows : ∀ other, Unaffected reprs store m.store other)
    (edges : m'.dependenciesOf target = lineage m target)
    (value : m'.value target = written reprs m target)
    (rests : ∀ lower, target.below = some lower → m.value lower = lower.expected reprs store) :
    m'.dependenciesOf target = target.dependencies reprs store ∧
      m'.value target = target.expected reprs store := by
  obtain ⟨expected, dependencies⟩ := @written_expected _ reprs m target fun lower below => by
    rw [(rows lower).expected]
    exact rests lower below
  rw [edges, value, expected, dependencies, (rows target).dependencies, (rows target).expected]
  exact ⟨rfl, rfl⟩

/-- A key's chain is derived anew: its targets hold what the store asks for, all others stay. -/
structure Chained (reprs : Reprs V) (store : MemoryStore V) (key : StateKey)
    (m m' : Materialization V) : Prop where
  shaped : Shaped m'
  evidence : m'.store.evidence = m.store.evidence
  assertions : m'.store.assertions = m.store.assertions
  relations : m'.store.relations = m.store.relations
  posted : m.index.Posted → m'.index.Posted
  fresh : ∀ target ∈ chain key, m'.statusOf target = some .fresh ∧
    m'.dependenciesOf target = target.dependencies reprs store ∧
    m'.value target = target.expected reprs store
  others : ∀ target : Target, target.Proper → target ∉ chain key →
    m'.statusOf target = m.statusOf target ∧ m'.dependenciesOf target = m.dependenciesOf target
  values : ∀ target : Target, target ∉ chain key → m'.value target = m.value target

/-- The three derivations of a chain are of different targets, each over the one below it. -/
theorem chained_of_renewed {m₁ m₂ m₃ : Materialization V} (proper : ProperKey key)
    (rows : ∀ other, Unaffected reprs store m.store other)
    (first : Touched (.state key) m m₁) (second : Touched (.support key) m₁ m₂)
    (third : Touched (.context key) m₂ m₃)
    (fresh₁ : m₁.statusOf (.state key) = some .fresh ∧
      m₁.dependenciesOf (.state key) = lineage m (.state key) ∧
      m₁.value (.state key) = written reprs m (.state key))
    (fresh₂ : m₂.statusOf (.support key) = some .fresh ∧
      m₂.dependenciesOf (.support key) = lineage m₁ (.support key) ∧
      m₂.value (.support key) = written reprs m₁ (.support key))
    (fresh₃ : m₃.statusOf (.context key) = some .fresh ∧
      m₃.dependenciesOf (.context key) = lineage m₂ (.context key) ∧
      m₃.value (.context key) = written reprs m₂ (.context key)) :
    Chained reprs store key m m₃ := by
  have sc : Target.state key ≠ .context key := fun same => by cases same
  have ss : Target.state key ≠ .support key := fun same => by cases same
  have cs : Target.support key ≠ .context key := fun same => by cases same
  have rows₁ : ∀ other, Unaffected reprs store m₁.store other := fun other =>
    (rows other).trans (unaffected_canonical first.evidence first.assertions first.relations other)
  have rows₂ : ∀ other, Unaffected reprs store m₂.store other := fun other =>
    (rows₁ other).trans
      (unaffected_canonical second.evidence second.assertions second.relations other)
  have state := renewed_expected rows fresh₁.2.1 fresh₁.2.2 fun lower below => by
    cases below
  have support := renewed_expected rows₁ fresh₂.2.1 fresh₂.2.2 fun lower below => by
    cases below
    exact state.2
  have context := renewed_expected rows₂ fresh₃.2.1 fresh₃.2.2 fun lower below => by
    cases below
    exact support.2
  refine ⟨third.shaped, ?_, ?_, ?_, fun posted => third.posted (second.posted (first.posted posted)),
    ?_, ?_, ?_⟩
  · exact (third.evidence.trans second.evidence).trans first.evidence
  · exact (third.assertions.trans second.assertions).trans first.assertions
  · exact (third.relations.trans second.relations).trans first.relations
  · intro target here
    rcases mem_chain.mp here with rfl | rfl | rfl
    · exact ⟨fresh₃.1, context⟩
    · rw [third.status (.support key) proper cs, third.dependencies (.support key) proper cs,
        third.value (.support key) cs]
      exact ⟨fresh₂.1, support⟩
    · rw [third.status (.state key) proper sc, third.dependencies (.state key) proper sc,
        third.value (.state key) sc, second.status (.state key) proper ss,
        second.dependencies (.state key) proper ss, second.value (.state key) ss]
      exact ⟨fresh₁.1, state⟩
  · intro target proper' out
    rw [mem_chain, not_or, not_or] at out
    constructor
    · rw [third.status target proper' out.1, second.status target proper' out.2.1,
        first.status target proper' out.2.2]
    · rw [third.dependencies target proper' out.1, second.dependencies target proper' out.2.1,
        first.dependencies target proper' out.2.2]
  · intro target out
    rw [mem_chain, not_or, not_or] at out
    rw [third.value target out.1, second.value target out.2.1, first.value target out.2.2]

theorem bootstrapKey_ok (shaped : Shaped (m.ensureStateChain key)) (known : Known m.store)
    (proper : ProperKey key) (same : (m.ensureStateChain key).store = m.store)
    (rows : ∀ other, Unaffected reprs store m.store other)
    (covered : ∀ target ∈ chain key, ((m.ensureStateChain key).statusOf target).isSome) :
    ∃ m', bootstrapKey reprs m key = .ok m' ∧
      Chained reprs store key (m.ensureStateChain key) m' := by
  set ensured := m.ensureStateChain key with ensured_eq
  have knownRows : Known ensured.store := same ▸ known
  obtain ⟨w₁, graph₁, wrote₁, marked₁, first, fresh₁⟩ :=
    @renew_ok _ reprs ensured (.state key) shaped knownRows proper (covered _ (by simp [chain]))
  set m₁ : Materialization V := { registerTarget (.state key) w₁ with graph := graph₁ } with m₁_eq
  have registered₁ : (m₁.statusOf (.support key)).isSome := by
    rw [first.status (.support key) proper (fun same => by cases same)]
    exact covered _ (by simp [chain])
  obtain ⟨w₂, graph₂, wrote₂, marked₂, second, fresh₂⟩ :=
    @renew_ok _ reprs m₁ (.support key) first.shaped (knownRows.same first.assertions) proper
      registered₁
  obtain rfl : m₁.writeSupport key = w₂ := Except.ok.inj wrote₂
  set m₂ : Materialization V :=
    { registerTarget (.support key) (m₁.writeSupport key) with graph := graph₂ } with m₂_eq
  have registered₂ : (m₂.statusOf (.context key)).isSome := by
    rw [second.status (.context key) proper (fun same => by cases same),
      first.status (.context key) proper (fun same => by cases same)]
    exact covered _ (by simp [chain])
  obtain ⟨w₃, graph₃, wrote₃, marked₃, third, fresh₃⟩ :=
    @renew_ok _ reprs m₂ (.context key) second.shaped
      ((knownRows.same first.assertions).same second.assertions) proper registered₂
  obtain rfl : m₂.writeContext reprs key = w₃ := Except.ok.inj wrote₃
  refine ⟨_, ?_, chained_of_renewed proper (same ▸ rows) first second third fresh₁ fresh₂ fresh₃⟩
  have state : rebuildState reprs key ensured = .ok (registerTarget (.state key) w₁) :=
    ok_bind wrote₁ _
  unfold bootstrapKey
  rw [ok_bind state]
  refine (ok_bind marked₁ _).trans ?_
  refine (ok_bind marked₂ _).trans ?_
  exact ok_bind marked₃ _

theorem Made.stateChain (made : Made reprs store done m) (known : Known store) (proper : ProperKey key)
    (fresh : ∀ target ∈ chain key, target ∉ done) :
    ∃ m', bootstrapKey reprs m key = .ok m' ∧ Made reprs store (done ++ chain key) m' := by
  have extended := made.shaped.ensureStateChain proper
  have rows := extended.store
  obtain ⟨m', ran, chained⟩ := @bootstrapKey_ok _ reprs _ _ _ extended.shaped (made.known known)
    proper rows made.unaffected fun target here =>
      extended.covered target (List.mem_reverse.mpr here)
  refine ⟨m', ran, ?_, chained.shaped, ?_, ?_, ?_, chained.posted (extended.posted made.posted),
    ?_, ?_, ?_⟩
  · intro target member
    rcases List.mem_append.mp member with before | here
    · exact made.proper target before
    · exact mem_chain_proper proper here
  · rw [chained.evidence, rows, made.evidence]
  · rw [chained.assertions, rows, made.assertions]
  · rw [chained.relations, rows, made.relations]
  · intro subject
    rw [chained.values (.profile subject) (by simp [chain]), extended.value]
    exact made.profiles subject
  · intro target member
    rcases List.mem_append.mp member with before | here
    · have out : target ∉ chain key := fun here => fresh target here before
      have proper' := made.proper target before
      obtain ⟨status, dependencies⟩ := chained.others target proper' out
      obtain ⟨status', dependencies'⟩ := extended.kept target proper' (made.registered before)
      rw [status, dependencies, chained.values target out, status', dependencies', extended.value]
      exact made.held target before
    · exact chained.fresh target here
  · intro target out
    rw [List.mem_append, not_or] at out
    obtain ⟨none, blank⟩ := made.rest target out.1
    refine ⟨fun proper' => ?_, fun other => ?_⟩
    · rw [(chained.others target proper' out.2).1]
      rcases extended.added target proper' (none proper') with still | ⟨_, here⟩
      · exact still
      · exact absurd (List.mem_reverse.mp here) out.2
    · rw [chained.values target out.2, extended.value]
      exact blank other

theorem Made.keys (made : Made reprs store done m) (known : Known store) {keys : List StateKey}
    (distinct : keys.Nodup) (proper : ∀ key ∈ keys, ProperKey key)
    (fresh : ∀ key ∈ keys, ∀ target ∈ chain key, target ∉ done) :
    ∃ m', keys.foldlM (bootstrapKey reprs) m = .ok m' ∧
      Made reprs store (done ++ keys.flatMap chain) m' := by
  induction keys generalizing m done with
  | nil =>
      refine ⟨m, rfl, ?_⟩
      rw [List.flatMap_nil, List.append_nil]
      exact made
  | cons key rest ih =>
      obtain ⟨middle, ran, first⟩ := made.stateChain known (proper key List.mem_cons_self)
        (fresh key List.mem_cons_self)
      obtain ⟨m', ran', last⟩ := ih first (List.nodup_cons.mp distinct).2
        (fun other member => proper other (List.mem_cons_of_mem _ member))
        (fun other member target here => by
          rw [List.mem_append, not_or]
          refine ⟨fresh other (List.mem_cons_of_mem _ member) target here, fun there => ?_⟩
          have same : other = key := by
            rcases mem_chain.mp here with rfl | rfl | rfl <;>
              rcases mem_chain.mp there with same | same | same <;> cases same <;> rfl
          rw [same] at member
          exact (List.nodup_cons.mp distinct).1 member)
      refine ⟨m', (ok_bind ran _).trans ran', ?_⟩
      rw [List.flatMap_cons, ← List.append_assoc]
      exact last

theorem mem_allKeys : key ∈ allKeys store ↔ store.assertionsForKey key ≠ [] := by
  rw [allKeys, List.mem_insertionSort, List.mem_dedup, List.mem_map]
  constructor
  · intro found
    obtain ⟨entry, member, same⟩ := found
    refine List.ne_nil_of_mem (MemoryStore.mem_assertionsForKey.mpr ⟨?_, same⟩)
    have held : store.assertions.lookup entry.1 = some entry.2 := AList.mem_lookup_iff.mpr member
    rw [store.indexed.named _ _ held]
    exact held
  · intro some
    obtain ⟨item, member⟩ := List.exists_mem_of_ne_nil _ some
    obtain ⟨held, same⟩ := MemoryStore.mem_assertionsForKey.mp member
    exact ⟨⟨item.id, item⟩, AList.mem_lookup_iff.mp held, same⟩

theorem nodup_allKeys : (allKeys store).Nodup :=
  (List.perm_insertionSort _ _).nodup_iff.mpr (List.nodup_dedup _)

/-- Every target of a new materialization that the store has something for is fresh and as expected,
and no other one is there. -/
theorem create_made (known : Known store) :
    ∃ m, create reprs store = .ok m ∧
      Made reprs store (store.subjectIds.map .profile ++ (allKeys store).flatMap chain) m := by
  obtain ⟨posted, snapshots⟩ := SubjectProfileIndex.ofStore_spec store
  set blank : Materialization V :=
    ⟨store.withState ∅, .empty, .ofStore store, ∅, ∅, ∅, ∅⟩ with blank_eq
  have empty : ∀ target : Target, blank.statusOf target = none := fun _ => rfl
  have shaped : Shaped blank :=
    { linked := linked_empty
      named := fun node held => by cases held
      kinds := fun target _ held => by
        rw [empty] at held
        cases held
      names := fun target _ held => by
        rw [empty] at held
        cases held
      shape := fun target _ name member => absurd member (Finset.notMem_empty _)
      based := fun target lower _ _ held => by
        rw [empty] at held
        cases held }
  have begun : Made reprs store [] blank :=
    { proper := fun target member => absurd member List.not_mem_nil
      shaped := shaped
      evidence := rfl
      assertions := rfl
      relations := rfl
      posted := posted
      profiles := fun subject => congrArg Value.profile (snapshots subject)
      held := fun target member => absurd member List.not_mem_nil
      rest := fun target _ => ⟨fun _ => empty target, fun other => by
        cases target with
        | profile subject => exact absurd rfl (other subject)
        | state key | support key | context key => rfl⟩ }
  have distinct : store.subjectIds.Nodup := by
    rw [MemoryStore.subjectIds, sorted]
    exact Finset.sort_nodup _ _
  have first := begun.subjects distinct fun _ _ => List.not_mem_nil
  rw [List.nil_append] at first
  obtain ⟨m, ran, last⟩ := first.keys known (@nodup_allKeys _ store)
    (fun key member => by
      obtain ⟨item, inside⟩ := List.exists_mem_of_ne_nil _ (mem_allKeys.mp member)
      exact proper_of_mem known inside)
    (fun key _ target here member => by
      obtain ⟨subject, _, same⟩ := List.mem_map.mp member
      rw [← same] at here
      rcases mem_chain.mp here with same | same | same <;> cases same)
  exact ⟨m, ran, last⟩

theorem reconciledCell_known {cell : Option (StateCell V)}
    (ran : reconciledCell reprs store key = .ok cell) (held : store.assertionsForKey key ≠ []) :
    (REGISTRY.lookup key.2.1).isSome := by
  unfold reconciledCell at ran
  simp only [held, if_false] at ran
  cases cell_ : reconcile reprs (store.assertionsForKey key) (store.relationsForAssertions
      ((store.assertionsForKey key).map Assertion.id).toFinset) none none with
  | error error =>
      rw [cell_] at ran
      cases ran
  | ok cell =>
      exact (reconcile_keyed (fun item member => (MemoryStore.mem_assertionsForKey.mp member).2) held
        cell_).1

theorem bootstrapKey_known (ran : bootstrapKey reprs m key = .ok m') :
    m'.store.assertions = m.store.assertions ∧
      (m.store.assertionsForKey key ≠ [] → (REGISTRY.lookup key.2.1).isSome) := by
  simp only [bootstrapKey, rebuildState, writeState] at ran
  cases cell_ : reconciledCell reprs (m.ensureStateChain key).store key with
  | error error =>
      rw [cell_] at ran
      cases ran
  | ok cell =>
      rw [cell_] at ran
      simp only [bind, Except.bind, pure, Except.pure] at ran
      split at ran
      · cases ran
      · split at ran
        · cases ran
        · split at ran
          · cases ran
          · cases ran
            exact ⟨rfl, reconciledCell_known cell_⟩

theorem bootstrapKeys_known {keys : List StateKey} (ran : keys.foldlM (bootstrapKey reprs) m = .ok m') :
    ∀ key ∈ keys, m.store.assertionsForKey key ≠ [] → (REGISTRY.lookup key.2.1).isSome := by
  induction keys generalizing m with
  | nil => exact fun key member => absurd member List.not_mem_nil
  | cons first rest ih =>
      rw [List.foldlM_cons] at ran
      cases made : bootstrapKey reprs m first with
      | error error =>
          rw [made] at ran
          cases ran
      | ok middle =>
          rw [ok_bind made] at ran
          obtain ⟨same, known⟩ := bootstrapKey_known made
          intro key member held
          rcases List.mem_cons.mp member with rfl | later
          · exact known held
          · have rows : middle.store.assertionsForKey key = m.store.assertionsForKey key :=
              MemoryStore.assertionsForKey_congr fun id item _ => by rw [same]
            exact ih ran key later (rows ▸ held)

theorem ensureProfiles_store (subjects : List String) :
    (subjects.foldl ensureProfile m).store = m.store := by
  induction subjects generalizing m with
  | nil => rfl
  | cons subject rest ih =>
      rw [List.foldl_cons, ih]
      unfold ensureProfile
      simp only
      split <;> rfl

/-- A construction raises when it meets a predicate that is not registered. -/
theorem create_known (ran : create reprs store = .ok m) : Known store := by
  intro id item held
  have member : item ∈ store.assertionsForKey item.key :=
    MemoryStore.mem_assertionsForKey.mpr ⟨by rw [store.indexed.named id item held]; exact held, rfl⟩
  refine bootstrapKeys_known ran item.key (mem_allKeys.mpr (List.ne_nil_of_mem member)) ?_
  rw [ensureProfiles_store]
  exact List.ne_nil_of_mem member

theorem mem_made : target ∈ store.subjectIds.map .profile ++ (allKeys store).flatMap chain ↔
    target.Present store := by
  rw [List.mem_append, List.mem_map, List.mem_flatMap]
  cases target with
  | profile subject =>
      constructor
      · intro found
        rcases found with ⟨other, member, same⟩ | ⟨key, _, here⟩
        · cases same
          exact MemoryStore.mem_subjectIds.mp member
        · rcases mem_chain.mp here with same | same | same <;> cases same
      · intro present
        exact Or.inl ⟨subject, MemoryStore.mem_subjectIds.mpr present, rfl⟩
  | state key | support key | context key =>
      constructor
      · intro found
        rcases found with ⟨_, _, same⟩ | ⟨other, member, here⟩
        · cases same
        · rcases mem_chain.mp here with same | same | same <;> cases same
          exact mem_allKeys.mp member
      · intro present
        exact Or.inr ⟨key, mem_allKeys.mpr present, by simp [chain]⟩

theorem Target.present_below {other : Target} (below : target.below = some other) :
    other.Present store ↔ target.Present store := by
  cases target with
  | profile subject | state key => cases below
  | support key | context key =>
      cases below
      exact Iff.rfl

theorem Made.upheld (known : Known store)
    (made : Made reprs store (store.subjectIds.map .profile ++ (allKeys store).flatMap chain) m) :
    Upheld reprs m ∧ ∀ node, m.graph.statusOf node ≠ some .invalid := by
  have byKey : ∀ key, m.store.assertionsForKey key = store.assertionsForKey key := fun key =>
    MemoryStore.assertionsForKey_congr fun id item _ => by rw [made.assertions]
  have bySubject : ∀ subject, m.store.assertionsForSubject subject =
      store.assertionsForSubject subject := fun subject =>
    MemoryStore.assertionsForSubject_congr fun id item _ => by rw [made.assertions]
  have present : ∀ target : Target, target.Present m.store ↔ target.Present store := by
    intro target
    cases target with
    | profile subject => rw [Target.Present, Target.Present, bySubject]
    | state key | support key | context key => rw [Target.Present, Target.Present, byKey]
  have held : ∀ target : Target, target.Present store → m.statusOf target = some .fresh :=
    fun target here => (made.held target (mem_made.mpr here)).1
  have missing : ∀ target : Target, target.Proper → ¬ target.Present store →
      m.statusOf target = none :=
    fun target proper gone => (made.rest target fun member => gone (mem_made.mp member)).1 proper
  have blank : ∀ target : Target, ¬ target.Present store → m.value target = target.blank := by
    intro target gone
    cases target with
    | profile subject =>
        rw [made.profiles subject]
        exact expected_blank gone
    | state key | support key | context key =>
        exact (made.rest _ fun member => gone (mem_made.mp member)).2 fun _ same => by cases same
  have fresh : ∀ target : Target, target.Proper → m.statusOf target = some .fresh →
      target.Present store := by
    intro target proper status
    by_contra gone
    rw [missing target proper gone] at status
    cases status
  have statuses : ∀ node, m.graph.statusOf node = none ∨ m.graph.statusOf node = some .fresh := by
    intro node
    by_cases registered : (m.graph.statusOf node).isSome
    · obtain ⟨target, proper, rfl⟩ := made.shaped.named node registered
      by_cases here : target.Present store
      · exact Or.inr (held target here)
      · exact Or.inl (missing target proper here)
    · exact Or.inl (Option.not_isSome_iff_eq_none.mp registered)
  refine ⟨{ made.shaped with
    known := made.known known
    posted := made.posted
    fresh := ?_
    absent := ?_
    improper := ?_
    present := ?_
    profiles := ?_
    keys := ?_
    settled := ?_ }, ?_⟩
  · intro target proper status
    have here := fresh target proper status
    obtain ⟨_, dependencies, value⟩ := made.held target (mem_made.mpr here)
    rw [(made.unaffected target).dependencies, (made.unaffected target).expected]
    exact ⟨dependencies, value, fun other below =>
      held other ((Target.present_below below).mpr here)⟩
  · intro target proper status
    refine blank target fun here => ?_
    rw [held target here] at status
    cases status
  · intro target improper
    exact blank target fun here => improper (proper_of_present known here)
  · intro target here
    rw [held target ((present target).mp here)]
    rfl
  · intro subject status
    rw [bySubject]
    exact fresh (.profile subject) trivial status
  · intro key proper vanished _ target here
    rw [byKey] at vanished
    refine missing target (mem_chain_proper proper here) fun some => ?_
    rcases mem_chain.mp here with rfl | rfl | rfl <;> exact some vanished
  · intro node working
    rcases statuses node with none | fresh
    · rw [none] at working
      cases working
    · rw [fresh] at working
      cases working
  · intro node invalid
    rcases statuses node with none | fresh
    · rw [none] at invalid
      cases invalid
    · rw [fresh] at invalid
      cases invalid

end DurableContext.Cascade
