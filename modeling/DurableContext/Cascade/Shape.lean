import DurableContext.Cascade.Unaffected

/-! Registrations and invalidations keep the shape of a materialization's graph. -/

namespace DurableContext.Cascade

open DependencyGraph Materialization

variable {V : Type} {reprs : Reprs V} {m m' m'' : Materialization V}
  {key : StateKey} {target other : Target} {subject : String} {dependencies : Finset String}
  {status : DerivationStatus}

section Register

theorem statusOf_register (proper : target.Proper) (proper' : other.Proper) :
    ({ m with graph := m.graph.registerDerived target.node target.kind dependencies status } :
      Materialization V).statusOf other =
      if other = target then some status else m.statusOf other := by
  refine (statusOf_registerDerived other.node).trans ?_
  by_cases same : other = target
  · rw [if_pos same, if_pos (congrArg Target.node same)]
  · rw [if_neg same, if_neg fun names => same (Target.node_inj proper' proper names)]
    rfl

theorem dependenciesOf_register (proper : target.Proper) (proper' : other.Proper) :
    ({ m with graph := m.graph.registerDerived target.node target.kind dependencies status } :
      Materialization V).dependenciesOf other =
      if other = target then dependencies else m.dependenciesOf other := by
  refine (dependenciesOf_registerDerived other.node).trans ?_
  by_cases same : other = target
  · rw [if_pos same, if_pos (congrArg Target.node same)]
  · rw [if_neg same, if_neg fun names => same (Target.node_inj proper' proper names)]
    rfl

theorem Shaped.register (shaped : Shaped m) (proper : target.Proper) (named : m.Names target)
    (shape : ∀ name ∈ dependencies, target.DependsOn name)
    (based : ∀ other, target.below = some other →
      (m.statusOf other).isSome ∧ other.node ∈ dependencies) (status : DerivationStatus) :
    Shaped { m with graph := m.graph.registerDerived target.node target.kind dependencies status } where
  linked := shaped.linked.registerDerived _ _ _ _
  named := by
    intro node registered
    rw [statusOf_registerDerived] at registered
    by_cases here : node = target.node
    · exact ⟨target, proper, here.symm⟩
    · rw [if_neg here] at registered
      exact shaped.named node registered
  kinds := by
    intro other proper' registered
    rw [statusOf_register proper proper'] at registered
    refine (kindOf_registerDerived other.node).trans ?_
    by_cases same : other = target
    · rw [if_pos (congrArg Target.node same), same]
    · rw [if_neg same] at registered
      rw [if_neg fun names => same (Target.node_inj proper' proper names)]
      exact shaped.kinds other proper' registered
  names := by
    intro other proper' registered
    rw [statusOf_register proper proper'] at registered
    by_cases same : other = target
    · rw [same]
      cases target <;> exact named
    · rw [if_neg same] at registered
      have held := shaped.names other proper' registered
      cases other <;> exact held
  shape := by
    intro other proper' name member
    rw [dependenciesOf_register proper proper'] at member
    by_cases same : other = target
    · rw [if_pos same] at member
      rw [same]
      exact shape name member
    · rw [if_neg same] at member
      exact shaped.shape other proper' name member
  based := by
    intro upper lower proper' below registered
    rw [statusOf_register proper proper'] at registered
    rw [statusOf_register proper (proper'.below below), dependenciesOf_register proper proper']
    by_cases same : upper = target
    · rw [if_pos same]
      rw [same] at below
      obtain ⟨held, member⟩ := based lower below
      refine ⟨?_, member⟩
      by_cases here : lower = target
      · rw [if_pos here]
        rfl
      · rw [if_neg here]
        exact held
    · rw [if_neg same] at registered
      rw [if_neg same]
      obtain ⟨held, member⟩ := shaped.based upper lower proper' below registered
      refine ⟨?_, member⟩
      by_cases here : lower = target
      · rw [if_pos here]
        rfl
      · rw [if_neg here]
        exact held

end Register

section Names

theorem Shaped.nameKey (shaped : Shaped m) (top : Target) (proper : top.Proper)
    (held : ∀ keyByNode : Table String StateKey, keyByNode.lookup top.node = some key →
      ({ m with keyByNode } : Materialization V).Names top) :
    Shaped { m with keyByNode := m.keyByNode.insert top.node key } where
  linked := shaped.linked
  named := shaped.named
  kinds := shaped.kinds
  names := by
    intro other proper' registered
    by_cases same : other = top
    · rw [same]
      exact held _ (AList.lookup_insert _)
    · have apart : other.node ≠ top.node := fun names => same (Target.node_inj proper' proper names)
      have before := shaped.names other proper' registered
      cases other with
      | profile subject => exact before
      | state key' | support key' | context key' =>
          refine Eq.trans ?_ before
          exact AList.lookup_insert_ne apart
  shape := shaped.shape
  based := shaped.based

theorem Shaped.nameSubject (shaped : Shaped m) (subject : String) :
    Shaped { m with
      subjectByProfileNode := m.subjectByProfileNode.insert (profileNode subject) subject } where
  linked := shaped.linked
  named := shaped.named
  kinds := shaped.kinds
  names := by
    intro other proper' registered
    have before := shaped.names other proper' registered
    cases other with
    | profile subject' =>
        show (m.subjectByProfileNode.insert (profileNode subject) subject).lookup
          (profileNode subject') = some subject'
        by_cases same : profileNode subject' = profileNode subject
        · rw [same, AList.lookup_insert]
          exact congrArg some ((String.append_right_inj _).mp same).symm
        · rw [AList.lookup_insert_ne same]
          exact before
    | state key | support key | context key => exact before
  shape := shaped.shape
  based := shaped.based

end Names

section Extend

structure Extended (targets : List Target) (m m' : Materialization V) : Prop where
  proper : ∀ target ∈ targets, target.Proper
  shaped : Shaped m'
  store : m'.store = m.store
  value : ∀ target, m'.value target = m.value target
  posted : m.index.Posted → m'.index.Posted
  kept : ∀ target : Target, target.Proper → (m.statusOf target).isSome →
    m'.statusOf target = m.statusOf target ∧ m'.dependenciesOf target = m.dependenciesOf target
  added : ∀ target : Target, target.Proper → m.statusOf target = none →
    m'.statusOf target = none ∨ (m'.statusOf target = some .fresh ∧ target ∈ targets)
  covered : ∀ target ∈ targets, (m'.statusOf target).isSome

theorem Extended.same (shaped : Shaped m') (store : m'.store = m.store)
    (value : ∀ target, m'.value target = m.value target) (index : m'.index = m.index)
    (graph : m'.graph = m.graph) : Extended [] m m' where
  proper := fun target member => absurd member List.not_mem_nil
  shaped := shaped
  store := store
  value := value
  posted := fun posted => index ▸ posted
  kept := fun target _ _ => by
    simp only [Materialization.statusOf, Materialization.dependenciesOf, graph, and_self]
  added := fun target _ absent => Or.inl (by
    rw [← absent, Materialization.statusOf, Materialization.statusOf, graph])
  covered := fun target member => absurd member List.not_mem_nil

theorem Extended.trans {targets targets' : List Target} (first : Extended targets m m')
    (second : Extended targets' m' m'') : Extended (targets ++ targets') m m'' where
  proper := by
    intro target member
    rcases List.mem_append.mp member with before | after
    · exact first.proper target before
    · exact second.proper target after
  shaped := second.shaped
  store := second.store.trans first.store
  value := fun target => (second.value target).trans (first.value target)
  posted := fun posted => second.posted (first.posted posted)
  kept := by
    intro target proper registered
    obtain ⟨status, dependencies⟩ := first.kept target proper registered
    obtain ⟨status', dependencies'⟩ := second.kept target proper (by rw [status]; exact registered)
    exact ⟨status'.trans status, dependencies'.trans dependencies⟩
  added := by
    intro target proper absent
    rcases first.added target proper absent with still | ⟨fresh, member⟩
    · rcases second.added target proper still with still' | ⟨fresh, member⟩
      · exact Or.inl still'
      · exact Or.inr ⟨fresh, List.mem_append_right _ member⟩
    · have registered : (m'.statusOf target).isSome := by
        rw [fresh]
        rfl
      exact Or.inr ⟨(second.kept target proper registered).1.trans fresh,
        List.mem_append_left _ member⟩
  covered := by
    intro target member
    rcases List.mem_append.mp member with before | after
    · have registered := first.covered target before
      rw [(second.kept target (first.proper target before) registered).1]
      exact registered
    · exact second.covered target after

theorem Shaped.ensure (shaped : Shaped m) (target : Target) (proper : target.Proper)
    (named : m.Names target) (dependencies : Finset String)
    (shape : ∀ name ∈ dependencies, target.DependsOn name)
    (based : ∀ other, target.below = some other →
      (m.statusOf other).isSome ∧ other.node ∈ dependencies) :
    Extended [target] m
      { m with graph := ensureNode m.graph target.node target.kind dependencies } := by
  by_cases absent : m.statusOf target = none
  · have registers : ensureNode m.graph target.node target.kind dependencies =
        m.graph.registerDerived target.node target.kind dependencies .fresh := if_pos absent
    rw [registers]
    exact
      { proper := fun other member => List.mem_singleton.mp member ▸ proper
        shaped := shaped.register proper named shape based .fresh
        store := rfl
        value := fun other => by cases other <;> rfl
        posted := id
        kept := by
          intro other proper' registered
          have apart : other ≠ target := by
            intro same
            rw [same, absent] at registered
            cases registered
          rw [statusOf_register proper proper', dependenciesOf_register proper proper',
            if_neg apart, if_neg apart]
          exact ⟨rfl, rfl⟩
        added := by
          intro other proper' missing
          rw [statusOf_register proper proper']
          by_cases same : other = target
          · rw [if_pos same, same]
            exact Or.inr ⟨rfl, List.mem_singleton_self _⟩
          · rw [if_neg same]
            exact Or.inl missing
        covered := by
          intro other member
          rw [List.mem_singleton.mp member, statusOf_register proper proper, if_pos rfl]
          rfl }
  · have stays : ensureNode m.graph target.node target.kind dependencies = m.graph := if_neg absent
    rw [stays]
    exact
      { proper := fun other member => List.mem_singleton.mp member ▸ proper
        shaped := shaped
        store := rfl
        value := fun other => rfl
        posted := id
        kept := fun _ _ _ => ⟨rfl, rfl⟩
        added := fun _ _ missing => Or.inl missing
        covered := by
          intro other member
          rw [List.mem_singleton.mp member]
          exact Option.isSome_iff_ne_none.mpr absent }

theorem Shaped.ensureStateChain (shaped : Shaped m) (proper : ProperKey key) :
    Extended (chain key).reverse m (m.ensureStateChain key) := by
  have stateSupport : stateNode key ≠ supportNode key := fun names =>
    Target.noConfusion (@Target.node_inj (.state key) (.support key) proper proper names)
  have stateContext : stateNode key ≠ contextNode key := fun names =>
    Target.noConfusion (@Target.node_inj (.state key) (.context key) proper proper names)
  have supportContext : supportNode key ≠ contextNode key := fun names =>
    Target.noConfusion (@Target.node_inj (.support key) (.context key) proper proper names)
  set names : Table String StateKey :=
    ((m.keyByNode.insert (stateNode key) key).insert (supportNode key) key).insert
      (contextNode key) key with names_eq
  set named : Materialization V := { m with keyByNode := names } with named_eq
  have begun : Extended [] m named :=
    .same (((shaped.nameKey (.state key) proper fun _ found => found).nameKey (.support key) proper
      fun _ found => found).nameKey (.context key) proper fun _ found => found) rfl
      (fun other => by cases other <;> rfl) rfl rfl
  have namesState : names.lookup (stateNode key) = some key := by
    rw [names_eq, AList.lookup_insert_ne stateContext, AList.lookup_insert_ne stateSupport,
      AList.lookup_insert]
  have namesSupport : names.lookup (supportNode key) = some key := by
    rw [names_eq, AList.lookup_insert_ne supportContext, AList.lookup_insert]
  have namesContext : names.lookup (contextNode key) = some key := by
    rw [names_eq, AList.lookup_insert]
  have first := begun.shaped.ensure (.state key) proper namesState (stateDependencies m.store key)
    (fun name member => Or.inl (mem_stateDependencies member)) (fun other below => by cases below)
  have second := first.shaped.ensure (.support key) proper namesSupport {stateNode key}
    (fun name member => Or.inr ⟨_, rfl, Finset.mem_singleton.mp member⟩)
    (fun other below => by
      cases below
      exact ⟨first.covered _ (List.mem_singleton_self _), Finset.mem_singleton_self _⟩)
  have third := second.shaped.ensure (.context key) proper namesContext {supportNode key}
    (fun name member => Or.inr ⟨_, rfl, Finset.mem_singleton.mp member⟩)
    (fun other below => by
      cases below
      exact ⟨second.covered _ (List.mem_singleton_self _), Finset.mem_singleton_self _⟩)
  exact ((begun.trans first).trans second).trans third

theorem Shaped.ensureProfile (shaped : Shaped m) (subject : String) :
    Extended [.profile subject] m (m.ensureProfile subject) := by
  set named : Materialization V := { m with
    subjectByProfileNode := m.subjectByProfileNode.insert (profileNode subject) subject }
    with named_eq
  have begun : Extended [] m named :=
    .same (shaped.nameSubject subject) rfl (fun other => by cases other <;> rfl) rfl rfl
  have first := begun.shaped.ensure (.profile subject) trivial (AList.lookup_insert _)
    (profileDependencies m.store subject)
    (fun name member => Or.inl (mem_profileDependencies member)) (fun other below => by cases below)
  have ensured : m.ensureProfile subject = { named with
      graph := ensureNode named.graph (profileNode subject) .profile
        (profileDependencies m.store subject) } := by
    unfold Materialization.ensureProfile ensureNode
    simp only
    split <;> rfl
  rw [ensured]
  exact begun.trans first

theorem Shaped.ensureKeys (shaped : Shaped m) {keys : List StateKey}
    (proper : ∀ key ∈ keys, ProperKey key) :
    Extended (keys.flatMap fun key => (chain key).reverse) m
      (keys.foldl Materialization.ensureStateChain m) := by
  induction keys generalizing m with
  | nil => exact .same shaped rfl (fun _ => rfl) rfl rfl
  | cons key rest ih =>
      have first := shaped.ensureStateChain (proper key List.mem_cons_self)
      exact first.trans (ih first.shaped fun other member =>
        proper other (List.mem_cons_of_mem _ member))

theorem Shaped.ensureSubjects (shaped : Shaped m) (subjects : List String) :
    Extended (subjects.map .profile) m (subjects.foldl Materialization.ensureProfile m) := by
  induction subjects generalizing m with
  | nil => exact .same shaped rfl (fun _ => rfl) rfl rfl
  | cons subject rest ih =>
      have first := shaped.ensureProfile subject
      exact first.trans (ih first.shaped)

end Extend

section Statuses

theorem Shaped.congr (shaped : Shaped m) (graph : m'.graph = m.graph)
    (keys : m'.keyByNode = m.keyByNode)
    (subjects : m'.subjectByProfileNode = m.subjectByProfileNode) : Shaped m' where
  linked := graph ▸ shaped.linked
  named := graph ▸ shaped.named
  kinds := by
    intro target proper registered
    rw [Materialization.statusOf, graph] at registered
    rw [graph]
    exact shaped.kinds target proper registered
  names := by
    intro target proper registered
    rw [Materialization.statusOf, graph] at registered
    have held := shaped.names target proper registered
    cases target with
    | profile subject => exact (congrArg _ subjects).trans held
    | state key | support key | context key => exact (congrArg _ keys).trans held
  shape := by
    intro target proper name member
    rw [Materialization.dependenciesOf, graph] at member
    exact shaped.shape target proper name member
  based := by
    intro upper lower proper below registered
    simp only [Materialization.statusOf, Materialization.dependenciesOf, graph] at registered ⊢
    exact shaped.based upper lower proper below registered

theorem Shaped.restatus (shaped : Shaped m) {statuses : Table String DerivationStatus}
    (same : ∀ node, (statuses.lookup node).isSome ↔ (m.graph.statusOf node).isSome) :
    Shaped { m with graph := { m.graph with status := statuses } } where
  linked := shaped.linked.withStatus same
  named := fun node registered => shaped.named node ((same node).mp registered)
  kinds := fun other proper registered => shaped.kinds other proper ((same other.node).mp registered)
  names := by
    intro other proper registered
    have held := shaped.names other proper ((same other.node).mp registered)
    cases other <;> exact held
  shape := shaped.shape
  based := by
    intro upper lower proper below registered
    obtain ⟨held, member⟩ := shaped.based upper lower proper below ((same upper.node).mp registered)
    exact ⟨(same lower.node).mpr held, member⟩

theorem Shaped.above (shaped : Shaped m) (proper : target.Proper) (below : target.below = some other)
    (registered : (m.statusOf target).isSome) : target.node ∈ m.graph.dependentsOf other.node :=
  (shaped.linked.inverse other.node target.node).mpr
    (shaped.based target other proper below registered).2

end Statuses

end DurableContext.Cascade
