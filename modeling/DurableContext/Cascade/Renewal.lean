import DurableContext.Cascade.Mutations

/-! What the rebuild of one node writes: a value and a lineage that are those expected of its target,
as long as what it rests on is. -/

namespace DurableContext.Cascade

open DependencyGraph Materialization
open Program (ok_bind)

variable {V : Type} {reprs : Reprs V} {m m' m'' : Materialization V} {target other : Target}
  {status : DerivationStatus}

/-- A change of one target, and of nothing else but the store's cells. -/
structure Touched (target : Target) (m m' : Materialization V) : Prop where
  shaped : Shaped m'
  evidence : m'.store.evidence = m.store.evidence
  assertions : m'.store.assertions = m.store.assertions
  relations : m'.store.relations = m.store.relations
  keyByNode : m'.keyByNode = m.keyByNode
  subjectByProfileNode : m'.subjectByProfileNode = m.subjectByProfileNode
  status : ∀ other : Target, other.Proper → other ≠ target → m'.statusOf other = m.statusOf other
  dependencies : ∀ other : Target, other.Proper → other ≠ target →
    m'.dependenciesOf other = m.dependenciesOf other
  value : ∀ other : Target, other ≠ target → m'.value other = m.value other
  posted : m.index.Posted → m'.index.Posted

theorem Touched.trans (first : Touched target m m') (second : Touched target m' m'') :
    Touched target m m'' where
  shaped := second.shaped
  evidence := second.evidence.trans first.evidence
  assertions := second.assertions.trans first.assertions
  relations := second.relations.trans first.relations
  keyByNode := second.keyByNode.trans first.keyByNode
  subjectByProfileNode := second.subjectByProfileNode.trans first.subjectByProfileNode
  status := fun other proper apart =>
    (second.status other proper apart).trans (first.status other proper apart)
  dependencies := fun other proper apart =>
    (second.dependencies other proper apart).trans (first.dependencies other proper apart)
  value := fun other apart => (second.value other apart).trans (first.value other apart)
  posted := fun posted => second.posted (first.posted posted)

section Writes

/-- The value of a target and then its lineage. -/
def writeTarget (reprs : Reprs V) : Target → Materialization V → Except Raised (Materialization V)
  | .profile subject => fun m => .ok (m.writeProfile subject)
  | .state key => writeState reprs key
  | .support key => fun m => .ok (m.writeSupport key)
  | .context key => fun m => .ok (m.writeContext reprs key)

def registerTarget : Target → Materialization V → Materialization V
  | .profile subject => registerProfile subject
  | .state key => registerState key
  | .support key => registerSupport key
  | .context key => registerContext key

/-- What is written of a target, and what it is registered on. -/
def written (reprs : Reprs V) (m : Materialization V) : Target → Value V
  | .profile subject => .profile (SubjectProfileIndex.snapshotSubject m.store subject)
  | .state key => .state (expectedCell reprs m.store key)
  | .support key => .support ((m.store.state.lookup key).map (supportSnapshot m.store key))
  | .context key => .context ((m.supports.lookup key).map (contextText reprs key))

def lineage (m : Materialization V) : Target → Finset String
  | .profile subject => profileDependencies m.store subject
  | .state key => stateDependencies m.store key
  | .support key => supportDependencies m.store key (m.store.state.lookup key)
  | .context key => {supportNode key}

theorem written_expected (rests : ∀ lower, target.below = some lower →
      m.value lower = lower.expected reprs m.store) :
    written reprs m target = target.expected reprs m.store ∧
      lineage m target = target.dependencies reprs m.store := by
  cases target with
  | profile subject => exact ⟨rfl, rfl⟩
  | state key => exact ⟨rfl, rfl⟩
  | support key =>
      have cell : m.store.state.lookup key = expectedCell reprs m.store key :=
        Value.state.inj (rests (.state key) rfl)
      simp only [written, lineage, cell]
      exact ⟨rfl, rfl⟩
  | context key =>
      have support : m.supports.lookup key = expectedSupport reprs m.store key :=
        Value.support.inj (rests (.support key) rfl)
      simp only [written, support]
      exact ⟨rfl, rfl⟩

theorem writeTarget_ok (shaped : Shaped m) (known : Known m.store) (target : Target) :
    ∃ m', writeTarget reprs target m = .ok m' ∧ Touched target m m' ∧ m'.graph = m.graph ∧
      m'.value target = written reprs m target := by
  cases target with
  | profile subject =>
      have snapshot : ∀ other, (m.writeProfile subject).index.snapshotOf other =
          if other = subject then SubjectProfileIndex.snapshotSubject m.store subject
          else m.index.snapshotOf other := SubjectProfileIndex.snapshotOf_refreshSubject
      refine ⟨_, rfl, ⟨shaped.congr rfl rfl rfl, rfl, rfl, rfl, rfl, rfl, fun _ _ _ => rfl,
        fun _ _ _ => rfl, ?_, fun posted => posted.refreshSubject m.store subject⟩, rfl, ?_⟩
      · intro other apart
        cases other with
        | profile subject' =>
            have differs : subject' ≠ subject := fun same => apart (by rw [same])
            rw [Materialization.value, snapshot, if_neg differs]
            rfl
        | state key | support key | context key => rfl
      · rw [Materialization.value, snapshot, if_pos rfl]
        rfl
  | state key =>
      refine ⟨_, ok_bind (reconciledCell_ok known key) _, ⟨shaped.congr rfl rfl rfl, rfl, rfl, rfl,
        rfl, rfl, fun _ _ _ => rfl, fun _ _ _ => rfl, ?_, id⟩, rfl, ?_⟩
      · intro other apart
        cases other with
        | state key' =>
            have differs : key' ≠ key := fun same => apart (by rw [same])
            refine congrArg Value.state ?_
            exact (Table.lookup_put _ _ _ _).trans (if_neg differs)
        | profile subject | support key' | context key' => rfl
      · refine congrArg Value.state ?_
        exact (Table.lookup_put _ _ _ _).trans (if_pos rfl)
  | support key =>
      refine ⟨_, rfl, ⟨shaped.congr rfl rfl rfl, rfl, rfl, rfl, rfl, rfl, fun _ _ _ => rfl,
        fun _ _ _ => rfl, ?_, id⟩, rfl, ?_⟩
      · intro other apart
        cases other with
        | support key' =>
            have differs : key' ≠ key := fun same => apart (by rw [same])
            refine congrArg Value.support ?_
            exact (Table.lookup_put _ _ _ _).trans (if_neg differs)
        | profile subject | state key' | context key' => rfl
      · refine congrArg Value.support ?_
        exact (Table.lookup_put _ _ _ _).trans (if_pos rfl)
  | context key =>
      refine ⟨_, rfl, ⟨shaped.congr rfl rfl rfl, rfl, rfl, rfl, rfl, rfl, fun _ _ _ => rfl,
        fun _ _ _ => rfl, ?_, id⟩, rfl, ?_⟩
      · intro other apart
        cases other with
        | context key' =>
            have differs : key' ≠ key := fun same => apart (by rw [same])
            refine congrArg Value.context ?_
            exact (Table.lookup_put _ _ _ _).trans (if_neg differs)
        | profile subject | state key' | support key' => rfl
      · refine congrArg Value.context ?_
        exact (Table.lookup_put _ _ _ _).trans (if_pos rfl)

theorem registerTarget_eq (target : Target) (m : Materialization V) :
    registerTarget target m = { m with
      graph := m.graph.registerDerived target.node target.kind (lineage m target) .rebuilding } := by
  cases target <;> rfl

theorem registerTarget_ok (shaped : Shaped m) (proper : target.Proper)
    (registered : (m.statusOf target).isSome) :
    Touched target m (registerTarget target m) ∧
      (registerTarget target m).statusOf target = some .rebuilding ∧
      (registerTarget target m).dependenciesOf target = lineage m target ∧
      (registerTarget target m).value target = m.value target := by
  rw [registerTarget_eq]
  have shape : ∀ name ∈ lineage m target, target.DependsOn name := by
    intro name member
    cases target with
    | profile subject => exact Or.inl (mem_profileDependencies member)
    | state key => exact Or.inl (mem_stateDependencies member)
    | support key => exact mem_supportDependencies member
    | context key => exact Or.inr ⟨_, rfl, Finset.mem_singleton.mp member⟩
  have based : ∀ lower, target.below = some lower →
      (m.statusOf lower).isSome ∧ lower.node ∈ lineage m target := by
    intro lower below
    refine ⟨(shaped.based target lower proper below registered).1, ?_⟩
    cases target with
    | profile subject | state key => cases below
    | support key =>
        cases below
        exact state_mem_supportDependencies _
    | context key =>
        cases below
        exact Finset.mem_singleton_self _
  refine ⟨⟨shaped.register proper (shaped.names target proper registered) shape based .rebuilding,
    rfl, rfl, rfl, rfl, rfl, ?_, ?_, ?_, id⟩, ?_, ?_, ?_⟩
  · intro other proper' apart
    rw [statusOf_register proper proper', if_neg apart]
  · intro other proper' apart
    rw [dependenciesOf_register proper proper', if_neg apart]
  · intro other _
    cases other <;> rfl
  · rw [statusOf_register proper proper, if_pos rfl]
  · rw [dependenciesOf_register proper proper, if_pos rfl]
  · cases target <;> rfl

theorem mark_ok (shaped : Shaped m) (proper : target.Proper) (registered : (m.statusOf target).isSome)
    (status : DerivationStatus) :
    ∃ graph, m.graph.mark target.node status = .ok graph ∧ Touched target m { m with graph } ∧
      ({ m with graph } : Materialization V).statusOf target = some status ∧
      ({ m with graph } : Materialization V).dependenciesOf target = m.dependenciesOf target ∧
      ({ m with graph } : Materialization V).value target = m.value target := by
  have held : m.graph.statusOf target.node ≠ none := Option.isSome_iff_ne_none.mp registered
  refine ⟨{ m.graph with status := m.graph.status.insert target.node status }, if_neg held,
    ⟨shaped.restatus ?_, rfl, rfl, rfl, rfl, rfl, ?_, fun _ _ _ => rfl, ?_, id⟩,
    AList.lookup_insert _, rfl, ?_⟩
  · intro node
    by_cases here : node = target.node
    · rw [here, AList.lookup_insert]
      exact iff_of_true rfl registered
    · rw [AList.lookup_insert_ne here]
      rfl
  · intro other proper' apart
    exact AList.lookup_insert_ne fun names => apart (Target.node_inj proper' proper names)
  · intro other _
    cases other <;> rfl
  · cases target <;> rfl

end Writes

/-- A target that is not fresh may change; once it is fresh it holds what is expected. -/
theorem Sound.touched (sound : Sound reprs m) (touched : Touched target m m')
    (proper : target.Proper) (stale : m.statusOf target ≠ some .fresh)
    (registered : (m'.statusOf target).isSome)
    (renewed : m'.statusOf target = some .fresh →
      m'.dependenciesOf target = target.dependencies reprs m.store ∧
        m'.value target = target.expected reprs m.store ∧
        ∀ lower, target.below = some lower → m.statusOf lower = some .fresh) : Sound reprs m' where
  toShaped := touched.shaped
  known := sound.known.same touched.assertions
  posted := touched.posted sound.posted
  fresh := by
    intro other proper' fresh
    have same : Unaffected reprs m.store m'.store other :=
      unaffected_canonical touched.evidence touched.assertions touched.relations other
    rw [same.dependencies, same.expected]
    by_cases here : other = target
    · subst here
      obtain ⟨edges, held, rests⟩ := renewed fresh
      refine ⟨edges, held, fun lower below => ?_⟩
      have apart : lower ≠ other := by
        intro loop
        rw [loop] at below
        cases other <;> cases below
      rw [touched.status lower (proper.below below) apart]
      exact rests lower below
    · rw [touched.status other proper' here] at fresh
      obtain ⟨edges, held, rests⟩ := sound.fresh other proper' fresh
      refine ⟨(touched.dependencies other proper' here).trans edges,
        (touched.value other here).trans held, fun lower below => ?_⟩
      have apart : lower ≠ target := fun same => stale (same ▸ rests lower below)
      rw [touched.status lower (proper'.below below) apart]
      exact rests lower below
  absent := by
    intro other proper' none
    have apart : other ≠ target := by
      intro same
      rw [same] at none
      rw [none] at registered
      cases registered
    rw [touched.value other apart]
    rw [touched.status other proper' apart] at none
    exact sound.absent other proper' none
  improper := by
    intro other improper
    have apart : other ≠ target := fun same => improper (same ▸ proper)
    rw [touched.value other apart]
    exact sound.improper other improper
  present := by
    intro other held
    by_cases here : other = target
    · rw [here]
      exact registered
    · have before : other.Present m.store := by
        cases other with
        | profile subject =>
            exact fun none => held (none ▸ MemoryStore.assertionsForSubject_congr fun id item _ => by
              rw [touched.assertions])
        | state key | support key | context key =>
            exact fun none => held (none ▸ MemoryStore.assertionsForKey_congr fun id item _ => by
              rw [touched.assertions])
      have proper' : other.Proper := proper_of_present sound.known before
      rw [touched.status other proper' here]
      exact sound.present other before

section Sessions

open Program Session

theorem write_run {change : Materialization V → Except Raised (Materialization V)}
    {session : Session V} (made : change session.held = .ok m) :
    write change session = .ok () { session with
      held := m
      images := session.images ++ [m] } := by
  unfold write
  rw [made]

def finishNode (reprs : Reprs V) (node : String) : Op Raised (Session V) Unit := do
  writeGraph fun graph => graph.markRebuilding node
  rebuildKind reprs node ((← get).held.graph.kindOf node)
  writeGraph fun graph => graph.markFresh node
  modify fun session => { session with
    rebuilt := insert node session.rebuilt
    visiting := session.visiting.erase node
    done := insert node session.done }

theorem rebuildKind_eq (session : Session V) (named : session.held.Names target) :
    rebuildKind reprs target.node (some target.kind) session =
      (do
        write (writeTarget reprs target)
        write fun m => .ok (registerTarget target m) : Op Raised (Session V) Unit) session := by
  cases target with
  | profile subject =>
      have found : subjectOf session (profileNode subject) = .ok subject := by
        unfold subjectOf
        rw [show session.held.subjectByProfileNode.lookup (profileNode subject) = some subject from
          named]
      simp only [rebuildKind, Target.kind, Target.node]
      rw [bind_of_ok (get_run _), found, bind_of_ok (ofResult_ok _ _)]
      rfl
  | state key =>
      have found : keyOf session (stateNode key) = .ok key := by
        unfold keyOf
        rw [show session.held.keyByNode.lookup (stateNode key) = some key from named]
      simp only [rebuildKind, Target.kind, Target.node]
      rw [bind_of_ok (get_run _), found, bind_of_ok (ofResult_ok _ _)]
      rfl
  | support key =>
      have found : keyOf session (supportNode key) = .ok key := by
        unfold keyOf
        rw [show session.held.keyByNode.lookup (supportNode key) = some key from named]
      simp only [rebuildKind, Target.kind, Target.node]
      rw [bind_of_ok (get_run _), found, bind_of_ok (ofResult_ok _ _)]
      rfl
  | context key =>
      have found : keyOf session (contextNode key) = .ok key := by
        unfold keyOf
        rw [show session.held.keyByNode.lookup (contextNode key) = some key from named]
      simp only [rebuildKind, Target.kind, Target.node]
      rw [bind_of_ok (get_run _), found, bind_of_ok (ofResult_ok _ _)]
      rfl

/-- The images of one node's rebuild: it is marked, its value is written, then its lineage, and it is
marked again. -/
structure Renewed (reprs : Reprs V) (target : Target) (m m' : Materialization V)
    (images : List (Materialization V)) : Prop where
  touched : Touched target m m'
  fresh : m'.statusOf target = some .fresh
  lineage : m'.dependenciesOf target = lineage m target
  value : m'.value target = written reprs m target
  marked : ∃ image ∈ images, image.statusOf target = some .rebuilding
  images : ∀ image ∈ images, Touched target m image ∧
    (image = m' ∨ image.statusOf target = some .rebuilding)

theorem written_congr (touched : Touched target m m') : written reprs m' target =
    written reprs m target ∧ lineage m' target = lineage m target := by
  have same : ∀ other, Unaffected reprs m.store m'.store other :=
    unaffected_canonical touched.evidence touched.assertions touched.relations
  cases target with
  | profile subject => exact ⟨(same (.profile subject)).expected, (same (.profile subject)).dependencies⟩
  | state key => exact ⟨(same (.state key)).expected, (same (.state key)).dependencies⟩
  | support key =>
      have cell : m'.store.state.lookup key = m.store.state.lookup key :=
        Value.state.inj (touched.value (.state key) (fun same => by cases same))
      have snapshot : ∀ cell, supportSnapshot m'.store key cell = supportSnapshot m.store key cell := by
        intro cell
        simp only [supportSnapshot, evidencePayloads, activeAssertions, touched.evidence,
          touched.assertions]
      refine ⟨?_, ?_⟩
      · simp only [written, cell]
        rw [show supportSnapshot m'.store key = supportSnapshot m.store key from funext snapshot]
      · simp only [lineage, cell]
        cases m.store.state.lookup key with
        | none => rfl
        | some cell => simp only [supportDependencies, activeAssertions, touched.assertions]
  | context key =>
      have support : m'.supports.lookup key = m.supports.lookup key :=
        Value.support.inj (touched.value (.support key) (fun same => by cases same))
      simp only [written, support]
      exact ⟨trivial, rfl⟩

theorem finishNode_run {session : Session V} (shaped : Shaped session.held)
    (known : Known session.held.store) (proper : target.Proper)
    (registered : (session.held.statusOf target).isSome) :
    ∃ m' images, Renewed reprs target session.held m' images ∧
      finishNode reprs target.node session = .ok ⟨⟩
        { held := m'
          visiting := session.visiting.erase target.node
          done := insert target.node session.done
          rebuilt := insert target.node session.rebuilt
          images := session.images ++ images } := by
  obtain ⟨graph, marked, first, status₁, lineage₁, value₁⟩ :=
    mark_ok shaped proper registered .rebuilding
  set m₁ : Materialization V := { session.held with graph } with m₁_eq
  obtain ⟨m₂, wrote, second, graph₂, value₂⟩ :=
    @writeTarget_ok _ reprs _ first.shaped (known.same first.assertions) target
  have status₂ : m₂.statusOf target = some .rebuilding := by
    rw [Materialization.statusOf, graph₂]
    exact status₁
  have registered₂ : (m₂.statusOf target).isSome := by
    rw [status₂]
    rfl
  obtain ⟨third, status₃, lineage₃, value₃⟩ := registerTarget_ok second.shaped proper registered₂
  have registered₃ : ((registerTarget target m₂).statusOf target).isSome := by
    rw [status₃]
    rfl
  obtain ⟨graph', marked', fourth, status₄, lineage₄, value₄⟩ :=
    mark_ok third.shaped proper registered₃ .fresh
  have all₂ := first.trans second
  have all₃ := all₂.trans third
  have all₄ := all₃.trans fourth
  set m₄ : Materialization V := { registerTarget target m₂ with graph := graph' } with m₄_eq
  refine ⟨m₄, [m₁, m₂, registerTarget target m₂, m₄], ⟨all₄, status₄, ?_, ?_,
    ⟨m₁, List.mem_cons_self, status₁⟩, ?_⟩, ?_⟩
  · rw [lineage₄, lineage₃]
    exact (@written_congr _ reprs _ _ _ all₂).2
  · rw [value₄, value₃, value₂]
    exact (written_congr first).1
  · intro image member
    simp only [List.mem_cons, List.not_mem_nil, or_false] at member
    rcases member with rfl | rfl | rfl | rfl
    · exact ⟨first, Or.inr status₁⟩
    · exact ⟨all₂, Or.inr status₂⟩
    · exact ⟨all₃, Or.inr status₃⟩
    · exact ⟨all₄, Or.inl rfl⟩
  · have kind : m₁.graph.kindOf target.node = some target.kind := by
      refine first.shaped.kinds target proper ?_
      rw [status₁]
      rfl
    have named : m₁.Names target := first.shaped.names target proper (by rw [status₁]; rfl)
    have mark₁ : (writeGraph fun graph => graph.markRebuilding target.node) session =
        .ok ⟨⟩ { session with
          held := m₁
          images := session.images ++ [m₁] } :=
      write_run (congrArg (Except.map _) marked)
    have wrote₂ : write (writeTarget reprs target) { session with
          held := m₁
          images := session.images ++ [m₁] } = .ok ⟨⟩ { session with
          held := m₂
          images := session.images ++ [m₁] ++ [m₂] } := write_run wrote
    have wrote₃ : write (fun m => .ok (registerTarget target m)) { session with
          held := m₂
          images := session.images ++ [m₁] ++ [m₂] } = .ok ⟨⟩ { session with
          held := registerTarget target m₂
          images := session.images ++ [m₁] ++ [m₂] ++ [registerTarget target m₂] } :=
      write_run rfl
    have mark₄ : (writeGraph fun graph => graph.markFresh target.node) { session with
          held := registerTarget target m₂
          images := session.images ++ [m₁] ++ [m₂] ++ [registerTarget target m₂] } =
        .ok ⟨⟩ { session with
          held := m₄
          images := session.images ++ [m₁] ++ [m₂] ++ [registerTarget target m₂] ++ [m₄] } :=
      write_run (congrArg (Except.map _) marked')
    have rebuilt : rebuildKind reprs target.node (some target.kind) { session with
          held := m₁
          images := session.images ++ [m₁] } = .ok ⟨⟩ { session with
          held := registerTarget target m₂
          images := session.images ++ [m₁] ++ [m₂] ++ [registerTarget target m₂] } :=
      (rebuildKind_eq { session with
        held := m₁
        images := session.images ++ [m₁] } named).trans ((bind_of_ok wrote₂).trans wrote₃)
    unfold finishNode
    rw [bind_of_ok mark₁, bind_of_ok (get_run _), kind, bind_of_ok rebuilt, bind_of_ok mark₄,
      modify_run]
    simp only [List.append_assoc, List.cons_append, List.nil_append]

end Sessions

end DurableContext.Cascade
