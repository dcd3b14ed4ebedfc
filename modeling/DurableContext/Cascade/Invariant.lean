import DurableContext.Cascade.Targets

/-! What a materialization should hold for each target, and the invariant of one that is being
maintained: a fresh node holds what a new materialization would and rests on fresh nodes only. -/

namespace DurableContext.Cascade

open DependencyGraph

variable {V : Type}

inductive Value (V : Type) where
  | profile (snapshot : Snapshot)
  | state (cell : Option (StateCell V))
  | support (snapshot : Option (SupportSnapshot V))
  | context (text : Option String)

section Expected

variable (reprs : Reprs V) (store : MemoryStore V)

def expectedCell (key : StateKey) : Option (StateCell V) :=
  match reconciledCell reprs store key with
  | .ok cell => cell
  | .error _ => none

def expectedSupport (key : StateKey) : Option (SupportSnapshot V) :=
  (expectedCell reprs store key).map (supportSnapshot store key)

def expectedContext (key : StateKey) : Option String :=
  (expectedSupport reprs store key).map (contextText reprs key)

namespace Target

def expected : Target → Value V
  | profile subject => .profile (SubjectProfileIndex.snapshotSubject store subject)
  | state key => .state (expectedCell reprs store key)
  | support key => .support (expectedSupport reprs store key)
  | context key => .context (expectedContext reprs store key)

def dependencies : Target → Finset String
  | profile subject => profileDependencies store subject
  | state key => stateDependencies store key
  | support key => supportDependencies store key (expectedCell reprs store key)
  | context key => {supportNode key}

def Present : Target → Prop
  | profile subject => store.assertionsForSubject subject ≠ []
  | state key => store.assertionsForKey key ≠ []
  | support key => store.assertionsForKey key ≠ []
  | context key => store.assertionsForKey key ≠ []

end Target

end Expected

namespace Target

/-- The value of a target that is not kept. -/
def blank : Target → Value V
  | profile _ => .profile ⟨0, ∅, ∅⟩
  | state _ => .state none
  | support _ => .support none
  | context _ => .context none

end Target

namespace Materialization

def value (m : Materialization V) : Target → Value V
  | .profile subject => .profile (m.index.snapshotOf subject)
  | .state key => .state (m.store.state.lookup key)
  | .support key => .support (m.supports.lookup key)
  | .context key => .context (m.contexts.lookup key)

def statusOf (m : Materialization V) (target : Target) : Option DerivationStatus :=
  m.graph.statusOf target.node

def dependenciesOf (m : Materialization V) (target : Target) : Finset String :=
  m.graph.dependenciesOf target.node

/-- The name of the target leads back to it. -/
def Names (m : Materialization V) : Target → Prop
  | .profile subject => m.subjectByProfileNode.lookup (profileNode subject) = some subject
  | .state key => m.keyByNode.lookup (stateNode key) = some key
  | .support key => m.keyByNode.lookup (supportNode key) = some key
  | .context key => m.keyByNode.lookup (contextNode key) = some key

end Materialization

/-- A dependency of a target is a canonical node or the layer below. -/
def Target.DependsOn (target : Target) (name : String) : Prop :=
  IsCanonical name ∨ ∃ other, target.below = some other ∧ name = other.node

theorem Target.Proper.below {target other : Target} (proper : target.Proper)
    (below : target.below = some other) : other.Proper := by
  cases target with
  | profile subject => cases below
  | state key => cases below
  | support key =>
      cases below
      exact proper
  | context key =>
      cases below
      exact proper

/-- The graph of a materialization registers proper targets, each above the layer it needs. -/
structure Shaped (m : Materialization V) : Prop where
  linked : m.graph.Linked
  named : ∀ node, (m.graph.statusOf node).isSome → ∃ target : Target, target.Proper ∧ target.node = node
  kinds : ∀ target : Target, target.Proper → (m.statusOf target).isSome →
    m.graph.kindOf target.node = some target.kind
  names : ∀ target : Target, target.Proper → (m.statusOf target).isSome → m.Names target
  shape : ∀ target : Target, target.Proper → ∀ name ∈ m.dependenciesOf target, target.DependsOn name
  based : ∀ target other : Target, target.Proper → target.below = some other →
    (m.statusOf target).isSome →
    (m.statusOf other).isSome ∧ other.node ∈ m.dependenciesOf target

/-- Every assertion of the store has a registered predicate. -/
def Known (store : MemoryStore V) : Prop :=
  ∀ id item, store.assertions.lookup id = some item → (REGISTRY.lookup item.predicate).isSome

/-- The invariant, also in the middle of a rebuild. -/
structure Sound (reprs : Reprs V) (m : Materialization V) : Prop extends Shaped m where
  known : Known m.store
  posted : m.index.Posted
  fresh : ∀ target : Target, target.Proper → m.statusOf target = some .fresh →
    m.dependenciesOf target = target.dependencies reprs m.store ∧
      m.value target = target.expected reprs m.store ∧
      ∀ other, target.below = some other → m.statusOf other = some .fresh
  absent : ∀ target : Target, target.Proper → m.statusOf target = none → m.value target = target.blank
  improper : ∀ target : Target, ¬ target.Proper → m.value target = target.blank
  present : ∀ target : Target, target.Present m.store → (m.statusOf target).isSome

def chain (key : StateKey) : List Target := [.context key, .support key, .state key]

/-- Nothing that is fresh as a whole is left of what has vanished from the store. -/
structure Tidy (m : Materialization V) : Prop where
  profiles : ∀ subject, m.statusOf (.profile subject) = some .fresh →
    m.store.assertionsForSubject subject ≠ []
  keys : ∀ key, ProperKey key → m.store.assertionsForKey key = [] →
    (∀ target ∈ chain key, m.statusOf target = none ∨ m.statusOf target = some .fresh) →
    ∀ target ∈ chain key, m.statusOf target = none

/-- No node is left in the middle of its rebuild. -/
def Settled (m : Materialization V) : Prop := ∀ node, m.graph.statusOf node ≠ some .rebuilding

variable {reprs : Reprs V} {store : MemoryStore V} {m : Materialization V} {key : StateKey}
  {target other : Target}

section Expected

theorem proper_of_mem (known : Known store) {item : Assertion V}
    (member : item ∈ store.assertionsForKey key) : ProperKey key := by
  obtain ⟨held, same⟩ := MemoryStore.mem_assertionsForKey.mp member
  rw [← same]
  exact ⟨known item.id item held, rfl⟩

theorem proper_of_present (known : Known store) (present : target.Present store) :
    target.Proper := by
  cases target with
  | profile subject => exact trivial
  | state key | support key | context key =>
      obtain ⟨item, member⟩ := List.exists_mem_of_ne_nil _ present
      exact proper_of_mem known member

theorem reconciledCell_ok (known : Known store) (key : StateKey) :
    reconciledCell reprs store key = .ok (expectedCell reprs store key) := by
  unfold expectedCell reconciledCell
  by_cases none : store.assertionsForKey key = []
  · simp only [none, if_true]
  · simp only [none, if_false]
    obtain ⟨item, member⟩ := List.exists_mem_of_ne_nil _ none
    obtain ⟨cell, ran⟩ : ∃ cell, reconcile reprs (store.assertionsForKey key)
        (store.relationsForAssertions ((store.assertionsForKey key).map Assertion.id).toFinset)
        Option.none Option.none = .ok cell :=
      reconcile_ok (fun item member => (MemoryStore.mem_assertionsForKey.mp member).2)
        (proper_of_mem known member).1
    rw [ran]
    rfl

theorem expectedCell_none (none : store.assertionsForKey key = []) :
    expectedCell reprs store key = Option.none := by
  unfold expectedCell reconciledCell
  rw [none]
  rfl

theorem expectedCell_some {cell : StateCell V} (held : expectedCell reprs store key = some cell) :
    store.assertionsForKey key ≠ [] ∧ ∃ made, reconcile reprs (store.assertionsForKey key)
      (store.relationsForAssertions ((store.assertionsForKey key).map Assertion.id).toFinset)
        none none = .ok made ∧ cell = { made with version := 1 } := by
  unfold expectedCell reconciledCell at held
  by_cases none : store.assertionsForKey key = []
  · simp only [none, if_true] at held
    cases held
  · simp only [none, if_false] at held
    cases ran : reconcile reprs (store.assertionsForKey key) (store.relationsForAssertions
        ((store.assertionsForKey key).map Assertion.id).toFinset) Option.none Option.none with
    | error error =>
        rw [ran] at held
        cases held
    | ok made =>
        rw [ran] at held
        cases held
        exact ⟨none, made, rfl, rfl⟩

theorem expectedCell_labels {cell : StateCell V} (held : expectedCell reprs store key = some cell) :
    cell.key = key ∧ cell.version = 1 := by
  obtain ⟨some, made, ran, rfl⟩ := expectedCell_some held
  exact ⟨(reconcile_keyed (fun item member => (MemoryStore.mem_assertionsForKey.mp member).2) some
    ran).2, rfl⟩

theorem mem_activeAssertionIds {cell : StateCell V} (held : expectedCell reprs store key = some cell)
    {id : String} (listed : id ∈ activeAssertionIds (some cell)) :
    ∃ item ∈ store.assertionsForKey key, item.id = id := by
  obtain ⟨_, made, ran, rfl⟩ := expectedCell_some held
  rw [activeAssertionIds, List.mem_eraseDups, List.mem_append] at listed
  exact reconcile_ids ran listed

theorem expected_blank (absent : ¬ target.Present store) :
    target.expected reprs store = target.blank := by
  cases target with
  | profile subject =>
      have none : store.assertionsForSubject subject = [] := not_not.mp absent
      simp only [Target.expected, Target.blank, SubjectProfileIndex.snapshotSubject, none]
      simp [sorted]
  | state key =>
      have none : store.assertionsForKey key = [] := not_not.mp absent
      simp only [Target.expected, Target.blank, expectedCell_none none]
  | support key =>
      have none : store.assertionsForKey key = [] := not_not.mp absent
      simp only [Target.expected, Target.blank, expectedSupport, expectedCell_none none,
        Option.map_none]
  | context key =>
      have none : store.assertionsForKey key = [] := not_not.mp absent
      simp only [Target.expected, Target.blank, expectedContext, expectedSupport,
        expectedCell_none none, Option.map_none]

theorem mem_profileDependencies {subject name : String}
    (member : name ∈ profileDependencies store subject) : IsCanonical name := by
  simp only [profileDependencies, Finset.mem_union, List.mem_toFinset, List.mem_map] at member
  rcases member with ⟨item, _, same⟩ | ⟨id, _, same⟩
  · exact same ▸ .assertion item.id
  · exact same ▸ .evidence id

theorem mem_stateDependencies {name : String} (member : name ∈ stateDependencies store key) :
    IsCanonical name := by
  simp only [stateDependencies, Finset.mem_union, List.mem_toFinset, List.mem_map] at member
  rcases member with ⟨item, _, same⟩ | ⟨relation, _, same⟩
  · exact same ▸ .assertion item.id
  · exact same ▸ .relation relation

theorem mem_supportDependencies {name : String} {cell : Option (StateCell V)}
    (member : name ∈ supportDependencies store key cell) : (Target.support key).DependsOn name := by
  cases cell with
  | none =>
      rw [supportDependencies, Finset.mem_singleton] at member
      exact Or.inr ⟨_, rfl, member⟩
  | some cell =>
      simp only [supportDependencies, Finset.mem_insert, Finset.mem_union, List.mem_toFinset,
        List.mem_map] at member
      rcases member with same | ⟨item, _, same⟩ | ⟨id, _, same⟩
      · exact Or.inr ⟨_, rfl, same⟩
      · exact Or.inl (same ▸ .assertion item.id)
      · exact Or.inl (same ▸ .evidence id)

theorem state_mem_supportDependencies (cell : Option (StateCell V)) :
    stateNode key ∈ supportDependencies store key cell := by
  cases cell with
  | none => exact Finset.mem_singleton_self _
  | some cell => exact Finset.mem_insert_self _ _

theorem below_mem_dependencies (below : target.below = some other) :
    other.node ∈ target.dependencies reprs store := by
  cases target with
  | profile subject => cases below
  | state key => cases below
  | support key =>
      cases below
      exact state_mem_supportDependencies _
  | context key =>
      cases below
      exact Finset.mem_singleton_self _

end Expected

end DurableContext.Cascade
