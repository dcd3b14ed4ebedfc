import DurableContext.Lib.Multimap
import DurableContext.Lib.Worklist
import Mathlib.Data.Finset.Sort
import Mathlib.Data.String.Basic

/-! The dependency graph of rebuildable derivations: what each derived node depends on, the same
edges backwards, and the status and kind of each node. -/

namespace DurableContext.Cascade

inductive DerivationStatus where
  | fresh
  | invalid
  | rebuilding
  deriving DecidableEq, Repr

def DerivationStatus.value : DerivationStatus → String
  | fresh => "fresh"
  | invalid => "invalid"
  | rebuilding => "rebuilding"

/-- What is raised. A `cannotRetire` is the `ValueError` that names the node and the list. -/
inductive Raised where
  | cannotRetire (node : String) (liveDependents : List String)
  | keyError (message : String)
  | runtimeError (message : String)
  deriving DecidableEq, Repr

structure DependencyGraph (κ : Type) where
  dependencies : Table String (Finset String)
  dependents : Multimap String String
  status : Table String DerivationStatus
  kind : Table String κ

/-- The statuses during an invalidation, and the nodes it has made invalid. -/
structure Invalidation where
  status : Table String DerivationStatus
  invalidatedNodeIds : Finset String

def Invalidation.mark (marks : Invalidation) (node : String) : Invalidation :=
  if marks.status.lookup node = some .invalid then marks
  else ⟨marks.status.insert node .invalid, insert node marks.invalidatedNodeIds⟩

def sorted (nodes : Finset String) : List String := nodes.sort (· ≤ ·)

@[simp] theorem mem_sorted {nodes : Finset String} {node : String} :
    node ∈ sorted nodes ↔ node ∈ nodes :=
  Finset.mem_sort (· ≤ ·)

namespace DependencyGraph

variable {κ : Type}

def empty : DependencyGraph κ := ⟨∅, ∅, ∅, ∅⟩

def dependenciesOf (graph : DependencyGraph κ) (node : String) : Finset String :=
  Multimap.get graph.dependencies node

def dependentsOf (graph : DependencyGraph κ) (node : String) : Finset String :=
  Multimap.get graph.dependents node

def statusOf (graph : DependencyGraph κ) (node : String) : Option DerivationStatus :=
  graph.status.lookup node

def kindOf (graph : DependencyGraph κ) (node : String) : Option κ := graph.kind.lookup node

def registerDerived (graph : DependencyGraph κ) (node : String) (kind : κ)
    (dependencies : Finset String) (status : DerivationStatus) : DependencyGraph κ where
  dependencies := graph.dependencies.insert node dependencies
  dependents := Multimap.move graph.dependents (sorted (graph.dependenciesOf node))
    (sorted dependencies) node
  status := graph.status.insert node status
  kind := graph.kind.insert node kind

def unregister (graph : DependencyGraph κ) (node : String) : DependencyGraph κ where
  dependencies := graph.dependencies.erase node
  dependents := (Multimap.move graph.dependents (sorted (graph.dependenciesOf node)) [] node).erase node
  status := graph.status.erase node
  kind := graph.kind.erase node

/-- Retire a node that no other one depends on. -/
def removeDerived (graph : DependencyGraph κ) (node : String) :
    Except Raised (DependencyGraph κ) :=
  if graph.statusOf node = none then .ok graph
  else if graph.dependentsOf node ≠ ∅ then
    .error (.cannotRetire node (sorted (graph.dependentsOf node)))
  else .ok (graph.unregister node)

def targets (graph : DependencyGraph κ) : Finset String :=
  graph.dependents.entries.foldr (fun entry found => entry.2 ∪ found) ∅

/-- The nodes made invalid, and the graph afterwards. -/
def invalidateFrom (graph : DependencyGraph κ) (rootIds : List String) :
    Finset String × DependencyGraph κ :=
  let roots := rootIds.eraseDups
  let next := fun current => sorted (graph.dependentsOf current)
  let marks := Worklist.sweep next (fun marks current => (next current).foldl Invalidation.mark marks)
    (roots.length + graph.targets.card) roots roots.toFinset ⟨graph.status, ∅⟩
  (marks.invalidatedNodeIds, { graph with status := marks.status })

/-- The invalidation ends: its loop leaves nothing in the queue. -/
def Ends (graph : DependencyGraph κ) (rootIds : List String) : Prop :=
  Worklist.waiting (fun current => sorted (graph.dependentsOf current))
    (rootIds.eraseDups.length + graph.targets.card) rootIds.eraseDups
    rootIds.eraseDups.toFinset = []

def invalidateNodes (graph : DependencyGraph κ) (nodeIds : List String) :
    Finset String × DependencyGraph κ :=
  let roots := nodeIds.eraseDups.filter fun node => (graph.statusOf node).isSome
  let marks := roots.foldl Invalidation.mark ⟨graph.status, ∅⟩
  let graph := { graph with status := marks.status }
  if roots = [] then (marks.invalidatedNodeIds, graph)
  else
    let (downstream, graph) := graph.invalidateFrom roots
    (marks.invalidatedNodeIds ∪ downstream, graph)

def mark (graph : DependencyGraph κ) (node : String) (status : DerivationStatus) :
    Except Raised (DependencyGraph κ) :=
  if graph.statusOf node = none then .error (.keyError ("Unknown derived node: " ++ node))
  else .ok { graph with status := graph.status.insert node status }

def markRebuilding (graph : DependencyGraph κ) (node : String) :
    Except Raised (DependencyGraph κ) :=
  graph.mark node .rebuilding

def markFresh (graph : DependencyGraph κ) (node : String) : Except Raised (DependencyGraph κ) :=
  graph.mark node .fresh

def derivedNodes (graph : DependencyGraph κ) : List String :=
  sorted graph.status.keys.toFinset

def invalidNodes (graph : DependencyGraph κ) : List String :=
  graph.derivedNodes.filter fun node => decide (graph.statusOf node = some .invalid)

/-- The same lineage and lifecycle. -/
def Equivalent (graph other : DependencyGraph κ) : Prop :=
  Table.Same graph.dependencies other.dependencies ∧ Table.Same graph.dependents other.dependents ∧
    Table.Same graph.status other.status ∧ Table.Same graph.kind other.kind

/-- Both directions of the edges agree, and the nodes that are registered are so everywhere. -/
structure Linked (graph : DependencyGraph κ) : Prop where
  full : Multimap.Full graph.dependents
  inverse : ∀ source node, node ∈ graph.dependentsOf source ↔ source ∈ graph.dependenciesOf node
  registered : ∀ node, (graph.dependencies.lookup node).isSome ↔ (graph.statusOf node).isSome
  kinds : ∀ node, (graph.kindOf node).isSome ↔ (graph.statusOf node).isSome

variable {graph : DependencyGraph κ} {node source : String} {kind : κ}
  {dependencies : Finset String} {status : DerivationStatus}

theorem linked_empty : (empty : DependencyGraph κ).Linked :=
  ⟨Multimap.full_empty, fun _ _ => by simp [dependentsOf, dependenciesOf, empty, Multimap.get],
    fun _ => Iff.rfl, fun _ => Iff.rfl⟩

section Alike

variable {other : DependencyGraph κ}

theorem Equivalent.dependenciesOf (same : graph.Equivalent other) (node : String) :
    graph.dependenciesOf node = other.dependenciesOf node :=
  congrArg (fun found => found.getD ∅) (Table.same_iff.mp same.1 node)

theorem Equivalent.statusOf (same : graph.Equivalent other) (node : String) :
    graph.statusOf node = other.statusOf node :=
  Table.same_iff.mp same.2.2.1 node

theorem Equivalent.kindOf (same : graph.Equivalent other) (node : String) :
    graph.kindOf node = other.kindOf node :=
  Table.same_iff.mp same.2.2.2 node

theorem Linked.of_equivalent (linked : other.Linked) (same : graph.Equivalent other) :
    graph.Linked where
  full := linked.full.of_same same.2.1
  inverse := fun source node => by
    rw [dependentsOf, Multimap.get, Table.same_iff.mp same.2.1, same.dependenciesOf]
    exact linked.inverse source node
  registered := fun node => by
    rw [same.statusOf, Table.same_iff.mp same.1]
    exact linked.registered node
  kinds := fun node => by
    rw [same.kindOf, same.statusOf]
    exact linked.kinds node

end Alike

section Register

theorem dependenciesOf_registerDerived (other : String) :
    (graph.registerDerived node kind dependencies status).dependenciesOf other =
      if other = node then dependencies else graph.dependenciesOf other := by
  by_cases here : other = node
  · rw [if_pos here, here, dependenciesOf, registerDerived, Multimap.get, AList.lookup_insert]
    rfl
  · rw [if_neg here, dependenciesOf, registerDerived, Multimap.get, AList.lookup_insert_ne here]
    rfl

theorem statusOf_registerDerived (other : String) :
    (graph.registerDerived node kind dependencies status).statusOf other =
      if other = node then some status else graph.statusOf other := by
  by_cases here : other = node
  · rw [if_pos here, here]
    exact AList.lookup_insert _
  · rw [if_neg here]
    exact AList.lookup_insert_ne here

theorem kindOf_registerDerived (other : String) :
    (graph.registerDerived node kind dependencies status).kindOf other =
      if other = node then some kind else graph.kindOf other := by
  by_cases here : other = node
  · rw [if_pos here, here]
    exact AList.lookup_insert _
  · rw [if_neg here]
    exact AList.lookup_insert_ne here

theorem Linked.registerDerived (linked : graph.Linked) (node : String) (kind : κ)
    (dependencies : Finset String) (status : DerivationStatus) :
    (graph.registerDerived node kind dependencies status).Linked where
  full := linked.full.move _ _ _
  inverse := by
    intro source other
    have before : ∀ key, node ∈ Multimap.get graph.dependents key ↔
        key ∈ sorted (graph.dependenciesOf node) := by
      intro key
      rw [mem_sorted]
      exact linked.inverse key node
    rw [dependenciesOf_registerDerived]
    refine (Multimap.mem_get_move before).trans ?_
    by_cases here : other = node
    · rw [if_pos here, if_pos here, mem_sorted]
    · rw [if_neg here, if_neg here]
      exact linked.inverse source other
  registered := by
    intro other
    rw [statusOf_registerDerived]
    by_cases here : other = node
    · rw [if_pos here, here]
      exact iff_of_true (by simp [DependencyGraph.registerDerived]) rfl
    · rw [if_neg here, ← linked.registered, DependencyGraph.registerDerived,
        AList.lookup_insert_ne here]
  kinds := by
    intro other
    rw [statusOf_registerDerived, kindOf_registerDerived]
    by_cases here : other = node
    · rw [if_pos here, if_pos here]
      exact iff_of_true rfl rfl
    · rw [if_neg here, if_neg here]
      exact linked.kinds other

end Register

section Remove

theorem dependenciesOf_unregister (other : String) :
    (graph.unregister node).dependenciesOf other =
      if other = node then ∅ else graph.dependenciesOf other := by
  by_cases here : other = node
  · rw [if_pos here, here, dependenciesOf, unregister, Multimap.get, AList.lookup_erase]
    rfl
  · rw [if_neg here, dependenciesOf, unregister, Multimap.get, AList.lookup_erase_ne here]
    rfl

theorem statusOf_unregister (other : String) :
    (graph.unregister node).statusOf other = if other = node then none else graph.statusOf other := by
  by_cases here : other = node
  · rw [if_pos here, here]
    exact AList.lookup_erase _ _
  · rw [if_neg here]
    exact AList.lookup_erase_ne here

theorem kindOf_unregister (other : String) :
    (graph.unregister node).kindOf other = if other = node then none else graph.kindOf other := by
  by_cases here : other = node
  · rw [if_pos here, here]
    exact AList.lookup_erase _ _
  · rw [if_neg here]
    exact AList.lookup_erase_ne here

theorem Linked.unregister (linked : graph.Linked) (leaf : graph.dependentsOf node = ∅) :
    (graph.unregister node).Linked where
  full := by
    intro key values held
    by_cases here : key = node
    · rw [here, DependencyGraph.unregister, AList.lookup_erase] at held
      cases held
    · rw [DependencyGraph.unregister, AList.lookup_erase_ne here] at held
      exact linked.full.move _ _ _ key values held
  inverse := by
    intro source other
    have before : ∀ key, node ∈ Multimap.get graph.dependents key ↔
        key ∈ sorted (graph.dependenciesOf node) := by
      intro key
      rw [mem_sorted]
      exact linked.inverse key node
    rw [dependenciesOf_unregister]
    have members : other ∈ (graph.unregister node).dependentsOf source ↔
        source ≠ node ∧ if other = node then source ∈ ([] : List String)
          else other ∈ graph.dependentsOf source := by
      by_cases here : source = node
      · rw [here, dependentsOf, DependencyGraph.unregister, Multimap.get, AList.lookup_erase]
        simp
      · rw [dependentsOf, DependencyGraph.unregister, Multimap.get, AList.lookup_erase_ne here,
          ← Multimap.get, Multimap.mem_get_move before]
        exact (and_iff_right here).symm
    rw [members]
    by_cases here : other = node
    · rw [if_pos here, if_pos here]
      simp
    · rw [if_neg here, if_neg here, linked.inverse]
      constructor
      · exact And.right
      · intro member
        refine ⟨fun same => ?_, member⟩
        have present := (linked.inverse source other).mpr member
        rw [same, leaf] at present
        exact absurd present (Finset.notMem_empty _)
  registered := by
    intro other
    rw [statusOf_unregister]
    by_cases here : other = node
    · rw [if_pos here, here, DependencyGraph.unregister, AList.lookup_erase]
      rfl
    · rw [if_neg here, ← linked.registered, DependencyGraph.unregister, AList.lookup_erase_ne here]
  kinds := by
    intro other
    rw [statusOf_unregister, kindOf_unregister]
    by_cases here : other = node
    · rw [if_pos here, if_pos here]
      rfl
    · rw [if_neg here, if_neg here]
      exact linked.kinds other

end Remove

theorem Linked.withStatus (linked : graph.Linked) {statuses : Table String DerivationStatus}
    (same : ∀ node, (statuses.lookup node).isSome ↔ (graph.statusOf node).isSome) :
    { graph with status := statuses }.Linked where
  full := linked.full
  inverse := linked.inverse
  registered := fun node => (linked.registered node).trans (same node).symm
  kinds := fun node => (linked.kinds node).trans (same node).symm

section Invalidate

/-- Where the edges lead from the listed nodes, by one edge at least. -/
def Reached (graph : DependencyGraph κ) (roots : List String) (node : String) : Prop :=
  ∃ root ∈ roots, Relation.TransGen (fun source node => node ∈ graph.dependentsOf source) root node

theorem mem_targets (member : node ∈ graph.dependentsOf source) : node ∈ graph.targets := by
  have present : ∀ entries : List (Sigma fun _ : String => Finset String),
      (∃ entry ∈ entries, node ∈ entry.2) →
        node ∈ entries.foldr (fun entry found => entry.2 ∪ found) ∅ := by
    intro entries
    induction entries with
    | nil =>
        intro found
        obtain ⟨entry, listed, _⟩ := found
        cases listed
    | cons first rest ih =>
        intro found
        obtain ⟨entry, listed, inside⟩ := found
        rw [List.foldr_cons, Finset.mem_union]
        rcases List.mem_cons.mp listed with here | later
        · exact Or.inl (here ▸ inside)
        · exact Or.inr (ih ⟨entry, later, inside⟩)
  cases held : graph.dependents.lookup source with
  | none =>
      rw [dependentsOf, Multimap.get_of_none held] at member
      exact absurd member (Finset.notMem_empty _)
  | some nodes =>
      rw [dependentsOf, Multimap.get_of_lookup held] at member
      rw [← Option.mem_def, AList.mem_lookup_iff] at held
      exact present _ ⟨_, held, member⟩

theorem marks_spec (nodes : List String) (marks : Invalidation) (node : String) :
    ((nodes.foldl Invalidation.mark marks).status.lookup node =
      if node ∈ nodes then some .invalid else marks.status.lookup node) ∧
    (node ∈ (nodes.foldl Invalidation.mark marks).invalidatedNodeIds ↔
      node ∈ marks.invalidatedNodeIds ∨ (node ∈ nodes ∧ marks.status.lookup node ≠ some .invalid)) := by
  induction nodes generalizing marks with
  | nil => simp
  | cons first rest ih =>
      obtain ⟨status, invalidated⟩ := ih (marks.mark first)
      rw [List.foldl_cons, status, invalidated]
      unfold Invalidation.mark
      by_cases already : marks.status.lookup first = some .invalid
      · rw [if_pos already]
        by_cases here : node = first
        · rw [here, already]
          simp
        · simp [here]
      · rw [if_neg already]
        by_cases here : node = first
        · rw [here]
          simp [already]
        · simp [here, AList.lookup_insert_ne here]

theorem foldl_foldl_mark (next : String → List String) (taken : List String)
    (marks : Invalidation) :
    taken.foldl (fun marks current => (next current).foldl Invalidation.mark marks) marks =
      (taken.flatMap next).foldl Invalidation.mark marks := by
  induction taken generalizing marks with
  | nil => rfl
  | cons current rest ih => rw [List.foldl_cons, ih, List.flatMap_cons, List.foldl_append]

theorem transGen_iff_reflTransGen {next : String → List String} {root : String}
    (members : ∀ source node, node ∈ next source ↔ node ∈ graph.dependentsOf source) :
    (∃ last, Relation.ReflTransGen (Worklist.Step next) root last ∧ node ∈ next last) ↔
      Relation.TransGen (fun source node => node ∈ graph.dependentsOf source) root node := by
  have step : Worklist.Step next = fun source node => node ∈ graph.dependentsOf source := by
    funext source node
    exact propext (members source node)
  rw [step]
  constructor
  · intro found
    obtain ⟨last, path, edge⟩ := found
    exact Relation.TransGen.tail' path ((members last node).mp edge)
  · intro path
    obtain ⟨last, path, edge⟩ := Relation.TransGen.tail'_iff.mp path
    exact ⟨last, path, (members last node).mpr edge⟩

theorem ends (graph : DependencyGraph κ) (roots : List String) : graph.Ends roots := by
  apply Worklist.waiting_eq_nil (fun source node member => mem_targets (mem_sorted.mp member))
  have fewer := Worklist.missing_le graph.targets roots.eraseDups.toFinset
  omega

/-- An invalidation makes what it reaches invalid, changes no other status and no edge, and returns
what was not invalid before. -/
theorem invalidateFrom_spec (graph : DependencyGraph κ) (roots : List String) :
    ∃ statuses : Table String DerivationStatus, (graph.invalidateFrom roots).2 =
        { graph with status := statuses } ∧
      ∀ node, (graph.Reached roots node → statuses.lookup node = some .invalid) ∧
        (¬ graph.Reached roots node → statuses.lookup node = graph.statusOf node) ∧
        (node ∈ (graph.invalidateFrom roots).1 ↔
          graph.Reached roots node ∧ graph.statusOf node ≠ some .invalid) := by
  set next : String → List String := fun current => sorted (graph.dependentsOf current) with next_eq
  have members : ∀ source node, node ∈ next source ↔ node ∈ graph.dependentsOf source :=
    fun source node => mem_sorted
  have inside : ∀ source, ∀ node ∈ next source, node ∈ graph.targets :=
    fun source node member => mem_targets ((members source node).mp member)
  set visited := Worklist.taken next (roots.eraseDups.length + graph.targets.card) roots.eraseDups
    roots.eraseDups.toFinset with visited_eq
  have reached : ∀ node, node ∈ visited.flatMap next ↔ graph.Reached roots node := by
    intro node
    rw [List.mem_flatMap]
    constructor
    · intro found
      obtain ⟨last, taken, edge⟩ := found
      obtain ⟨root, listed, path⟩ := (Worklist.mem_taken_iff inside le_rfl).mp taken
      exact ⟨root, List.mem_eraseDups.mp listed,
        (transGen_iff_reflTransGen members).mp ⟨last, path, edge⟩⟩
    · intro found
      obtain ⟨root, listed, path⟩ := found
      obtain ⟨last, path, edge⟩ := (transGen_iff_reflTransGen members).mpr path
      exact ⟨last, (Worklist.mem_taken_iff inside le_rfl).mpr
        ⟨root, List.mem_eraseDups.mpr listed, path⟩, edge⟩
  have ran : (graph.invalidateFrom roots) =
      (((visited.flatMap next).foldl Invalidation.mark ⟨graph.status, ∅⟩).invalidatedNodeIds,
        { graph with status :=
          ((visited.flatMap next).foldl Invalidation.mark ⟨graph.status, ∅⟩).status }) := by
    rw [← foldl_foldl_mark, visited_eq, ← Worklist.sweep_eq_foldl]
    rfl
  rw [ran]
  refine ⟨_, rfl, fun node => ?_⟩
  obtain ⟨status, invalidated⟩ := marks_spec (visited.flatMap next) ⟨graph.status, ∅⟩ node
  rw [reached] at invalidated
  refine ⟨fun found => ?_, fun absent => ?_, ?_⟩
  · rw [status, if_pos ((reached node).mpr found)]
  · rw [status, if_neg fun listed => absent ((reached node).mp listed)]
    rfl
  · rw [invalidated]
    simp [statusOf]

/-- Where an invalidation of derived nodes gets: those that are registered and all that depend on
them. -/
def Seeded (graph : DependencyGraph κ) (nodeIds : List String) (node : String) : Prop :=
  (node ∈ nodeIds ∧ (graph.statusOf node).isSome) ∨
    graph.Reached (nodeIds.filter fun node => (graph.statusOf node).isSome) node

theorem Reached.step {roots : List String} (reached : graph.Reached roots source)
    (edge : node ∈ graph.dependentsOf source) : graph.Reached roots node := by
  obtain ⟨root, member, path⟩ := reached
  exact ⟨root, member, path.tail edge⟩

theorem Seeded.step {nodeIds : List String} (seeded : graph.Seeded nodeIds source)
    (edge : node ∈ graph.dependentsOf source) : graph.Seeded nodeIds node := by
  rcases seeded with ⟨member, registered⟩ | reached
  · refine Or.inr ⟨source, List.mem_filter.mpr ⟨member, ?_⟩, .single edge⟩
    simpa using registered
  · exact Or.inr (reached.step edge)

theorem invalidateNodes_spec (graph : DependencyGraph κ) (nodeIds : List String) :
    ∃ statuses : Table String DerivationStatus, (graph.invalidateNodes nodeIds).2 =
        { graph with status := statuses } ∧
      ∀ node, (graph.Seeded nodeIds node → statuses.lookup node = some .invalid) ∧
        (¬ graph.Seeded nodeIds node → statuses.lookup node = graph.statusOf node) ∧
        (node ∈ (graph.invalidateNodes nodeIds).1 ↔
          graph.Seeded nodeIds node ∧ graph.statusOf node ≠ some .invalid) := by
  set roots := nodeIds.eraseDups.filter fun node => (graph.statusOf node).isSome with roots_eq
  have listed : ∀ node, node ∈ roots ↔ node ∈ nodeIds ∧ (graph.statusOf node).isSome := by
    intro node
    rw [roots_eq, List.mem_filter, List.mem_eraseDups]
  have same : ∀ node, graph.Reached roots node ↔
      graph.Reached (nodeIds.filter fun node => (graph.statusOf node).isSome) node := by
    intro node
    refine exists_congr fun root => and_congr_left fun _ => ?_
    rw [listed, List.mem_filter]
  have seeded : ∀ node, graph.Seeded nodeIds node ↔ node ∈ roots ∨ graph.Reached roots node := by
    intro node
    rw [Seeded, listed, same]
  set marks := roots.foldl Invalidation.mark ⟨graph.status, ∅⟩ with marks_eq
  have marked := marks_spec roots ⟨graph.status, ∅⟩
  rw [← marks_eq] at marked
  by_cases none : roots = []
  · have ran : graph.invalidateNodes nodeIds =
        (marks.invalidatedNodeIds, { graph with status := marks.status }) := by
      simp only [invalidateNodes, ← roots_eq, marks_eq, none, if_true]
    rw [ran]
    refine ⟨_, rfl, fun node => ?_⟩
    have unreached : ¬ graph.Reached roots node := by
      intro found
      obtain ⟨root, member, _⟩ := found
      rw [none] at member
      cases member
    have out : node ∉ roots := by
      rw [none]
      exact List.not_mem_nil
    obtain ⟨status, invalidated⟩ := marked node
    rw [if_neg out] at status
    rw [seeded, invalidated]
    simp [out, unreached, status, statusOf]
  · obtain ⟨statuses, after, spec⟩ :=
      invalidateFrom_spec { graph with status := marks.status } roots
    have ran : graph.invalidateNodes nodeIds =
        (marks.invalidatedNodeIds ∪
            ({ graph with status := marks.status }.invalidateFrom roots).1,
          ({ graph with status := marks.status }.invalidateFrom roots).2) := by
      simp only [invalidateNodes, ← roots_eq, ← marks_eq, none, if_false]
    rw [ran, after]
    refine ⟨statuses, rfl, fun node => ?_⟩
    obtain ⟨inside, outside, newly⟩ := spec node
    obtain ⟨status, invalidated⟩ := marked node
    have unmoved : ({ graph with status := marks.status } : DependencyGraph κ).Reached roots node ↔
        graph.Reached roots node := Iff.rfl
    have before : ({ graph with status := marks.status } : DependencyGraph κ).statusOf node =
        if node ∈ roots then some .invalid else graph.statusOf node := status
    rw [unmoved] at inside outside newly
    rw [before] at outside newly
    rw [seeded]
    refine ⟨fun found => ?_, fun absent => ?_, ?_⟩
    · by_cases further : graph.Reached roots node
      · exact inside further
      · rw [outside further, if_pos (found.resolve_right further)]
    · rw [outside fun further => absent (Or.inr further), if_neg fun root => absent (Or.inl root)]
    · rw [Finset.mem_union, newly, invalidated]
      by_cases root : node ∈ roots
      · simp [root, statusOf]
      · simp [root]

end Invalidate

section Runs

inductive Call (κ : Type) where
  | registerDerived (node : String) (kind : κ) (dependencies : Finset String)
      (status : DerivationStatus)
  | removeDerived (node : String)
  | markRebuilding (node : String)
  | markFresh (node : String)
  | invalidateFrom (rootIds : List String)
  | invalidateNodes (nodeIds : List String)

/-- The graph after a call; one that raises leaves it as it is. -/
def call (graph : DependencyGraph κ) : Call κ → DependencyGraph κ
  | .registerDerived node kind dependencies status =>
      graph.registerDerived node kind dependencies status
  | .removeDerived node => (graph.removeDerived node).toOption.getD graph
  | .markRebuilding node => (graph.markRebuilding node).toOption.getD graph
  | .markFresh node => (graph.markFresh node).toOption.getD graph
  | .invalidateFrom rootIds => (graph.invalidateFrom rootIds).2
  | .invalidateNodes nodeIds => (graph.invalidateNodes nodeIds).2

def run (calls : List (Call κ)) : DependencyGraph κ := calls.foldl call empty

theorem Linked.removeDerived (linked : graph.Linked) (node : String) :
    ((graph.removeDerived node).toOption.getD graph).Linked := by
  unfold DependencyGraph.removeDerived
  by_cases absent : graph.statusOf node = none
  · rw [if_pos absent]
    exact linked
  · rw [if_neg absent]
    by_cases leaf : graph.dependentsOf node = ∅
    · rw [if_neg (not_not.mpr leaf)]
      exact linked.unregister leaf
    · rw [if_pos leaf]
      exact linked

theorem Linked.mark (linked : graph.Linked) (node : String) (status : DerivationStatus) :
    ((graph.mark node status).toOption.getD graph).Linked := by
  unfold DependencyGraph.mark
  by_cases absent : graph.statusOf node = none
  · rw [if_pos absent]
    exact linked
  · rw [if_neg absent]
    apply linked.withStatus
    intro other
    by_cases here : other = node
    · rw [here, AList.lookup_insert]
      exact iff_of_true rfl (Option.isSome_iff_ne_none.mpr absent)
    · rw [AList.lookup_insert_ne here]
      rfl

theorem Linked.registered_of_mem (linked : graph.Linked)
    (member : node ∈ graph.dependentsOf source) : (graph.statusOf node).isSome := by
  have depends := (linked.inverse source node).mp member
  rw [← linked.registered]
  cases held : graph.dependencies.lookup node with
  | none =>
      rw [dependenciesOf, Multimap.get_of_none held] at depends
      exact absurd depends (Finset.notMem_empty _)
  | some _ => rfl

theorem Linked.registered_of_reached (linked : graph.Linked) {roots : List String}
    (reached : graph.Reached roots node) : (graph.statusOf node).isSome := by
  obtain ⟨root, _, path⟩ := reached
  obtain ⟨last, _, edge⟩ := Relation.TransGen.tail'_iff.mp path
  exact linked.registered_of_mem edge

theorem Linked.invalidated (linked : graph.Linked) {statuses : Table String DerivationStatus}
    {chosen : String → Prop} (registered : ∀ node, chosen node → (graph.statusOf node).isSome)
    (inside : ∀ node, chosen node → statuses.lookup node = some .invalid)
    (outside : ∀ node, ¬ chosen node → statuses.lookup node = graph.statusOf node) :
    { graph with status := statuses }.Linked := by
  apply linked.withStatus
  intro node
  by_cases here : chosen node
  · rw [inside node here]
    exact iff_of_true rfl (registered node here)
  · rw [outside node here]

theorem Linked.call (linked : graph.Linked) (step : Call κ) : (graph.call step).Linked := by
  cases step with
  | registerDerived node kind dependencies status =>
      exact linked.registerDerived node kind dependencies status
  | removeDerived node => exact linked.removeDerived node
  | markRebuilding node => exact linked.mark node .rebuilding
  | markFresh node => exact linked.mark node .fresh
  | invalidateFrom rootIds =>
      obtain ⟨statuses, after, spec⟩ := invalidateFrom_spec graph rootIds
      rw [DependencyGraph.call, after]
      exact linked.invalidated (fun node reached => linked.registered_of_reached reached)
        (fun node => (spec node).1) (fun node => (spec node).2.1)
  | invalidateNodes nodeIds =>
      obtain ⟨statuses, after, spec⟩ := invalidateNodes_spec graph nodeIds
      rw [DependencyGraph.call, after]
      refine linked.invalidated (fun node seeded => ?_) (fun node => (spec node).1)
        (fun node => (spec node).2.1)
      exact seeded.elim And.right fun reached => linked.registered_of_reached reached

theorem linked_run (calls : List (Call κ)) : (run calls).Linked := by
  induction calls using List.reverseRecOn with
  | nil => exact linked_empty
  | append_singleton calls step ih =>
      rw [run, List.foldl_append]
      exact ih.call step

def Call.rewires : Call κ → Option String
  | .registerDerived node _ _ _ | .removeDerived node => some node
  | _ => none

theorem call_kept (graph : DependencyGraph κ) {step : Call κ} (other : step.rewires ≠ some node) :
    (graph.call step).dependenciesOf node = graph.dependenciesOf node ∧
      (graph.call step).kindOf node = graph.kindOf node := by
  have marked : ∀ marked status, ((graph.mark marked status).toOption.getD graph).dependenciesOf node =
      graph.dependenciesOf node ∧
        ((graph.mark marked status).toOption.getD graph).kindOf node = graph.kindOf node := by
    intro marked status
    unfold DependencyGraph.mark
    split <;> exact ⟨rfl, rfl⟩
  cases step with
  | registerDerived named kind dependencies status =>
      have away : node ≠ named := fun same => other (congrArg some same.symm)
      rw [call, dependenciesOf_registerDerived, kindOf_registerDerived, if_neg away, if_neg away]
      exact ⟨rfl, rfl⟩
  | removeDerived named =>
      have away : node ≠ named := fun same => other (congrArg some same.symm)
      simp only [call, DependencyGraph.removeDerived]
      split_ifs
      · exact ⟨rfl, rfl⟩
      · exact ⟨rfl, rfl⟩
      · show (graph.unregister named).dependenciesOf node = _ ∧
          (graph.unregister named).kindOf node = _
        rw [dependenciesOf_unregister, kindOf_unregister, if_neg away, if_neg away]
        exact ⟨rfl, rfl⟩
  | markRebuilding named => exact marked named .rebuilding
  | markFresh named => exact marked named .fresh
  | invalidateFrom rootIds =>
      obtain ⟨statuses, after, _⟩ := invalidateFrom_spec graph rootIds
      rw [call, after]
      exact ⟨rfl, rfl⟩
  | invalidateNodes nodeIds =>
      obtain ⟨statuses, after, _⟩ := invalidateNodes_spec graph nodeIds
      rw [call, after]
      exact ⟨rfl, rfl⟩

theorem registered_run (before later : List (Call κ)) (node : String) (kind : κ)
    (dependencies : Finset String) (status : DerivationStatus)
    (apart : ∀ step ∈ later, step.rewires ≠ some node) :
    (run (before ++ .registerDerived node kind dependencies status :: later)).dependenciesOf node =
        dependencies ∧
      (run (before ++ .registerDerived node kind dependencies status :: later)).kindOf node =
        some kind := by
  rw [run, List.foldl_append, List.foldl_cons]
  induction later using List.reverseRecOn with
  | nil =>
      rw [List.foldl_nil, call, dependenciesOf_registerDerived, kindOf_registerDerived, if_pos rfl,
        if_pos rfl]
      exact ⟨rfl, rfl⟩
  | append_singleton later step ih =>
      rw [List.foldl_append, List.foldl_cons, List.foldl_nil]
      have same := call_kept (List.foldl call ((before.foldl call empty).call
        (.registerDerived node kind dependencies status)) later)
        (apart step (List.mem_append_right later List.mem_cons_self))
      rw [same.1, same.2]
      exact ih fun other member => apart other (List.mem_append_left [step] member)

/-- At all times the dependents are the dependencies backwards, and an invalidation ends, makes
exactly what it reaches invalid and returns what was not so before. -/
theorem run_inverse_and_invalidates (calls : List (Call κ)) :
    (∀ source node, node ∈ (run calls).dependentsOf source ↔
        source ∈ (run calls).dependenciesOf node) ∧
      (∀ source nodes, (run calls).dependents.lookup source = some nodes → nodes ≠ ∅) ∧
      (∀ source node, node ∈ (run calls).dependentsOf source →
        ((run calls).statusOf node).isSome) ∧
      (∀ roots, (run calls).Ends roots ∧
        ∃ statuses, ((run calls).invalidateFrom roots).2 = { run calls with status := statuses } ∧
          ∀ node, ((run calls).Reached roots node → statuses.lookup node = some .invalid) ∧
            (¬ (run calls).Reached roots node →
              statuses.lookup node = (run calls).statusOf node) ∧
            (node ∈ ((run calls).invalidateFrom roots).1 ↔
              (run calls).Reached roots node ∧ (run calls).statusOf node ≠ some .invalid)) ∧
      ∀ nodeIds,
        (run calls).Ends (nodeIds.eraseDups.filter fun node => ((run calls).statusOf node).isSome) ∧
        ∃ statuses, ((run calls).invalidateNodes nodeIds).2 =
            { run calls with status := statuses } ∧
          ∀ node, ((run calls).Seeded nodeIds node → statuses.lookup node = some .invalid) ∧
            (¬ (run calls).Seeded nodeIds node →
              statuses.lookup node = (run calls).statusOf node) ∧
            (node ∈ ((run calls).invalidateNodes nodeIds).1 ↔
              (run calls).Seeded nodeIds node ∧ (run calls).statusOf node ≠ some .invalid) := by
  have linked := linked_run calls
  refine ⟨linked.inverse, linked.full, fun source node member => linked.registered_of_mem member,
    fun roots => ⟨ends _ roots, invalidateFrom_spec _ roots⟩,
    fun nodeIds => ⟨ends _ _, invalidateNodes_spec _ nodeIds⟩⟩

end Runs

end DependencyGraph
end DurableContext.Cascade
