import DurableContext.Cascade.Materialization

/-! The rebuild of invalid nodes, the construction of a materialization, what is read from it, and the
maintainer that changes the store under it. -/

namespace DurableContext.Cascade

open Maintenance (EvidenceRecord)
open Program

variable {V : Type}

/-- A rebuild at work. `images` is no variable of the code: it keeps the materialization that each
write has left. -/
structure Session (V : Type) where
  held : Materialization V
  visiting : Finset String
  done : Finset String
  rebuilt : Finset String
  images : List (Materialization V)

namespace Session

def write (change : Materialization V → Except Raised (Materialization V)) :
    Op Raised (Session V) Unit := fun session =>
  match change session.held with
  | .ok held => .ok () { session with held, images := session.images ++ [held] }
  | .error error => .error error session

def writeGraph (change : DependencyGraph Kind → Except Raised (DependencyGraph Kind)) :
    Op Raised (Session V) Unit :=
  write fun m => (change m.graph).map fun graph => { m with graph }

def keyOf (session : Session V) (node : String) : Except Raised StateKey :=
  match session.held.keyByNode.lookup node with
  | some key => .ok key
  | none => .error (.keyError node)

def subjectOf (session : Session V) (node : String) : Except Raised String :=
  match session.held.subjectByProfileNode.lookup node with
  | some subject => .ok subject
  | none => .error (.keyError node)

/-- The derived value and then the lineage of a node of some kind. -/
def rebuildKind (reprs : Reprs V) (node : String) : Option Kind → Op Raised (Session V) Unit
  | some .state => do
      let key ← ofResult (keyOf (← get) node)
      write (Materialization.writeState reprs key)
      write fun m => .ok (m.registerState key)
  | some .profile => do
      let subject ← ofResult (subjectOf (← get) node)
      write fun m => .ok (m.writeProfile subject)
      write fun m => .ok (m.registerProfile subject)
  | some .support => do
      let key ← ofResult (keyOf (← get) node)
      write fun m => .ok (m.writeSupport key)
      write fun m => .ok (m.registerSupport key)
  | some .context => do
      let key ← ofResult (keyOf (← get) node)
      write fun m => .ok (m.writeContext reprs key)
      write fun m => .ok (m.registerContext key)
  | none => throw (.keyError ("Unknown derived node kind for " ++ node ++ ": None"))

/-- Rebuild an invalid node after what it depends on. The fuel bounds the depth of the recursion. -/
def rebuildNode (reprs : Reprs V) : Nat → String → Op Raised (Session V) Unit
  | 0, _ => pure ()
  | fuel + 1, node => do
      let session ← get
      if node ∈ session.done then pure ()
      else if session.held.graph.statusOf node ≠ some .invalid then
        set { session with done := insert node session.done }
      else if node ∈ session.visiting then
        throw (.runtimeError ("Dependency cycle detected at " ++ node))
      else do
        set { session with visiting := insert node session.visiting }
        forM (sorted (session.held.graph.dependenciesOf node)) fun dependency => do
          if (← get).held.graph.statusOf dependency = some .invalid then
            rebuildNode reprs fuel dependency
          else pure ()
        writeGraph fun graph => graph.markRebuilding node
        rebuildKind reprs node ((← get).held.graph.kindOf node)
        writeGraph fun graph => graph.markFresh node
        modify fun session => { session with
          rebuilt := insert node session.rebuilt
          visiting := session.visiting.erase node
          done := insert node session.done }

/-- The order of keys. -/
def KeyBefore (key other : StateKey) : Prop :=
  key.1 < other.1 ∨ (key.1 = other.1 ∧
    (key.2.1 < other.2.1 ∨ (key.2.1 = other.2.1 ∧ key.2.2 ≤ other.2.2)))

instance : DecidableRel KeyBefore := fun _ _ => inferInstanceAs (Decidable (_ ∨ _))

def subjectsOf (session : Session V) (nodes : Finset String) : List String :=
  sorted ((sorted nodes).filterMap fun node =>
    if session.held.graph.kindOf node = some .profile then
      session.held.subjectByProfileNode.lookup node
    else none).toFinset

def keysOf (session : Session V) (nodes : Finset String) : List StateKey :=
  ((sorted nodes).filterMap fun node =>
    match session.held.graph.kindOf node with
    | some .state | some .support | some .context => session.held.keyByNode.lookup node
    | _ => none).dedup.insertionSort KeyBefore

def retireSubject (subjectId : String) : Op Raised (Session V) Unit := do
  let m := (← get).held
  let node := profileNode subjectId
  if m.store.assertionsForSubject subjectId = [] ∧ m.graph.statusOf node = some .fresh then do
    writeGraph fun graph => graph.removeDerived node
    write fun m => .ok { m with subjectByProfileNode := m.subjectByProfileNode.erase node }
  else pure ()

def chainNodes (key : StateKey) : List String := [contextNode key, supportNode key, stateNode key]

def retireKey (key : StateKey) : Op Raised (Session V) Unit := do
  let m := (← get).held
  let statuses := (chainNodes key).filterMap m.graph.statusOf
  if m.store.assertionsForKey key ≠ [] ∨ statuses.any (fun status => decide (status ≠ .fresh)) then
    pure ()
  else
    forM (chainNodes key) fun node => do
      if (← get).held.graph.statusOf node ≠ none then
        writeGraph fun graph => graph.removeDerived node
      else pure ()
      write fun m => .ok { m with keyByNode := m.keyByNode.erase node }

def retireRebuiltAbsent (rebuilt : Finset String) : Op Raised (Session V) Unit := do
  let session ← get
  forM (subjectsOf session rebuilt) retireSubject
  forM (keysOf session rebuilt) retireKey

def rebuild (reprs : Reprs V) (targetNodeIds : Option (List String)) :
    Op Raised (Session V) Unit := do
  let m := (← get).held
  let targets := targetNodeIds.getD m.graph.invalidNodes
  forM targets (rebuildNode reprs (m.graph.status.entries.length + 1))
  retireRebuiltAbsent (← get).rebuilt

def start (m : Materialization V) : Session V := ⟨m, ∅, ∅, ∅, []⟩

end Session

namespace Materialization

/-- `rebuild`, on a materialization. -/
def rebuild (reprs : Reprs V) (targetNodeIds : Option (List String)) (m : Materialization V) :
    EStateM.Result Raised (Session V) Unit :=
  Session.rebuild reprs targetNodeIds (.start m)

def bootstrapKey (reprs : Reprs V) (m : Materialization V) (key : StateKey) :
    Except Raised (Materialization V) := do
  let m := m.ensureStateChain key
  let m ← rebuildState reprs key m
  let m := { m with graph := ← m.graph.markFresh (stateNode key) }
  let m := rebuildSupport key m
  let m := { m with graph := ← m.graph.markFresh (supportNode key) }
  let m := rebuildContext reprs key m
  return { m with graph := ← m.graph.markFresh (contextNode key) }

def allKeys (store : MemoryStore V) : List StateKey :=
  (store.assertions.entries.map fun entry => entry.2.key).dedup.insertionSort Session.KeyBefore

def create (reprs : Reprs V) (store : MemoryStore V) : Except Raised (Materialization V) :=
  let m : Materialization V :=
    ⟨store.withState ∅, .empty, .ofStore store, ∅, ∅, ∅, ∅⟩
  let m := store.subjectIds.foldl ensureProfile m
  (allKeys store).foldlM (bootstrapKey reprs) m

def readContext (m : Materialization V) (key : StateKey) : Except Raised (Option String) :=
  let node := contextNode key
  match m.graph.statusOf node with
  | none | some .fresh => .ok (m.contexts.lookup key)
  | some status => .error (.runtimeError
      ("Context materialization is not fresh: " ++ node ++ " (" ++ status.value ++ ")"))

/-- What is compared of a cell. -/
def signature (cell : StateCell V) : List V × StateStatus × List String × List String × List String :=
  (cell.operativeValues, cell.status, cell.supportingAssertionIds, cell.competingAssertionIds,
    cell.historicalAssertionIds)

def Equivalent (m other : Materialization V) : Prop :=
  (∀ key, (m.store.state.lookup key).map signature =
      (other.store.state.lookup key).map signature) ∧
    m.index.Equivalent other.index ∧ Table.Same m.supports other.supports ∧
    Table.Same m.contexts other.contexts ∧ m.graph.Equivalent other.graph

end Materialization

/-! ### The maintainer -/

namespace CascadeMaintainer

/-- The nodes an operation has made invalid, in order, and the materialization. -/
abbrev CascadeResult (V : Type) := List String × Materialization V

def invalidateFrom (m : Materialization V) (roots : List String) : CascadeResult V :=
  let (invalidated, graph) := m.graph.invalidateFrom roots
  (sorted invalidated, { m with graph })

def invalidateNodes (m : Materialization V) (seeds : List String) : CascadeResult V :=
  let (invalidated, graph) := m.graph.invalidateNodes seeds
  (sorted invalidated, { m with graph })

def upsertEvidence (item : EvidenceRecord) (m : Materialization V) : CascadeResult V :=
  invalidateFrom { m with store := m.store.addEvidence item } [evidenceNode item.id]

def deleteEvidence (evidenceId : String) (m : Materialization V) : CascadeResult V :=
  invalidateFrom { m with store := m.store.removeEvidence evidenceId } [evidenceNode evidenceId]

def profileChanged (item : Assertion V) : Option (Assertion V) → Bool
  | none => true
  | some previous =>
      decide (previous.subjectId ≠ item.subjectId ∨ previous.predicate ≠ item.predicate ∨
        previous.evidenceIds ≠ item.evidenceIds)

/-- The keys and the subjects whose nodes a written assertion invalidates. -/
def upsertSeeds (item : Assertion V) (previous : Option (Assertion V)) :
    List StateKey × List String :=
  (((previous.map Assertion.key).toList ++ [item.key]).dedup,
    if profileChanged item previous then
      ((previous.map Assertion.subjectId).toList ++ [item.subjectId]).dedup
    else [])

/-- Register the nodes of the keys and subjects, and invalidate them. -/
def invalidateSeeds (keys : List StateKey) (subjects : List String) (m : Materialization V) :
    CascadeResult V :=
  let m := keys.foldl Materialization.ensureStateChain m
  let m := subjects.foldl Materialization.ensureProfile m
  invalidateNodes m (keys.map stateNode ++ subjects.map profileNode)

def upsertAssertion (item : Assertion V) (m : Materialization V) : CascadeResult V :=
  let previous := m.store.assertions.lookup item.id
  let (keys, subjects) := upsertSeeds item previous
  invalidateSeeds keys subjects { m with store := m.store.addAssertion item }

def deleteAssertion (assertionId : String) (m : Materialization V) : CascadeResult V :=
  match m.store.assertions.lookup assertionId with
  | none => ([], m)
  | some previous =>
      invalidateSeeds [previous.key] [previous.subjectId]
        { m with store := m.store.removeAssertion assertionId }

def addRelation (relation : AssertionRelation) (m : Materialization V) : CascadeResult V :=
  let m := { m with store := m.store.addRelation relation }
  let named := [relation.sourceAssertionId, relation.targetAssertionId].filterMap
    fun id => m.store.assertions.lookup id
  invalidateSeeds (named.map Assertion.key).dedup [] m

end CascadeMaintainer
end DurableContext.Cascade
