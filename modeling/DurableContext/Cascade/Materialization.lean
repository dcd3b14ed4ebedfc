import DurableContext.Lib.Program
import DurableContext.Cascade.SubjectProfileIndex

/-! The layered materialization of a store: cells of current state, subject profiles, support
snapshots and context strings, with the graph of what each is derived from. -/

namespace DurableContext.Cascade

open Maintenance (EvidenceRecord)

def evidenceNode (evidenceId : String) : String := "evidence:" ++ evidenceId

def assertionNode (assertionId : String) : String := "assertion:" ++ assertionId

def relationNode (relation : AssertionRelation) : String :=
  "relation:" ++ relation.sourceAssertionId ++ ":" ++ relation.relation.value ++ ":" ++
    relation.targetAssertionId

def keyNode (layer : String) (key : StateKey) : String :=
  layer ++ ":" ++ key.1 ++ ":" ++ key.2.1 ++ ":" ++ key.2.2

def stateNode (key : StateKey) : String := keyNode "state" key

def profileNode (subjectId : String) : String := "profile:" ++ subjectId

def supportNode (key : StateKey) : String := keyNode "support" key

def contextNode (key : StateKey) : String := keyNode "context" key

inductive Kind where
  | profile
  | state
  | support
  | context
  deriving DecidableEq, Repr

structure SupportSnapshot (V : Type) where
  key : StateKey
  status : String
  operativeValues : List V
  assertionIds : List String
  evidencePayloads : List (String × String)
  deriving DecidableEq

structure Materialization (V : Type) where
  store : MemoryStore V
  graph : DependencyGraph Kind
  index : SubjectProfileIndex
  supports : Table StateKey (SupportSnapshot V)
  contexts : Table StateKey String
  keyByNode : Table String StateKey
  subjectByProfileNode : Table String String

section Derivations

variable {V : Type} (reprs : Reprs V) (store : MemoryStore V)

def stateDependencies (key : StateKey) : Finset String :=
  let assertions := store.assertionsForKey key
  let ids := (assertions.map Assertion.id).toFinset
  (assertions.map fun item => assertionNode item.id).toFinset ∪
    ((store.relationsForAssertions ids).map relationNode).toFinset

def profileDependencies (subjectId : String) : Finset String :=
  let assertions := store.assertionsForSubject subjectId
  (assertions.map fun item => assertionNode item.id).toFinset ∪
    ((assertions.flatMap Assertion.evidenceIds).map evidenceNode).toFinset

def activeAssertionIds : Option (StateCell V) → List String
  | none => []
  | some cell => (cell.supportingAssertionIds ++ cell.competingAssertionIds).eraseDups

/-- The active assertions of a cell that are stored. -/
def activeAssertions (cell : StateCell V) : List (Assertion V) :=
  (activeAssertionIds (some cell)).filterMap fun id => store.assertions.lookup id

/-- The evidence a cell rests on, in order and each once. -/
def evidencePayloads (cell : StateCell V) : List (String × String) :=
  let cited := (activeAssertions store cell).flatMap Assertion.evidenceIds
  (cited.filterMap fun id => (store.evidence.lookup id).map fun row => (id, row.payload)).dedup
    |>.insertionSort fun pair other => pair.1 < other.1 ∨ (pair.1 = other.1 ∧ pair.2 ≤ other.2)

def supportDependencies (key : StateKey) : Option (StateCell V) → Finset String
  | none => {stateNode key}
  | some cell =>
      insert (stateNode key)
        (((activeAssertions store cell).map fun item => assertionNode item.id).toFinset ∪
          (((activeAssertions store cell).flatMap Assertion.evidenceIds).map evidenceNode).toFinset)

def supportSnapshot (key : StateKey) (cell : StateCell V) : SupportSnapshot V where
  key
  status := cell.status.value
  operativeValues := cell.operativeValues
  assertionIds := activeAssertionIds (some cell)
  evidencePayloads := evidencePayloads store cell

/-- `reconcile` of a key's assertions, if there are any. -/
def reconciledCell (key : StateKey) : Except Raised (Option (StateCell V)) :=
  let assertions := store.assertionsForKey key
  if assertions = [] then .ok none
  else do
    let ids := (assertions.map Assertion.id).toFinset
    let cell ← reconcile reprs assertions (store.relationsForAssertions ids) none none
    return some { cell with version := 1 }

def listText (texts : List String) : String := "[" ++ ", ".intercalate texts ++ "]"

def contextText (key : StateKey) (support : SupportSnapshot V) : String :=
  "ENTITY=" ++ key.1 ++ " PROPERTY=" ++ key.2.1 ++ " STATUS=" ++ support.status ++
    " VALUES=" ++ listText (support.operativeValues.map reprs.value) ++
    " ASSERTIONS=" ++ listText (support.assertionIds.map reprs.text) ++
    " EVIDENCE=" ++ listText (support.evidencePayloads.map fun pair =>
      "(" ++ reprs.text pair.1 ++ ", " ++ reprs.text pair.2 ++ ")")

end Derivations

namespace Materialization

variable {V : Type}

def ensureProfile (m : Materialization V) (subjectId : String) : Materialization V :=
  let node := profileNode subjectId
  let m := { m with subjectByProfileNode := m.subjectByProfileNode.insert node subjectId }
  if m.graph.statusOf node = none then
    { m with
      graph := m.graph.registerDerived node .profile (profileDependencies m.store subjectId) .fresh }
  else m

def ensureNode (graph : DependencyGraph Kind) (node : String) (kind : Kind)
    (dependencies : Finset String) : DependencyGraph Kind :=
  if graph.statusOf node = none then graph.registerDerived node kind dependencies .fresh else graph

def ensureStateChain (m : Materialization V) (key : StateKey) : Materialization V :=
  let graph := ensureNode m.graph (stateNode key) .state (stateDependencies m.store key)
  let graph := ensureNode graph (supportNode key) .support {stateNode key}
  { m with
    keyByNode := ((m.keyByNode.insert (stateNode key) key).insert (supportNode key) key).insert
      (contextNode key) key
    graph := ensureNode graph (contextNode key) .context {supportNode key} }

/-! ### What a rebuild writes -/

def writeState (reprs : Reprs V) (key : StateKey) (m : Materialization V) :
    Except Raised (Materialization V) := do
  let cell ← reconciledCell reprs m.store key
  return { m with store := m.store.withState (Table.put m.store.state key cell) }

def registerState (key : StateKey) (m : Materialization V) : Materialization V :=
  { m with
    graph := m.graph.registerDerived (stateNode key) .state (stateDependencies m.store key)
      .rebuilding }

def writeProfile (subjectId : String) (m : Materialization V) : Materialization V :=
  { m with index := m.index.refreshSubject m.store subjectId }

def registerProfile (subjectId : String) (m : Materialization V) : Materialization V :=
  { m with
    graph := m.graph.registerDerived (profileNode subjectId) .profile
      (profileDependencies m.store subjectId) .rebuilding }

def writeSupport (key : StateKey) (m : Materialization V) : Materialization V :=
  { m with
    supports := Table.put m.supports key
      ((m.store.state.lookup key).map (supportSnapshot m.store key)) }

def registerSupport (key : StateKey) (m : Materialization V) : Materialization V :=
  { m with
    graph := m.graph.registerDerived (supportNode key) .support
      (supportDependencies m.store key (m.store.state.lookup key)) .rebuilding }

def writeContext (reprs : Reprs V) (key : StateKey) (m : Materialization V) : Materialization V :=
  { m with
    contexts := Table.put m.contexts key ((m.supports.lookup key).map (contextText reprs key)) }

def registerContext (key : StateKey) (m : Materialization V) : Materialization V :=
  { m with
    graph := m.graph.registerDerived (contextNode key) .context {supportNode key} .rebuilding }

def rebuildState (reprs : Reprs V) (key : StateKey) (m : Materialization V) :
    Except Raised (Materialization V) := do
  return registerState key (← writeState reprs key m)

def rebuildProfile (subjectId : String) (m : Materialization V) : Materialization V :=
  registerProfile subjectId (writeProfile subjectId m)

def rebuildSupport (key : StateKey) (m : Materialization V) : Materialization V :=
  registerSupport key (writeSupport key m)

def rebuildContext (reprs : Reprs V) (key : StateKey) (m : Materialization V) :
    Materialization V :=
  registerContext key (writeContext reprs key m)

end Materialization
end DurableContext.Cascade
