import DurableContext.Lib.Reach
import DurableContext.Maintenance.Canonical

/-! The derived rows, the edges they depend on each other and on canonical rows by, and how one
derived row is rebuilt from the canonical rows. -/

namespace DurableContext.Maintenance

/-- What a dependency edge joins; each stands for the identifier `text` gives it. -/
inductive NodeId where
  | evidence (id : String)
  | assertion (id : String)
  | predicatePresence (key : CellKey)
  | profile (subject : String)
  | state (key : CellKey)
  | support (key : CellKey)
  | context (key : CellKey)
  deriving DecidableEq

namespace NodeId

def text : NodeId → String
  | evidence id => "evidence:" ++ id
  | assertion id => "assertion:" ++ id
  | predicatePresence key => "predicate-presence:" ++ key.1 ++ ":" ++ key.2
  | profile subject => "profile:" ++ subject
  | state key => "state:" ++ key.1 ++ ":" ++ key.2 ++ ":default"
  | support key => "support:" ++ key.1 ++ ":" ++ key.2 ++ ":default"
  | context key => "context:" ++ key.1 ++ ":" ++ key.2 ++ ":default"

def isProfile : NodeId → Bool
  | profile _ => true
  | _ => false

end NodeId

inductive Kind where
  | profile
  | state
  | support
  | context
  deriving DecidableEq

/-- The order in which one repair rebuilds. -/
def Kind.priority : Kind → Nat
  | profile => 0
  | state => 0
  | support => 1
  | context => 2

inductive NodeStatus where
  | fresh
  | invalid
  | rebuilding
  deriving DecidableEq

structure Support where
  status : String
  operativeValues : List Int
  assertionIds : List String
  evidencePayloads : List (String × String)
  deriving DecidableEq

/-- The values of derived rows. A context's text is kept as the parts it is formatted from. -/
inductive DerivedValue where
  | partialRebuild
  | materializationObligation
  | profile (subject : String) (predicates : List String)
      (evidencePayloads : List (String × String))
  | manifest (subject : String) (predicates : List String)
  | descriptor (subject : String)
  | state (status : String) (operativeValues : List Int) (supporting competing historical :
      List String)
  | support (value : Support)
  | context (key : CellKey) (support : Support)
  deriving DecidableEq

structure DerivedRow where
  kind : Kind
  subject : String
  predicate : Option String
  status : NodeStatus
  value : DerivedValue
  deriving DecidableEq

/-- The tables that are rebuilt from the canonical rows: the materializations with their edges, and
for every cell with assertions its latest one and its membership in the subject's profile. -/
structure Derived where
  nodes : Table NodeId DerivedRow
  edges : Table (NodeId × NodeId) Unit
  heads : Table CellKey String
  membership : Table CellKey Unit

namespace Derived

def empty : Derived := ⟨∅, ∅, ∅, ∅⟩

def edgeList (derived : Derived) : List (NodeId × NodeId) := derived.edges.keys

/-- A row a reader may use. -/
def freshValue (derived : Derived) (id : NodeId) : Option DerivedValue :=
  match derived.nodes.lookup id with
  | some row => if row.status = .fresh then some row.value else none
  | none => none

def setRow (derived : Derived) (id : NodeId) (change : DerivedRow → DerivedRow) : Derived :=
  match derived.nodes.lookup id with
  | some row => { derived with nodes := derived.nodes.insert id (change row) }
  | none => derived

def invalidate (derived : Derived) (affected : List NodeId) : Derived :=
  affected.foldl (fun derived id => derived.setRow id fun row => { row with status := .invalid })
    derived

def replaceEdges (derived : Derived) (id : NodeId) (dependencies : List NodeId) : Derived :=
  { derived with
    edges := dependencies.foldl (fun edges dependency => edges.insert (dependency, id) ())
      (derived.edges.filter fun edge _ => decide (edge.2 ≠ id)) }

def retireNode (derived : Derived) (id : NodeId) : Derived :=
  { derived with
    nodes := derived.nodes.erase id
    edges := derived.edges.filter fun edge _ => decide (edge.2 ≠ id ∧ edge.1 ≠ id) }

def writeDerived (derived : Derived) (id : NodeId) (kind : Kind) (subject : String)
    (predicate : Option String) (value : DerivedValue) (dependencies : List NodeId) : Derived :=
  { derived with nodes := derived.nodes.insert id ⟨kind, subject, predicate, .fresh, value⟩ }
    |>.replaceEdges id dependencies

end Derived

/-! ### Materializations -/

def stateValue (item : Assertion) : DerivedValue :=
  .state "resolved" [item.objectValue] [item.id] [] []

def supportValue (item : Assertion) (payloads : List (String × String)) : Support :=
  ⟨"resolved", [item.objectValue], [item.id], payloads⟩

def evidenceNodes (item : Assertion) : List NodeId := item.evidenceIds.map .evidence

/-- What the context of a support row is formatted from. -/
def Support.ofValue : DerivedValue → Except Raised Support
  | .support value => .ok value
  | .profile _ _ _ => .error (.keyError "assertion_ids")
  | _ => .error (.keyError "evidence_payloads")

namespace SQLiteRecovery

/-- The profile before predicates were introduced: that of the subject's deadline. -/
def profileMaterialization (canonical : Canonical) (subject : String) :
    Option (DerivedValue × List NodeId) :=
  (canonical.latestAssertion (subject, "deadline")).map fun item =>
    (.profile subject [item.predicate] (canonical.payloads item.evidenceIds),
      .assertion item.id :: evidenceNodes item)

def rebuildProfile (materialization : Option (DerivedValue × List NodeId)) (id : NodeId)
    (subject : String) (derived : Derived) : Derived :=
  match materialization with
  | none => derived.retireNode id
  | some (value, dependencies) => derived.writeDerived id .profile subject none value dependencies

def rebuildNode (canonical : Canonical) (id : NodeId) (derived : Derived) :
    Except Raised Derived :=
  match derived.nodes.lookup id with
  | none => .ok derived
  | some row =>
      let subject := row.subject
      -- an empty predicate is read as the default one
      let predicate := (row.predicate.filter (· ≠ "")).getD "deadline"
      let key : CellKey := (subject, predicate)
      match row.kind with
      | .profile => .ok (rebuildProfile (profileMaterialization canonical subject) id subject derived)
      | .state =>
          match canonical.latestAssertion key with
          | none => .ok (derived.retireNode id)
          | some item =>
              .ok (derived.writeDerived id .state subject predicate (stateValue item)
                [.assertion item.id])
      | .support =>
          match derived.freshValue (.state key), canonical.latestAssertion key with
          | some _, some item =>
              .ok (derived.writeDerived id .support subject predicate
                (.support (supportValue item (canonical.payloads item.evidenceIds)))
                (.state key :: .assertion item.id :: evidenceNodes item))
          | _, _ => .ok (derived.retireNode id)
      | .context =>
          match derived.freshValue (.support key) with
          | none => .ok (derived.retireNode id)
          | some value => do
              let support ← Support.ofValue value
              return derived.writeDerived id .context subject predicate (.context key support)
                [.support key]

/-- The derived rows an intent can reach: those it names and all that depend on them. -/
def affectedNodes (derived : Derived) (seeds canonicalSeeds : List NodeId) : List NodeId :=
  let named := seeds.filter fun id => decide (id ∈ derived.nodes)
  let dependents := Reach.targets derived.edgeList (seeds ++ canonicalSeeds)
  Reach.reach derived.edgeList (named ++ dependents)

def profileChanged (item : Assertion) : Option Assertion → Bool
  | none => true
  | some previous =>
      decide (previous.subjectId ≠ item.subjectId ∨ previous.predicate ≠ item.predicate ∨
        previous.evidenceIds ≠ item.evidenceIds)

def seeds : Intent → List NodeId
  | .upsertEvidence _ _ => []
  | .upsertAssertion item previous =>
      (item.key :: (previous.map Assertion.key).toList).map .state ++
        if profileChanged item previous then
          (item.subjectId :: (previous.map Assertion.subjectId).toList).map .profile
        else []
  | .deleteAssertion _ previous => [.state previous.key, .profile previous.subjectId]

def canonicalSeeds : Intent → List NodeId
  | .upsertEvidence item _ => [.evidence item.id]
  | _ => []

def affected (derived : Derived) (intent : Intent) : List NodeId :=
  affectedNodes derived (seeds intent) (canonicalSeeds intent)

end SQLiteRecovery

/-- `ORDER BY node_id`. -/
def inOrder (affected : List NodeId) : List NodeId :=
  affected.insertionSort fun id other => id.text ≤ other.text

/-- The order of one repair: by kind, then by identifier. -/
def RepairsBefore (pair other : Kind × NodeId) : Prop :=
  pair.1.priority < other.1.priority ∨
    (pair.1.priority = other.1.priority ∧ pair.2.text ≤ other.2.text)

instance : DecidableRel RepairsBefore := fun _ _ => inferInstanceAs (Decidable (_ ∨ _))

def repairOrder (derived : Derived) (affected : List NodeId) : List (Kind × NodeId) :=
  (affected.filterMap fun id => (derived.nodes.lookup id).map fun row => (row.kind, id))
    |>.insertionSort RepairsBefore

end DurableContext.Maintenance
