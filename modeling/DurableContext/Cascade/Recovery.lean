import DurableContext.Cascade.Rebuild

/-! The recovery coordinator: a journal of at most one intent, whose phases are worked off one after
the other and can be taken up again from what was durable. -/

namespace DurableContext.Cascade

open Maintenance (EvidenceRecord)
open Program

variable {V : Type}

inductive MaintenanceOperation where
  | upsertEvidence
  | upsertAssertion
  | deleteAssertion
  deriving DecidableEq, Repr

inductive MaintenancePhase where
  | prepared
  | canonicalApplied
  | invalidated
  | rebuilding
  | repaired
  deriving DecidableEq, Repr

structure MaintenanceIntent (V : Type) where
  id : String
  operation : MaintenanceOperation
  phase : MaintenancePhase
  evidence : Option EvidenceRecord
  assertion : Option (Assertion V)
  assertionId : Option String
  previousAssertion : Option (Assertion V)
  affectedNodeIds : List String
  partialRebuildNodeId : Option String

/-- What a coordinator raises: `valueError` for an intent without what its operation needs, and what
the materialization raises. -/
inductive RecoveryRaised where
  | raised (error : Raised)
  | valueError (message : String)
  deriving DecidableEq, Repr

structure RecoveryCoordinator (V : Type) where
  materialization : Materialization V
  journal : Table String (MaintenanceIntent V)

namespace RecoveryCoordinator

abbrev Work (V α : Type) := Op RecoveryRaised (RecoveryCoordinator V) α

def ofStep (result : Except Raised α) : Work V α :=
  match result with
  | .ok value => pure value
  | .error error => throw (.raised error)

def writeMaterialization (m : Materialization V) : Work V Unit :=
  modify fun coordinator => { coordinator with materialization := m }

section Prepare

def insertIntent (intent : MaintenanceIntent V) : Work V String := do
  if (← get).journal.keys ≠ [] then
    throw (.raised (.runtimeError "v0.8 prototype permits one in-flight maintenance intent"))
  else do
    modify fun coordinator =>
      { coordinator with journal := coordinator.journal.insert intent.id intent }
    pure intent.id

/-- The name of an intent. `serial` is what the counter of the class gives. -/
def intentId (serial : Nat) : String := "maintenance-" ++ toString serial

def newIntent (serial : Nat) (operation : MaintenanceOperation) : MaintenanceIntent V :=
  ⟨intentId serial, operation, .prepared, none, none, none, none, [], none⟩

def prepareUpsertEvidence (serial : Nat) (item : EvidenceRecord) : Work V String :=
  insertIntent { newIntent serial .upsertEvidence with evidence := some item }

def prepareUpsertAssertion (serial : Nat) (item : Assertion V) : Work V String := do
  let previous := (← get).materialization.store.assertions.lookup item.id
  insertIntent { (newIntent serial .upsertAssertion : MaintenanceIntent V) with
    assertion := some item
    previousAssertion := previous }

def prepareDeleteAssertion (serial : Nat) (assertionId : String) : Work V String := do
  match (← get).materialization.store.assertions.lookup assertionId with
  | none => throw (.raised (.keyError ("Unknown assertion: " ++ assertionId)))
  | some previous =>
      insertIntent { newIntent serial .deleteAssertion with
        assertionId := some assertionId
        previousAssertion := some previous }

end Prepare

section Phases

def writeStore (change : MemoryStore V → MemoryStore V) : Work V Unit :=
  modify fun coordinator => { coordinator with
    materialization := { coordinator.materialization with
      store := change coordinator.materialization.store } }

def applyCanonical (intent : MaintenanceIntent V) : Work V Unit :=
  match intent.operation with
  | .upsertEvidence =>
      match intent.evidence with
      | none => throw (.valueError "Evidence intent missing payload")
      | some item => writeStore fun store => store.addEvidence item
  | .upsertAssertion =>
      match intent.assertion with
      | none => throw (.valueError "Assertion intent missing payload")
      | some item => writeStore fun store => store.addAssertion item
  | .deleteAssertion =>
      match intent.assertionId with
      | none => throw (.valueError "Delete intent missing assertion id")
      | some assertionId => writeStore fun store => store.removeAssertion assertionId

def writeIntent (intentId : String) (change : MaintenanceIntent V → MaintenanceIntent V) :
    Work V Unit :=
  modify fun coordinator => match coordinator.journal.lookup intentId with
    | none => coordinator
    | some intent => { coordinator with
        journal := coordinator.journal.insert intentId (change intent) }

def setPhase (intentId : String) (phase : MaintenancePhase) : Work V Unit :=
  writeIntent intentId fun intent => { intent with phase }

/-- `self.journal[intent_id]`. -/
def intentOf (intentId : String) : Work V (MaintenanceIntent V) := do
  match (← get).journal.lookup intentId with
  | none => throw (.raised (.keyError intentId))
  | some intent => pure intent

/-- The invalidation that an intent asks for, and the nodes it has made invalid. -/
def invalidated (intent : MaintenanceIntent V) (m : Materialization V) :
    Except RecoveryRaised (CascadeMaintainer.CascadeResult V) :=
  match intent.operation with
  | .upsertEvidence =>
      match intent.evidence with
      | none => .error (.valueError "Evidence intent missing payload")
      | some item => .ok (CascadeMaintainer.invalidateFrom m [evidenceNode item.id])
  | .upsertAssertion =>
      match intent.assertion with
      | none => .error (.valueError "Assertion intent missing payload")
      | some item =>
          let (keys, subjects) := CascadeMaintainer.upsertSeeds item intent.previousAssertion
          .ok (CascadeMaintainer.invalidateSeeds keys subjects m)
  | .deleteAssertion =>
      match intent.previousAssertion with
      | none => .error (.valueError "Delete intent missing previous assertion")
      | some previous =>
          .ok (CascadeMaintainer.invalidateSeeds [previous.key] [previous.subjectId] m)

def invalidate (intent : MaintenanceIntent V) : Work V Unit := do
  match invalidated intent (← get).materialization with
  | .error error => throw error
  | .ok (affected, m) => do
      writeMaterialization m
      writeIntent intent.id fun intent => { intent with affectedNodeIds := affected }

def rebuildPriority : Option Kind → Nat
  | some .profile => 0
  | some .state => 0
  | some .support => 1
  | some .context => 2
  | none => 99

/-- The order in which an affected node is taken for a partial rebuild. -/
def Earlier (graph : DependencyGraph Kind) (node other : String) : Prop :=
  rebuildPriority (graph.kindOf node) < rebuildPriority (graph.kindOf other) ∨
    (rebuildPriority (graph.kindOf node) = rebuildPriority (graph.kindOf other) ∧ node ≤ other)

instance (graph : DependencyGraph Kind) : DecidableRel (Earlier graph) :=
  fun _ _ => inferInstanceAs (Decidable (_ ∨ _))

/-- The rebuild of a node that is marked, by its kind. -/
def rebuildMarked (reprs : Reprs V) (node : String) (m : Materialization V) :
    Except Raised (Materialization V) :=
  match m.graph.kindOf node with
  | some .profile =>
      match m.subjectByProfileNode.lookup node with
      | none => .error (.keyError node)
      | some subject => .ok (Materialization.rebuildProfile subject m)
  | some .state =>
      match m.keyByNode.lookup node with
      | none => .error (.keyError node)
      | some key => Materialization.rebuildState reprs key m
  | some .support =>
      match m.keyByNode.lookup node with
      | none => .error (.keyError node)
      | some key => .ok (Materialization.rebuildSupport key m)
  | some .context =>
      match m.keyByNode.lookup node with
      | none => .error (.keyError node)
      | some key => .ok (Materialization.rebuildContext reprs key m)
  | none => .error (.keyError "Unknown derived node kind for partial rebuild: None")

/-- The affected nodes that are invalid, the first to be rebuilt first. -/
def candidates (graph : DependencyGraph Kind) (affectedNodeIds : List String) : List String :=
  (affectedNodeIds.filter fun node => decide (graph.statusOf node = some .invalid)).insertionSort
    (Earlier graph)

def simulateDurablePartialRebuild (reprs : Reprs V) (intent : MaintenanceIntent V) :
    Work V Unit := do
  let m := (← get).materialization
  match candidates m.graph intent.affectedNodeIds with
  | [] =>
      throw (.raised (.runtimeError
        "No invalid affected node available for REBUILDING failpoint"))
  | node :: _ => do
      let graph ← ofStep (m.graph.markRebuilding node)
      writeMaterialization { m with graph }
      let rebuilt ← ofStep (rebuildMarked reprs node { m with graph })
      writeMaterialization rebuilt
      writeIntent intent.id fun intent => { intent with partialRebuildNodeId := some node }

/-- `materialization.rebuild`, with what it leaves also when it raises. -/
def rebuild (reprs : Reprs V) (targetNodeIds : List String) : Work V Unit := do
  match (← get).materialization.rebuild reprs (some targetNodeIds) with
  | .ok _ session => writeMaterialization session.held
  | .error error session => do
      writeMaterialization session.held
      throw (.raised error)

/-! The phases of `run_until`, each taken when the intent is in the phase before. -/

def applyPhase (intentId : String) : Work V Unit := do
  let intent ← intentOf intentId
  if intent.phase = .prepared then do
    applyCanonical intent
    setPhase intentId .canonicalApplied
  else pure ()

/-- `redo` is set when the canonical write may have been lost with a crash. -/
def redoCanonical (redo : Bool) (intent : MaintenanceIntent V) : Work V Unit :=
  if redo then applyCanonical intent else pure ()

def invalidatePhase (intentId : String) (redo : Bool) : Work V Unit := do
  let intent ← intentOf intentId
  if intent.phase = .canonicalApplied then do
    redoCanonical redo intent
    invalidate intent
    setPhase intentId .invalidated
  else pure ()

def partialPhase (reprs : Reprs V) (intentId : String) : Work V Unit := do
  let intent ← intentOf intentId
  simulateDurablePartialRebuild reprs intent
  setPhase intentId .rebuilding

def reinvalidatePhase (intentId : String) : Work V Unit := do
  let intent ← intentOf intentId
  if intent.phase = .rebuilding then do
    let m := (← get).materialization
    writeMaterialization (CascadeMaintainer.invalidateNodes m intent.affectedNodeIds).2
    setPhase intentId .invalidated
  else pure ()

def rebuildPhase (reprs : Reprs V) (intentId : String) : Work V Unit := do
  let intent ← intentOf intentId
  if intent.phase = .invalidated then do
    rebuild reprs intent.affectedNodeIds
    setPhase intentId .repaired
  else pure ()

def finishPhase (intentId : String) : Work V Unit := do
  let intent ← intentOf intentId
  if intent.phase = .repaired then
    modify fun coordinator => { coordinator with journal := coordinator.journal.erase intentId }
  else pure ()

end Phases

def runUntil (reprs : Reprs V) (intentId : String) (stopAfter : Option MaintenancePhase)
    (recoveryMode : Bool) : Work V Unit := do
  let intent ← intentOf intentId
  if stopAfter = some .prepared then pure ()
  else do
    applyPhase intentId
    if stopAfter = some .canonicalApplied then pure ()
    else do
      invalidatePhase intentId (recoveryMode && decide (intent.phase ≠ .prepared))
      if stopAfter = some .invalidated then pure ()
      else do
        let intent ← intentOf intentId
        if stopAfter = some .rebuilding ∧ intent.phase = .invalidated then
          partialPhase reprs intentId
        else do
          reinvalidatePhase intentId
          rebuildPhase reprs intentId
          if stopAfter = some .repaired then pure () else finishPhase intentId

def recoverAll (reprs : Reprs V) : Work V Unit := do
  forM (sorted (← get).journal.keys.toFinset) fun intentId => runUntil reprs intentId none true

def AllDerivedFresh (coordinator : RecoveryCoordinator V) : Prop :=
  ∀ node ∈ coordinator.materialization.graph.derivedNodes,
    coordinator.materialization.graph.statusOf node = some .fresh

end RecoveryCoordinator
end DurableContext.Cascade
