import DurableContext.Lib.Table
import DurableContext.Storage.FixedPage

/-! The cross-store hybrid: a fixed-page primary whose superblock epoch also decides which rows of
an overflow table are visible.

A transaction on the table either commits as a whole or leaves it as it was. -/

namespace DurableContext.CrossStoreHybrid

open Program

/-- `hybrid_overflow_rows`, which a new primary's superblock does not have yet. -/
abbrev HybridMeta := Option Nat

instance : SuperFields HybridMeta :=
  ⟨1, fun rows => rows.toList.map fun count => ("hybrid_overflow_rows", jsonNatLength count)⟩

/-- What the hybrid does to the primary file, to the overflow table and to its own flag. -/
inductive HybridEffect where
  | primary (effect : Effect (Block HybridMeta))
  | overflowInserted (key : String) (epoch : Nat)
  | futureDeleted (epoch : Nat)
  | recovered

structure World where
  disk : Disk (Block HybridMeta)
  overflow : Table String Nat
  recovered : Bool

namespace World

def apply (world : World) : HybridEffect → World
  | .primary effect => { world with disk := world.disk.apply effect }
  | .overflowInserted key epoch => { world with overflow := world.overflow.insert key epoch }
  | .futureDeleted epoch =>
      { world with overflow := world.overflow.filter fun _ rowEpoch => decide (rowEpoch ≤ epoch) }
  | .recovered => { world with recovered := true }

def replay (world : World) (effects : List HybridEffect) : World := effects.foldl apply world

def visible (world : World) (epoch : Nat) : Table String Nat :=
  world.overflow.filter fun _ rowEpoch => decide (rowEpoch ≤ epoch)

def future (world : World) (epoch : Nat) : Table String Nat :=
  world.overflow.filter fun _ rowEpoch => decide (epoch < rowEpoch)

def primaryFile (world : World) : FixedPage.File HybridMeta := ⟨world.disk, []⟩

end World

/-- The world and what has been done to it so far. -/
structure Session where
  world : World
  log : List HybridEffect

def emit (effect : HybridEffect) : Op StoreError Session Unit :=
  modify fun session => ⟨session.world.apply effect, session.log ++ [effect]⟩

def emitIf (condition : Bool) (effect : HybridEffect) : Op StoreError Session Unit :=
  if condition then emit effect else pure ()

/-- The session once the primary has been through the effects of a file. -/
def Session.withPrimary (session : Session) (file : FixedPage.File HybridMeta) : Session :=
  ⟨{ session.world with disk := file.disk }, session.log ++ file.log.map .primary⟩

/-- A method of the primary, run on the hybrid's primary file. -/
def onPrimary {α : Type} (program : Op StoreError (FixedPage.File HybridMeta) α) :
    Op StoreError Session α := fun session =>
  match program session.world.primaryFile with
  | .ok value file => .ok value (session.withPrimary file)
  | .error error file => .error error (session.withPrimary file)

def readEpochMeta : Op StoreError Session (Nat × Meta HybridMeta) := do
  let session ← get
  let (epoch, info, _) ← ofResult (readSuper session.world.disk)
  pure (epoch, info)

def overflowRows (info : Meta HybridMeta) : Nat := info.ext.getD 0

def reachablePages (info : Meta HybridMeta) : Nat := 2 + 2 * info.nextPageId

def advanceSuperblock (expectedEpoch rows : Nat) : Op StoreError Session Nat := do
  let (observedEpoch, info) ← readEpochMeta
  if observedEpoch ≠ expectedEpoch then
    throw (.runtimeError ("coordinator epoch changed: expected " ++ toString expectedEpoch ++
      ", observed " ++ toString observedEpoch))
  else
    onPrimary (FixedPage.writeSuper expectedEpoch (expectedEpoch + 1)
      { info with ext := some rows })
    pure (expectedEpoch + 1)

structure RecoveryTrace where
  committedEpoch : Nat
  deletedFutureOverflowRows : Nat
  reclaimedTailBytes : Nat
  truncateCalls : Nat
  fixedFileFsyncs : Nat
  cleanupSqliteCommits : Nat
  logicalRedo : Nat
  deriving DecidableEq, Repr

def recover : Op StoreError Session RecoveryTrace := do
  let (epoch, info) ← readEpochMeta
  ofResult (bindInteger epoch)
  let ⟨world, _⟩ ← get
  let deleted := (world.future epoch).keys.length
  emitIf (decide (deleted ≠ 0)) (.futureDeleted epoch)
  let reclaimed := world.disk.size - reachablePages info
  emitIf (decide (reclaimed ≠ 0)) (.primary (.ftruncate (reachablePages info)))
  emit .recovered
  let truncated := if reclaimed ≠ 0 then 1 else 0
  pure ⟨epoch, deleted, reclaimed * PAGE_SIZE, truncated, truncated,
    if deleted ≠ 0 then 1 else 0, 0⟩

inductive InsertPath where
  | primary | overflow
  deriving DecidableEq, Repr

structure InsertTrace where
  key : String
  path : InsertPath
  duplicate : Bool
  committedEpoch : Nat
  primaryTrace : Option DurableContext.InsertTrace
  overflowRowsAfter : Nat
  sqliteCommits : Nat
  coordinatorSuperblockPwrites : Nat
  coordinatorExplicitFsyncs : Nat
  preAdmissionReclaimedTailBytes : Nat
  preAdmissionDeletedFutureOverflowRows : Nat
  deriving DecidableEq, Repr

/-- The startup recovery of `insert`, or what stands in for its trace. -/
def startup (recoveryFirst : Bool) : Op StoreError Session RecoveryTrace := do
  let ⟨world, _⟩ ← get
  if recoveryFirst && !world.recovered then recover
  else do
    let (epoch, _) ← readEpochMeta
    pure ⟨epoch, 0, 0, 0, 0, 0, 0⟩

/-- The primary's insert; nothing when `PrimaryAdmissionExhausted` was caught. -/
def tryPrimary (hash : Hash) (failpoint : String → Bool) (key : String) :
    Op StoreError Session (Option DurableContext.InsertTrace) :=
  tryCatch
    (do
      let trace ← onPrimary (DurableContext.insert hash (FixedPage.methods hash)
        (fun stage => failpoint ("primary_" ++ stage)) key)
      pure (some trace))
    fun error => if error.isExhausted then pure none else throw error

/-- The transaction that adds an overflow row. A row inserted and not committed is rolled back. -/
def addOverflowRow (failpoint : String → Bool) (key : String) (futureEpoch : Nat) :
    Op StoreError Session Unit := do
  ofResult (bindInteger futureEpoch)
  let ⟨world, _⟩ ← get
  if (world.overflow.lookup key).isSome then
    throw (.integrityError "UNIQUE constraint failed: overflow.key")
  else do
    reach failpoint "overflow_uncommitted"
    emit (.overflowInserted key futureEpoch)
    reach failpoint "overflow_committed"

/-- The rest of `insert` once the primary has refused the key. -/
def insertOverflow (failpoint : String → Bool) (key : String) (cleanup : RecoveryTrace) :
    Op StoreError Session InsertTrace := do
  let (epoch, info) ← readEpochMeta
  ofResult (bindInteger epoch)
  let ⟨world, _⟩ ← get
  if ((world.visible epoch).lookup key).isSome then
    pure ⟨key, .overflow, true, epoch, none, overflowRows info, 0, 0, 0,
      cleanup.reclaimedTailBytes, cleanup.deletedFutureOverflowRows⟩
  else do
    addOverflowRow failpoint key (epoch + 1)
    let newEpoch ← advanceSuperblock epoch (overflowRows info + 1)
    reach failpoint "committed"
    pure ⟨key, .overflow, false, newEpoch, none, overflowRows info + 1, 1, 1, 1,
      cleanup.reclaimedTailBytes, cleanup.deletedFutureOverflowRows⟩

def insert (hash : Hash) (failpoint : String → Bool) (recoveryFirst : Bool) (key : String) :
    Op StoreError Session InsertTrace := do
  let cleanup ← startup recoveryFirst
  match ← tryPrimary hash failpoint key with
  | some trace => do
      let (_, info) ← readEpochMeta
      pure ⟨key, .primary, trace.duplicate, trace.committedEpoch, some trace, overflowRows info,
        0, 0, 0, cleanup.reclaimedTailBytes, cleanup.deletedFutureOverflowRows⟩
  | none => insertOverflow failpoint key cleanup

inductive LookupPath where
  | primary | overflow | miss
  deriving DecidableEq, Repr

structure LookupTrace where
  key : String
  found : Bool
  path : LookupPath
  primaryLogicalPages : Nat
  overflowChecked : Bool
  deriving DecidableEq, Repr

def lookup (hash : Hash) (key : String) (world : World) : Except StoreError LookupTrace := do
  let trace ← DurableContext.lookup hash (FixedPage.methods hash) key world.primaryFile
  if trace.found then .ok ⟨key, true, .primary, trace.logicalPageIds.length, false⟩
  else do
    let (epoch, _, _) ← readSuper world.disk
    bindInteger epoch
    let found := ((world.visible epoch).lookup key).isSome
    .ok ⟨key, found, if found then .overflow else .miss, trace.logicalPageIds.length, true⟩

structure Audit where
  valid : Bool
  primaryValid : Bool
  visibleOverflowRows : Nat
  futureOverflowRows : Nat
  metadataOverflowRows : Nat
  duplicateWithPrimary : Bool
  committedEpoch : Nat
  deriving DecidableEq, Repr

def audit (hash : Hash) (world : World) : Except StoreError Audit := do
  let (epoch, info, _) ← readSuper world.disk
  let primary ← DurableContext.audit (FixedPage.methods hash) world.primaryFile
  bindInteger epoch
  let visibleKeys := (world.visible epoch).keys
  let duplicate ← visibleKeys.anyM fun key => do
    let trace ← DurableContext.lookup hash (FixedPage.methods hash) key world.primaryFile
    .ok trace.found
  let valid := primary.valid && !duplicate && decide (visibleKeys.length = overflowRows info)
  .ok ⟨valid, primary.valid, visibleKeys.length, (world.future epoch).keys.length,
    overflowRows info, duplicate, epoch⟩

/-- `initialize`, of a primary and a table that do not exist yet. -/
def initializeStore (initialCapacity : Nat) (config : Config) : Except StoreError World := do
  let disk ← FixedPage.initializeStore none initialCapacity config none
  .ok ⟨disk, ∅, true⟩

end DurableContext.CrossStoreHybrid
