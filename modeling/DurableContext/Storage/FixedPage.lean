import DurableContext.Lib.BucketTable
import DurableContext.Storage.Page
import Mathlib.Data.List.Sort

/-! The fixed-page primary: transactions over data pages, and the insert, lookup and audit built
from them.

`Methods` collects what the stores that extend the fixed-page primary override; the hash is a
parameter throughout. -/

namespace DurableContext

/-- Reads a page by its id, at an epoch, expecting so many slots. -/
abbrev Reader := Nat → Nat → Nat → Except StoreError Slots

/-- A keyed hash of a key. -/
abbrev Hash := String → HashKey → Nat

/-- `_Txn`. -/
structure Txn (E : Type) where
  epoch : Nat
  info : Meta E
  cache : Dict Slots
  changes : Dict Slots

namespace Txn

variable {E : Type}

def start (epoch : Nat) (info : Meta E) : Txn E := ⟨epoch, info, ∅, ∅⟩

def readPage (read : Reader) (tx : Txn E) (pageId slots : Nat) :
    Except StoreError (Slots × Txn E) :=
  match tx.changes.lookup pageId with
  | some keys => .ok (keys, tx)
  | none =>
    match tx.cache.lookup pageId with
    | some keys => .ok (keys, tx)
    | none => do
      let keys ← read pageId tx.epoch slots
      .ok (keys, { tx with cache := tx.cache.insert pageId keys })

def writePage (tx : Txn E) (pageId : Nat) (keys : Slots) : Txn E :=
  { tx with changes := tx.changes.insert pageId keys, cache := tx.cache.insert pageId keys }

end Txn

variable {E : Type}

def generationPages (capacity bucketSize : Nat) : Nat := capacity / bucketSize + 1

def descriptor (info : Meta E) (generation : Nat) : Except StoreError (Nat × Nat) :=
  if generation = info.currentGeneration then .ok (info.currentBasePage, info.currentCapacity)
  else
    match info.old with
    | some old =>
        if generation = old.generation then .ok (old.basePage, old.capacity)
        else .error (.keyError generation)
    | none => .error (.keyError generation)

def bucketPair (hash : Hash) (config : Config) (key : String) (capacity : Nat) : Nat × Nat :=
  let mask := capacity / config.bucketSize - 1
  let first := if config.forceSamePair then 0 else hash key .hashKey1 &&& mask
  let second := if config.forceSamePair then 1 else hash key .hashKey2 &&& mask
  if second = first then (first, (second + 1) &&& mask) else (first, second)

def bucketPageId (info : Meta E) (generation capacity bucket : Nat) : Except StoreError Nat := do
  let (base, actualCapacity) ← descriptor info generation
  if actualCapacity ≠ capacity then .error (.assertionError "capacity descriptor drift")
  else .ok (base + bucket)

def stashPageId (info : Meta E) (generation capacity : Nat) : Except StoreError Nat := do
  let (base, actualCapacity) ← descriptor info generation
  if actualCapacity ≠ capacity then .error (.assertionError "capacity descriptor drift")
  else .ok (base + capacity / info.config.bucketSize)

/-- Whether the generation holds the key, and the pages looked at. -/
def lookupGenerationTx (hash : Hash) (read : Reader) (tx : Txn E) (generation capacity : Nat)
    (key : String) : Except StoreError (Bool × List Nat × Txn E) := do
  let (first, second) := bucketPair hash tx.info.config key capacity
  let firstPage ← bucketPageId tx.info generation capacity first
  let (keys, tx) ← tx.readPage read firstPage tx.info.config.bucketSize
  if some key ∈ keys then .ok (true, [firstPage], tx)
  else
    let secondPage ← bucketPageId tx.info generation capacity second
    let (keys, tx) ← tx.readPage read secondPage tx.info.config.bucketSize
    if some key ∈ keys then .ok (true, [firstPage, secondPage], tx)
    else
      let stashPage ← stashPageId tx.info generation capacity
      let (keys, tx) ← tx.readPage read stashPage tx.info.config.stashCapacity
      .ok (decide (some key ∈ keys), [firstPage, secondPage, stashPage], tx)

def victimSlot (hash : Hash) (key : String) (kick bucketSize : Nat) : Nat :=
  hash (key ++ "|" ++ toString kick) .victimKey % bucketSize

/-- Puts the key into the first empty slot of a page; also the number of slots looked at. -/
def fillPage (read : Reader) (tx : Txn E) (pageId slots : Nat) (key : String) :
    Except StoreError (Bool × Nat × Txn E) := do
  let (keys, tx) ← tx.readPage read pageId slots
  match BucketTable.firstEmpty keys with
  | some slot => .ok (true, slot + 1, tx.writePage pageId (keys.set slot (some key)))
  | none => .ok (false, slots, tx)

/-- The eviction loop of `_place_primary_tx`: the key left without a slot, if any, and the work. -/
def kickTx (hash : Hash) (read : Reader) (generation capacity : Nat) :
    Nat → Nat → Txn E → String → Nat → Nat → Except StoreError (Option String × Nat × Txn E)
  | 0, _, tx, current, _, work => .ok (some current, work, tx)
  | left + 1, kick, tx, current, target, work => do
      let pageId ← bucketPageId tx.info generation capacity target
      let (keys, tx) ← tx.readPage read pageId tx.info.config.bucketSize
      let slot := victimSlot hash current kick tx.info.config.bucketSize
      let tx := tx.writePage pageId (keys.set slot (some current))
      match keys[slot]?.join with
      | none => .ok (none, work + 1, tx)
      | some victim =>
          let work := work + tx.info.config.bucketSize + 1
          let (victimFirst, victimSecond) := bucketPair hash tx.info.config victim capacity
          if victimFirst = target then
            kickTx hash read generation capacity left (kick + 1) tx victim victimSecond work
          else if victimSecond = target then
            kickTx hash read generation capacity left (kick + 1) tx victim victimFirst work
          else .error (.assertionError "evicted key outside candidate buckets")

/-- Whether the key was placed, and the slot work. A refusal gives the changes back. -/
def placePrimaryTx (hash : Hash) (read : Reader) (tx : Txn E) (generation capacity : Nat)
    (key : String) : Except StoreError (Bool × Nat × Txn E) := do
  let before := tx.changes
  let (first, second) := bucketPair hash tx.info.config key capacity
  let firstPage ← bucketPageId tx.info generation capacity first
  let (placed, firstWork, tx) ← fillPage read tx firstPage tx.info.config.bucketSize key
  if placed then .ok (true, firstWork, tx)
  else
    let secondPage ← bucketPageId tx.info generation capacity second
    let (placed, secondWork, tx) ← fillPage read tx secondPage tx.info.config.bucketSize key
    if placed then .ok (true, firstWork + secondWork, tx)
    else
      let target := if hash key .choiceKey &&& 1 = 0 then first else second
      let (homeless, work, tx) ← kickTx hash read generation capacity tx.info.config.maxKicks 0 tx
        key target (firstWork + secondWork)
      match homeless with
      | none => .ok (true, work, tx)
      | some current =>
          let stashPage ← stashPageId tx.info generation capacity
          let (placed, stashWork, tx) ←
            fillPage read tx stashPage tx.info.config.stashCapacity current
          if placed then .ok (true, work + stashWork, tx)
          else .ok (false, work + stashWork, { tx with changes := before })

/-- Empties one slot of a page and returns what it held. -/
def takeSlot (read : Reader) (tx : Txn E) (pageId slots slot : Nat) :
    Except StoreError (Option String × Txn E) := do
  let (keys, tx) ← tx.readPage read pageId slots
  match keys[slot]?.join with
  | some key => .ok (some key, tx.writePage pageId (keys.set slot none))
  | none => .ok (none, tx)

def deleteVirtualSlotTx (read : Reader) (tx : Txn E) (generation capacity cursor : Nat) :
    Except StoreError (Option String × Txn E) := do
  let bucketSize := tx.info.config.bucketSize
  let stashCapacity := tx.info.config.stashCapacity
  if cursor < capacity then
    let pageId ← bucketPageId tx.info generation capacity (cursor / bucketSize)
    takeSlot read tx pageId bucketSize (cursor % bucketSize)
  else
    let stashSlot := cursor - capacity
    if stashCapacity ≤ stashSlot then .error (.indexError cursor)
    else
      let pageId ← stashPageId tx.info generation capacity
      takeSlot read tx pageId stashCapacity stashSlot

/-- The metadata once the current generation has become the old one. -/
def Meta.startMigration (info : Meta E) : Meta E :=
  { info with
    old := some ⟨info.currentGeneration, info.currentCapacity, info.currentBasePage⟩
    oldRows := info.currentRows
    currentGeneration := info.nextGeneration
    currentCapacity := info.currentCapacity * 2
    currentRows := 0
    currentBasePage := info.nextPageId
    migrationCursor := 0
    migrationLimit := info.currentCapacity + info.config.stashCapacity
    nextGeneration := info.nextGeneration + 1
    nextPageId :=
      info.nextPageId + generationPages (info.currentCapacity * 2) info.config.bucketSize }

structure Migrated where
  scanned : Nat
  moved : Nat
  work : Nat
  completed : Bool
  deriving DecidableEq, Repr

def migrateLoop (hash : Hash) (read : Reader) (old : OldGeneration) :
    Nat → Txn E → Migrated → Except StoreError (Txn E × Migrated)
  | 0, tx, sofar => .ok (tx, sofar)
  | left + 1, tx, sofar =>
      if tx.info.migrationCursor < tx.info.migrationLimit then do
        let cursor := tx.info.migrationCursor
        let (key, tx) ← deleteVirtualSlotTx read tx old.generation old.capacity cursor
        let tx := { tx with info := { tx.info with migrationCursor := cursor + 1 } }
        let sofar := { sofar with scanned := sofar.scanned + 1 }
        match key with
        | none => migrateLoop hash read old left tx sofar
        | some key => do
            let (success, work, tx) ← placePrimaryTx hash read tx tx.info.currentGeneration
              tx.info.currentCapacity key
            if success then
              let info := { tx.info with
                oldRows := tx.info.oldRows - 1, currentRows := tx.info.currentRows + 1 }
              migrateLoop hash read old left { tx with info := info }
                { sofar with moved := sofar.moved + 1, work := sofar.work + work }
            else
              .error (.primaryAdmissionExhausted "migration destination primary exhausted")
      else .ok (tx, sofar)

def migrateTx (hash : Hash) (read : Reader) (tx : Txn E) : Except StoreError (Txn E × Migrated) :=
  match tx.info.old with
  | none => .ok (tx, ⟨0, 0, 0, false⟩)
  | some old => do
      let (tx, done) ←
        migrateLoop hash read old tx.info.config.migrationSlotBudget tx ⟨0, 0, 0, false⟩
      if tx.info.migrationLimit ≤ tx.info.migrationCursor then
        if tx.info.oldRows ≠ 0 then
          .error (.assertionError
            ("migration completed with " ++ toString tx.info.oldRows ++ " old rows"))
        else
          let info := { tx.info with old := none, migrationCursor := 0, migrationLimit := 0 }
          .ok ({ tx with info := info }, { done with completed := true })
      else .ok (tx, done)

/-- What `_prepare_insert` says about the insert it prepared. -/
structure Prepared where
  duplicate : Bool
  migrationStarted : Bool
  migrationCompleted : Bool
  scanned : Nat
  moved : Nat
  work : Nat
  deriving DecidableEq, Repr

def Prepared.ofDuplicate : Prepared := ⟨true, false, false, 0, 0, 0⟩

/-- The methods a store over fixed pages may override. `σ` is all they read and write. -/
structure Methods (σ E : Type) where
  readSuper : σ → Except StoreError (Nat × Meta E × Bool)
  readLogicalPage : σ → Reader
  writeLogicalPage : Nat → Nat → Nat → Slots → Op StoreError σ Unit
  writeSuper : Nat → Nat → Meta E → Op StoreError σ Unit
  startMigrationTx : Txn E → Op StoreError σ (Txn E)
  migrateTx : Txn E → Op StoreError σ (Txn E × Migrated)

section Shared

variable {σ : Type} (hash : Hash) (store : Methods σ E)

open Program

def lookupCurrentTx (tx : Txn E) (key : String) : Op StoreError σ (Bool × List Nat × Txn E) := do
  let world ← get
  ofResult (lookupGenerationTx hash (store.readLogicalPage world) tx tx.info.currentGeneration
    tx.info.currentCapacity key)

def lookupOldTx (tx : Txn E) (key : String) : Op StoreError σ (Bool × List Nat × Txn E) :=
  match tx.info.old with
  | none => pure (false, [], tx)
  | some old => do
      let world ← get
      ofResult (lookupGenerationTx hash (store.readLogicalPage world) tx old.generation
        old.capacity key)

def threshold (info : Meta E) : Nat := ⌊(info.currentCapacity : ℚ) * info.config.maxLoad⌋₊

/-- The threshold check of `_prepare_insert`; the flag says whether a migration started. -/
def makeRoomTx (tx : Txn E) : Op StoreError σ (Txn E × Bool) :=
  if threshold tx.info < tx.info.currentRows + 1 then
    match tx.info.old with
    | none => do
        let tx ← store.startMigrationTx tx
        pure (tx, true)
    | some _ => throw (.primaryAdmissionExhausted
        "migration backlog reached current generation threshold")
  else pure (tx, false)

/-- The part of `_prepare_insert` for a key that is not stored yet. -/
def admitTx (tx : Txn E) (key : String) : Op StoreError σ (Txn E × Prepared) := do
  let (tx, started) ← makeRoomTx store tx
  let world ← get
  let (success, work, tx) ← ofResult (placePrimaryTx hash (store.readLogicalPage world) tx
    tx.info.currentGeneration tx.info.currentCapacity key)
  if success then
    let info := { tx.info with
      currentRows := tx.info.currentRows + 1, liveSize := tx.info.liveSize + 1 }
    let (tx, done) ← store.migrateTx { tx with info := info }
    pure (tx, ⟨false, started, done.completed, done.scanned, done.moved, work + done.work⟩)
  else throw (.primaryAdmissionExhausted "new key primary placement exhausted")

def prepareInsert (committedEpoch : Nat) (info : Meta E) (key : String) :
    Op StoreError σ (Txn E × Prepared) := do
  if 256 < key.utf8ByteSize then
    throw (.valueError "fixed-page keys are capped at 256 UTF-8 bytes")
  else
    let (found, _, tx) ← lookupCurrentTx hash store (Txn.start committedEpoch info) key
    if found then pure (tx, .ofDuplicate)
    else
      let (found, _, tx) ← lookupOldTx hash store tx key
      if found then pure (tx, .ofDuplicate) else admitTx hash store tx key

/-- The part of `FixedPageInsertTrace` that does not count input and output. -/
structure InsertTrace where
  duplicate : Bool
  committedEpoch : Nat
  migrationStarted : Bool
  migrationCompleted : Bool
  migrationSourceSlotsScanned : Nat
  migrationRowsMoved : Nat
  placementWork : Nat
  logicalPagesWritten : Nat
  liveSize : Nat
  currentCapacity : Nat
  migrationActive : Bool
  migrationCursor : Nat
  deriving DecidableEq, Repr

/-- `sorted(tx.changes)`, each page with what is to be written to it. -/
def Txn.sortedChanges (tx : Txn E) : List (Nat × Slots) :=
  (tx.changes.keys.insertionSort (· ≤ ·)).filterMap fun pageId =>
    (tx.changes.lookup pageId).map fun keys => (pageId, keys)

/-- A call of the failpoint callback, which raises at the labels it is set to raise at. -/
def reach (failpoint : String → Bool) (label : String) : Op StoreError σ Unit :=
  if failpoint label then throw (.interrupted label) else pure ()

def writePages (committedEpoch newEpoch : Nat) (changes : List (Nat × Slots)) :
    Op StoreError σ Unit :=
  changes.forM fun (pageId, keys) => store.writeLogicalPage pageId committedEpoch newEpoch keys

def insert (failpoint : String → Bool) (key : String) : Op StoreError σ InsertTrace := do
  let world ← get
  let (committedEpoch, info, _) ← ofResult (store.readSuper world)
  let (tx, state) ← prepareInsert hash store committedEpoch info key
  if state.duplicate then
    pure ⟨true, committedEpoch, false, false, 0, 0, 0, 0, info.liveSize, info.currentCapacity,
      info.old.isSome, info.migrationCursor⟩
  else
    writePages store committedEpoch (committedEpoch + 1) tx.sortedChanges
    reach failpoint "pages_written"
    reach failpoint "data_synced"
    store.writeSuper committedEpoch (committedEpoch + 1) tx.info
    reach failpoint "committed"
    pure ⟨false, committedEpoch + 1, state.migrationStarted, state.migrationCompleted,
      state.scanned, state.moved, state.work, tx.changes.keys.length, tx.info.liveSize,
      tx.info.currentCapacity, tx.info.old.isSome, tx.info.migrationCursor⟩

inductive LookupPath where
  | current | old | missing
  deriving DecidableEq, Repr

structure LookupTrace where
  found : Bool
  path : LookupPath
  generationsTouched : Nat
  logicalPageIds : List Nat
  deriving DecidableEq, Repr

def lookup (key : String) (world : σ) : Except StoreError LookupTrace := do
  let (epoch, info, _) ← store.readSuper world
  let read := store.readLogicalPage world
  let (found, pages, tx) ← lookupGenerationTx hash read (Txn.start epoch info)
    info.currentGeneration info.currentCapacity key
  if found then .ok ⟨true, .current, 1, pages⟩
  else
    match info.old with
    | none => .ok ⟨false, .missing, 1, pages⟩
    | some old => do
        let (found, more, _) ← lookupGenerationTx hash read tx old.generation old.capacity key
        .ok ⟨found, if found then .old else .missing, 2, pages ++ more⟩

/-- The keys collected so far and those of one more page. -/
def collectPage (read : Reader) (pageId slots : Nat) (collected : List String × Txn E) :
    Except StoreError (List String × Txn E) := do
  let (page, tx) ← collected.2.readPage read pageId slots
  .ok (collected.1 ++ page.reduceOption, tx)

/-- The keys of one generation, bucket by bucket and then the stash. -/
def generationKeys (read : Reader) (tx : Txn E) (generation capacity : Nat) :
    Except StoreError (List String × Txn E) := do
  let bucketSize := tx.info.config.bucketSize
  let (base, _) ← descriptor tx.info generation
  let collected ← (List.range (capacity / bucketSize)).foldlM
    (fun collected bucket => collectPage read (base + bucket) bucketSize collected) ([], tx)
  collectPage read (base + capacity / bucketSize) collected.2.info.config.stashCapacity collected

/-- `logical_snapshot`, its keys not sorted. -/
structure Snapshot (E : Type) where
  epoch : Nat
  info : Meta E
  currentKeys : List String
  oldKeys : List String

def logicalSnapshot (world : σ) : Except StoreError (Snapshot E) := do
  let (epoch, info, _) ← store.readSuper world
  let read := store.readLogicalPage world
  let (current, tx) ← generationKeys read (Txn.start epoch info) info.currentGeneration
    info.currentCapacity
  match info.old with
  | none => .ok ⟨epoch, info, current, []⟩
  | some old => do
      let (oldKeys, _) ← generationKeys read tx old.generation old.capacity
      .ok ⟨epoch, info, current, oldKeys⟩

structure Audit where
  valid : Bool
  duplicates : Nat
  currentCount : Nat
  oldCount : Nat
  liveCount : Nat
  deriving DecidableEq, Repr

def audit (world : σ) : Except StoreError Audit := do
  let snapshot ← logicalSnapshot store world
  let allKeys := snapshot.currentKeys ++ snapshot.oldKeys
  let duplicates := allKeys.length - allKeys.dedup.length
  let valid := decide (duplicates = 0 ∧ snapshot.currentKeys.length = snapshot.info.currentRows ∧
    (snapshot.oldKeys.length : Int) = snapshot.info.oldRows ∧
    allKeys.length = snapshot.info.liveSize)
  .ok ⟨valid, duplicates, snapshot.currentKeys.length, snapshot.oldKeys.length, allKeys.length⟩

end Shared

/-! The store itself, over one file. -/

namespace FixedPage

open Program

/-- The primary file and what has been done to it so far. -/
structure File (E : Type) where
  disk : Disk (Block E)
  log : List (Effect (Block E))

def emit (effect : Effect (Block E)) : Op StoreError (File E) Unit :=
  modify fun file => ⟨file.disk.apply effect, file.log ++ [effect]⟩

def physicalPageIndex (pageId copySlot : Nat) : Nat := 2 + 2 * pageId + copySlot

def readLogicalPage (disk : Disk (Block E)) : Reader := fun pageId committedEpoch slots =>
  let copies := copiesAt (Block.asPage slots) disk (physicalPageIndex pageId 0)
  match DualCopy.select committedEpoch copies with
  | some (_, _, keys) => .ok keys
  | none => .ok (List.replicate slots none)

def writeLogicalPage (pageId committedEpoch newEpoch : Nat) (keys : Slots) :
    Op StoreError (File E) Unit := do
  let file ← get
  let targetSlot := DualCopy.writeTarget committedEpoch
    (copiesAt Block.asAnyPage file.disk (physicalPageIndex pageId 0))
  let block ← ofResult (packPage newEpoch keys)
  emit (.pwrite (physicalPageIndex pageId targetSlot.toNat) block)

variable [SuperFields E]

def writeSuper (_committedEpoch newEpoch : Nat) (info : Meta E) : Op StoreError (File E) Unit := do
  let file ← get
  let (_, _, activeSlot) ← ofResult (readSuper file.disk)
  let block ← ofResult (packSuper newEpoch info)
  emit (.pwrite (!activeSlot).toNat block)

def startMigrationTx (tx : Txn E) : Op StoreError (File E) (Txn E) := do
  let info := tx.info.startMigration
  emit (.ftruncate (2 + 2 * info.nextPageId))
  pure { tx with info := info }

def methods (hash : Hash) : Methods (File E) E where
  readSuper := fun file => readSuper file.disk
  readLogicalPage := fun file => readLogicalPage file.disk
  writeLogicalPage := writeLogicalPage
  writeSuper := writeSuper
  startMigrationTx := startMigrationTx
  migrateTx := fun tx => do
    let file ← get
    ofResult (migrateTx hash (readLogicalPage file.disk) tx)

/-- The checks `initialize` makes before it creates a file. -/
def checkConfig (initialCapacity : Nat) (config : Config) : Except StoreError Unit :=
  let bucketCount := initialCapacity / config.bucketSize
  if initialCapacity = 0 ∨ initialCapacity &&& (initialCapacity - 1) ≠ 0 then
    .error (.valueError "initial_capacity must be a positive power of two")
  else if config.bucketSize = 0 ∨ initialCapacity % config.bucketSize ≠ 0 then
    .error (.valueError "bucket_size must divide initial_capacity")
  else if bucketCount ≤ 1 ∨ bucketCount &&& (bucketCount - 1) ≠ 0 then
    .error (.valueError "bucket count must be a power of two greater than one")
  else if ¬ (0 < config.maxLoad ∧ config.maxLoad < 1) then
    .error (.valueError "max_load must be between zero and one")
  else if config.maxKicks = 0 ∨ config.stashCapacity = 0 ∨ config.migrationSlotBudget = 0 then
    .error (.valueError "invalid bounded placement configuration")
  else .ok ()

def initialMeta (initialCapacity : Nat) (config : Config) (ext : E) : Meta E where
  currentGeneration := 0
  currentCapacity := initialCapacity
  currentRows := 0
  currentBasePage := 0
  old := none
  oldRows := 0
  migrationCursor := 0
  migrationLimit := 0
  nextGeneration := 1
  nextPageId := generationPages initialCapacity config.bucketSize
  liveSize := 0
  config := config
  ext := ext

/-- The file that `initialize` leaves with this metadata. -/
def createdDisk (info : Meta E) : Disk (Block E) :=
  (Disk.empty.ftruncate (2 + 2 * info.nextPageId)).pwrite 0 (.superblock 1 info)

/-- `initialize`, on a path where there is a file already or not. -/
def initializeStore (existing : Option (Disk (Block E))) (initialCapacity : Nat) (config : Config)
    (ext : E) : Except StoreError (Disk (Block E)) := do
  if existing.isSome then .error (.runtimeError "fixed-page primary already exists")
  else
    checkConfig initialCapacity config
    let info := initialMeta initialCapacity config ext
    let block ← packSuper 1 info
    .ok ((Disk.empty.ftruncate (2 + 2 * info.nextPageId)).pwrite 0 block)

structure RecoverTrace where
  logicalWork : Nat
  committedEpoch : Nat
  auditValid : Bool
  deriving DecidableEq, Repr

/-- `recover`: it only reads. -/
def recover (hash : Hash) (file : File E) : Except StoreError RecoverTrace := do
  let (epoch, _, _) ← readSuper file.disk
  let result ← audit (methods hash) file
  .ok ⟨0, epoch, result.valid⟩

end FixedPage
end DurableContext
