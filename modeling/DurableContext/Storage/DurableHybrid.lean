import DurableContext.Lib.TableRows
import DurableContext.Storage.FixedPage

/-! The durable hybrid: a bounded cuckoo generation, the one it is draining and an exact overflow,
all of them rows of SQLite tables.

An insert is one transaction. Inside it a `Db` is what the transaction would commit; the metadata
row is written last, and its columns are 64-bit integers. -/

namespace DurableContext.DurableHybrid

structure OldPrimary where
  generation : Nat
  capacity : Nat
  deriving DecidableEq, Repr

/-- The row of `hybrid_meta`. -/
structure HybridMeta where
  currentGeneration : Nat
  currentCapacity : Nat
  currentRows : Nat
  old : Option OldPrimary
  oldRows : Int
  migrationCursor : Nat
  migrationLimit : Nat
  nextGeneration : Nat
  liveSize : Nat
  overflowRows : Nat
  config : Config
  deriving DecidableEq

/-- Generation, bucket and slot. -/
abbrev Location := Nat × Nat × Nat

structure Db where
  info : HybridMeta
  primarySlots : Table Location String
  primaryStash : Table (Nat × Nat) String
  overflow : Table String Unit

def INTEGER_LIMIT : Int := 2 ^ 63

def HybridMeta.integers (info : HybridMeta) : List Int :=
  [info.currentGeneration, info.currentCapacity, info.currentRows,
    info.old.elim 0 fun old => old.generation, info.old.elim 0 fun old => old.capacity,
    info.oldRows, info.migrationCursor, info.migrationLimit, info.nextGeneration, info.liveSize,
    info.overflowRows, info.config.bucketSize, info.config.maxKicks, info.config.stashCapacity,
    info.config.migrationSlotBudget]

def HybridMeta.stores (info : HybridMeta) : Bool :=
  info.integers.all fun value => decide (-INTEGER_LIMIT ≤ value ∧ value < INTEGER_LIMIT)

def tooLarge : StoreError := .overflowError "Python int too large to convert to SQLite INTEGER"

def writeMetaTx (db : Db) : Except StoreError Db :=
  if db.info.stores then .ok db else .error tooLarge

def checkConfig (initialCapacity : Nat) (config : Config) : Except StoreError Unit :=
  let bucketCount := initialCapacity / config.bucketSize
  if initialCapacity = 0 ∨ initialCapacity &&& (initialCapacity - 1) ≠ 0 then
    .error (.valueError "initial_capacity must be a positive power of two")
  else if config.bucketSize = 0 ∨ initialCapacity % config.bucketSize ≠ 0 then
    .error (.valueError "bucket_size must divide initial_capacity")
  else if bucketCount ≤ 1 ∨ bucketCount &&& (bucketCount - 1) ≠ 0 then
    .error (.valueError "initial bucket count must be a power of two greater than one")
  else if ¬ (0 < config.maxLoad ∧ config.maxLoad < 1) then
    .error (.valueError "max_load must be between zero and one")
  else if config.maxKicks = 0 ∨ config.migrationSlotBudget = 0 then
    .error (.valueError "invalid bounded-placement or migration configuration")
  else .ok ()

def initialMeta (initialCapacity : Nat) (config : Config) : HybridMeta where
  currentGeneration := 0
  currentCapacity := initialCapacity
  currentRows := 0
  old := none
  oldRows := 0
  migrationCursor := 0
  migrationLimit := 0
  nextGeneration := 1
  liveSize := 0
  overflowRows := 0
  config := config

/-- `initialize`, on a path where there is a store already or not. -/
def initializeStore (existing : Option Db) (initialCapacity : Nat) (config : Config) :
    Except StoreError Db := do
  checkConfig initialCapacity config
  if existing.isSome then .error (.runtimeError "durable hybrid store is already initialized")
  else writeMetaTx ⟨initialMeta initialCapacity config, ∅, ∅, ∅⟩

/-- The first of so many slots, from one on, that passes. -/
def firstSlot (passes : Nat → Bool) : Nat → Nat → Option Nat
  | 0, _ => none
  | left + 1, slot => if passes slot then some slot else firstSlot passes left (slot + 1)

/-- The first slot of a bucket without a row, and the number of slots looked at. -/
def firstEmptyTx (db : Db) (generation bucket : Nat) : Option Nat × Nat :=
  match firstSlot (fun slot => (db.primarySlots.lookup (generation, bucket, slot)).isNone)
      db.info.config.bucketSize 0 with
  | some slot => (some slot, slot + 1)
  | none => (none, db.info.config.bucketSize)

def stashEmptyTx (db : Db) (generation : Nat) : Option Nat :=
  firstSlot (fun slot => (db.primaryStash.lookup (generation, slot)).isNone)
    db.info.config.stashCapacity 0

def Db.putSlot (db : Db) (location : Location) (key : String) : Db :=
  { db with primarySlots := db.primarySlots.insert location key }

def Db.putStash (db : Db) (location : Nat × Nat) (key : String) : Db :=
  { db with primaryStash := db.primaryStash.insert location key }

/-- Where the evictions end: the key left without a slot, if any, the work, and what was
overwritten, last first. -/
structure Walk where
  db : Db
  homeless : Option String
  work : Nat
  rollbackLog : List (Location × String)

/-- The eviction loop of `_place_primary_tx`. -/
def kickTx (hash : Hash) (generation capacity : Nat) :
    Nat → Nat → Db → String → Nat → Nat → List (Location × String) → Except StoreError Walk
  | 0, _, db, current, _, work, log => .ok ⟨db, some current, work, log⟩
  | left + 1, kick, db, current, target, work, log =>
      match firstEmptyTx db generation target with
      | (some slot, scanned) =>
          .ok ⟨db.putSlot (generation, target, slot) current, none, work + scanned, log⟩
      | (none, scanned) =>
          let location := (generation, target, victimSlot hash current kick db.info.config.bucketSize)
          match db.primarySlots.lookup location with
          | none => .error (.assertionError "full bucket unexpectedly contained an empty slot")
          | some victim =>
              let log := (location, victim) :: log
              let work := work + scanned + 1
              let (victimFirst, victimSecond) := bucketPair hash db.info.config victim capacity
              if victimFirst = target then
                kickTx hash generation capacity left (kick + 1) (db.putSlot location current) victim
                  victimSecond work log
              else if victimSecond = target then
                kickTx hash generation capacity left (kick + 1) (db.putSlot location current) victim
                  victimFirst work log
              else .error (.assertionError "evicted key was not stored in a candidate bucket")

def rollback (log : List (Location × String)) (db : Db) : Db :=
  log.foldl (fun db previous => db.putSlot previous.1 previous.2) db

structure Placement where
  success : Bool
  stashed : Bool
  work : Nat
  sqlWrites : Nat
  deriving DecidableEq, Repr

def placePrimaryTx (hash : Hash) (db : Db) (generation capacity : Nat) (key : String) :
    Except StoreError (Placement × Db) :=
  let (first, second) := bucketPair hash db.info.config key capacity
  match firstEmptyTx db generation first with
  | (some slot, scanned) =>
      .ok (⟨true, false, scanned, 1⟩, db.putSlot (generation, first, slot) key)
  | (none, scanned) =>
    match firstEmptyTx db generation second with
    | (some slot, more) =>
        .ok (⟨true, false, scanned + more, 1⟩, db.putSlot (generation, second, slot) key)
    | (none, more) => do
        let target := if hash key .choiceKey &&& 1 = 0 then first else second
        let walk ← kickTx hash generation capacity db.info.config.maxKicks 0 db key target
          (scanned + more) []
        let evictions := walk.rollbackLog.length
        match walk.homeless with
        | none => .ok (⟨true, false, walk.work, evictions + 1⟩, walk.db)
        | some current =>
            match stashEmptyTx walk.db generation with
            | some slot =>
                .ok (⟨true, true, walk.work + 1, evictions + 1⟩,
                  walk.db.putStash (generation, slot) current)
            | none =>
                .ok (⟨false, false, walk.work + evictions, evictions + evictions⟩,
                  rollback walk.rollbackLog walk.db)

/-- The keys of a generation's stash in slot order. -/
def stashRows (db : Db) (generation : Nat) : List String :=
  ((Table.within Prod.fst db.primaryStash generation).entries.insertionSort
    fun row other => row.1.2 ≤ other.1.2).map Sigma.snd

/-- Whether the generation holds the key, the slots looked at and the pages probed. -/
def lookupGenerationTx (hash : Hash) (db : Db) (generation capacity : Nat) (key : String) :
    Bool × Nat × Nat :=
  let bucketSize := db.info.config.bucketSize
  let (first, second) := bucketPair hash db.info.config key capacity
  let search := fun bucket => firstSlot
    (fun slot => decide (db.primarySlots.lookup (generation, bucket, slot) = some key)) bucketSize 0
  match search first with
  | some slot => (true, slot + 1, 1)
  | none =>
    match search second with
    | some slot => (true, bucketSize + slot + 1, 2)
    | none =>
        let rows := stashRows db generation
        let pages := if rows.isEmpty then 2 else 3
        if key ∈ rows then (true, bucketSize + bucketSize + rows.idxOf key + 1, pages)
        else (false, bucketSize + bucketSize + rows.length, pages)

inductive LookupPath where
  | current | old | overflow | none
  deriving DecidableEq, Repr

/-- What a lookup found and what it read. The height of the overflow's B-tree, as `dbstat` tells it,
and the count of pages with it are left out. -/
structure LookupTrace where
  key : String
  found : Bool
  path : LookupPath
  generationsTouched : Nat
  primarySlotWork : Nat
  primaryPageProbes : Nat
  metadataRowsRead : Nat
  overflowChecked : Bool
  deriving DecidableEq, Repr

/-- The part of `_lookup_tx` for a key that is in no primary. -/
def lookupOverflowTx (db : Db) (key : String) (generations work pages : Nat) : LookupTrace :=
  if db.info.overflowRows = 0 then ⟨key, false, .none, generations, work, pages, 1, false⟩
  else if (db.overflow.lookup key).isSome then
    ⟨key, true, .overflow, generations, work, pages, 1, true⟩
  else ⟨key, false, .none, generations, work, pages, 1, true⟩

def lookupTx (hash : Hash) (db : Db) (key : String) : LookupTrace :=
  let (found, work, pages) := lookupGenerationTx hash db db.info.currentGeneration
    db.info.currentCapacity key
  if found then ⟨key, true, .current, 1, work, pages, 1, false⟩
  else
    match db.info.old with
    | none => lookupOverflowTx db key 1 work pages
    | some old =>
        let (oldFound, oldWork, oldPages) := lookupGenerationTx hash db old.generation old.capacity key
        if oldFound then ⟨key, true, .old, 2, work + oldWork, pages + oldPages, 1, false⟩
        else lookupOverflowTx db key 2 (work + oldWork) (pages + oldPages)

def lookup (hash : Hash) (db : Db) (key : String) : LookupTrace := lookupTx hash db key

/-- The metadata once the current generation has become the old one. -/
def HybridMeta.doubled (info : HybridMeta) : HybridMeta :=
  { info with
    old := some ⟨info.currentGeneration, info.currentCapacity⟩
    oldRows := info.currentRows
    currentGeneration := info.nextGeneration
    currentCapacity := info.currentCapacity * 2
    currentRows := 0
    migrationCursor := 0
    migrationLimit := info.currentCapacity + info.config.stashCapacity
    nextGeneration := info.nextGeneration + 1 }

def startMigration (info : HybridMeta) : Except StoreError HybridMeta :=
  if info.old.isSome then .error (.runtimeError "overlapping primary migration is not allowed")
  else .ok info.doubled

inductive SourceLocation where
  | slot (bucket slot : Nat)
  | stash (slot : Nat)
  deriving DecidableEq, Repr

def sourceKeyTx (db : Db) (old : OldPrimary) (position : Nat) : Option String × SourceLocation :=
  let bucketSize := db.info.config.bucketSize
  if position < old.capacity then
    (db.primarySlots.lookup (old.generation, position / bucketSize, position % bucketSize),
      .slot (position / bucketSize) (position % bucketSize))
  else
    (db.primaryStash.lookup (old.generation, position - old.capacity),
      .stash (position - old.capacity))

def deleteSourceTx (db : Db) (old : OldPrimary) : SourceLocation → Db
  | .slot bucket slot =>
      { db with primarySlots := db.primarySlots.erase (old.generation, bucket, slot) }
  | .stash slot => { db with primaryStash := db.primaryStash.erase (old.generation, slot) }

def insertOverflow (db : Db) (key : String) : Except StoreError Db :=
  if (db.overflow.lookup key).isSome then
    .error (.integrityError "UNIQUE constraint failed: overflow.key")
  else .ok { db with overflow := db.overflow.insert key () }

/-- Bounded placement in the current generation or, when that fails, a row of the overflow. -/
def routeTx (hash : Hash) (db : Db) (key : String) : Except StoreError (Placement × Db) := do
  let (placement, db) ← placePrimaryTx hash db db.info.currentGeneration db.info.currentCapacity key
  if placement.success then
    .ok (placement, { db with info := { db.info with currentRows := db.info.currentRows + 1 } })
  else
    let db ← insertOverflow db key
    .ok (placement, { db with info := { db.info with overflowRows := db.info.overflowRows + 1 } })

structure Migration where
  scanned : Nat
  moved : Nat
  toOverflow : Nat
  primaryWork : Nat
  primarySqlWrites : Nat
  completed : Bool
  deriving DecidableEq, Repr

def migrateLoop (hash : Hash) (old : OldPrimary) :
    Nat → Db → Migration → Except StoreError (Db × Migration)
  | 0, db, sofar => .ok (db, sofar)
  | left + 1, db, sofar =>
      if db.info.migrationCursor < db.info.migrationLimit then
        let position := db.info.migrationCursor
        let db := { db with info := { db.info with migrationCursor := position + 1 } }
        let sofar := { sofar with scanned := sofar.scanned + 1 }
        match sourceKeyTx db old position with
        | (none, _) => migrateLoop hash old left db sofar
        | (some key, location) => do
            let (placement, db) ← routeTx hash db key
            let db := deleteSourceTx db old location
            let db := { db with info := { db.info with oldRows := db.info.oldRows - 1 } }
            migrateLoop hash old left db
              { sofar with
                moved := sofar.moved + 1
                toOverflow := sofar.toOverflow + (if placement.success then 0 else 1)
                primaryWork := sofar.primaryWork + placement.work
                primarySqlWrites := sofar.primarySqlWrites + placement.sqlWrites + 1 }
      else .ok (db, sofar)

/-- The rows of a generation in both primary tables. -/
def generationRows (db : Db) (generation : Nat) : Nat × Nat :=
  ((Table.within Prod.fst db.primarySlots generation).entries.length,
    (Table.within Prod.fst db.primaryStash generation).entries.length)

def migrateStepTx (hash : Hash) (db : Db) : Except StoreError (Db × Migration) :=
  match db.info.old with
  | none => .ok (db, ⟨0, 0, 0, 0, 0, false⟩)
  | some old => do
      let (db, done) ← migrateLoop hash old db.info.config.migrationSlotBudget db ⟨0, 0, 0, 0, 0, false⟩
      if db.info.migrationLimit ≤ db.info.migrationCursor then
        if db.info.oldRows ≠ 0 then
          .error (.assertionError ("migration exhausted virtual source without moving all rows: " ++
            toString db.info.oldRows))
        else if generationRows db old.generation ≠ (0, 0) then
          .error (.assertionError (toString (generationRows db old.generation)))
        else
          let info := { db.info with
            old := none, oldRows := 0, migrationCursor := 0, migrationLimit := 0 }
          .ok ({ db with info := info }, { done with completed := true })
      else .ok (db, done)

inductive InsertPath where
  | primary | overflow
  deriving DecidableEq, Repr

structure InsertTrace where
  key : String
  path : InsertPath
  migrationStarted : Bool
  migrationCompleted : Bool
  migrationSourceSlotsScanned : Nat
  migrationRowsMoved : Nat
  migrationRowsToOverflow : Nat
  newKeyPrimaryWork : Nat
  migrationPrimaryWork : Nat
  primaryMutationWork : Nat
  primarySqlRowWrites : Nat
  overflowRowWrites : Nat
  metadataRowWrites : Nat
  duplicateCheckOverflow : Bool
  currentGeneration : Nat
  oldGeneration : Option Nat
  migrationCursor : Nat
  liveSize : Nat
  overflowRows : Nat
  deriving DecidableEq, Repr

def HybridMeta.startsMigration (info : HybridMeta) : Prop :=
  info.old = none ∧ info.config.maxLoad < ((info.currentRows + 1 : ℕ) : ℚ) / info.currentCapacity

instance (info : HybridMeta) : Decidable info.startsMigration := inferInstanceAs (Decidable (_ ∧ _))

def Db.countLive (db : Db) : Db :=
  { db with info := { db.info with liveSize := db.info.liveSize + 1 } }

def routeMeta (info : HybridMeta) : Except StoreError HybridMeta :=
  if info.startsMigration then startMigration info else .ok info

/-- The trace of an insert, which ends with this metadata. -/
def insertTrace (key : String) (existing : LookupTrace) (started : Bool) (placement : Placement)
    (migration : Migration) (info : HybridMeta) : InsertTrace where
  key := key
  path := if placement.success then .primary else .overflow
  migrationStarted := started
  migrationCompleted := migration.completed
  migrationSourceSlotsScanned := migration.scanned
  migrationRowsMoved := migration.moved
  migrationRowsToOverflow := migration.toOverflow
  newKeyPrimaryWork := placement.work
  migrationPrimaryWork := migration.primaryWork
  primaryMutationWork := placement.work + migration.primaryWork + migration.scanned
  primarySqlRowWrites := placement.sqlWrites + migration.primarySqlWrites
  overflowRowWrites := (if placement.success then 0 else 1) + migration.toOverflow
  metadataRowWrites := 1
  duplicateCheckOverflow := existing.overflowChecked
  currentGeneration := info.currentGeneration
  oldGeneration := info.old.map OldPrimary.generation
  migrationCursor := info.migrationCursor
  liveSize := info.liveSize
  overflowRows := info.overflowRows

def insertTx (hash : Hash) (db : Db) (key : String) : Except StoreError (InsertTrace × Db) := do
  let existing := lookupTx hash db key
  if existing.found then .error (.valueError ("duplicate key: " ++ key))
  else
    let started := decide db.info.startsMigration
    let info ← routeMeta db.info
    let (placement, db) ← routeTx hash { db with info := info } key
    let (db, migration) ← migrateStepTx hash db.countLive
    let db ← writeMetaTx db
    .ok (insertTrace key existing started placement migration db.info, db)

/-- The transaction commits as a whole or is rolled back. -/
def insert (hash : Hash) (key : String) : Op StoreError Db InsertTrace := fun db =>
  match insertTx hash db key with
  | .ok (trace, committed) => .ok trace committed
  | .error error => .error error db

structure Audit where
  liveSize : Nat
  uniqueKeys : Nat
  totalLocationRows : Nat
  duplicateKeys : List String
  primarySlots : Nat
  primaryStash : Nat
  overflowRows : Nat
  countsMatch : Bool
  generationsValid : Bool
  cursorValid : Bool
  valid : Bool
  deriving DecidableEq, Repr

def allowedGenerations (info : HybridMeta) : List Nat :=
  info.currentGeneration :: (info.old.map OldPrimary.generation).toList

def audit (db : Db) : Audit :=
  let rows := Table.values db.primarySlots ++ Table.values db.primaryStash ++ db.overflow.keys
  let unique := rows.dedup
  let duplicates := unique.filter fun key => decide (rows.count key ≠ 1)
  let slots := db.primarySlots.entries.length
  let stash := db.primaryStash.entries.length
  let actual := db.primarySlots.keys.map Prod.fst ++ db.primaryStash.keys.map Prod.fst
  let counts := decide (rows.length = db.info.liveSize ∧
    db.overflow.keys.length = db.info.overflowRows ∧
    ((slots + stash : ℕ) : ℤ) = db.info.currentRows + db.info.oldRows)
  let generations := actual.all fun generation => decide (generation ∈ allowedGenerations db.info)
  let cursor := match db.info.old with
    | some _ => decide (db.info.migrationCursor ≤ db.info.migrationLimit)
    | none => decide (db.info.migrationCursor = 0 ∧ db.info.migrationLimit = 0)
  ⟨db.info.liveSize, unique.length, rows.length, duplicates, slots, stash,
    db.overflow.keys.length, counts, generations, cursor,
    duplicates.isEmpty && counts && generations && cursor⟩

end DurableContext.DurableHybrid
