import DurableContext.Lib.OpenAddressing
import DurableContext.Lib.Program
import DurableContext.Storage.Page

/-! The two-generation hash index with a bounded migration scan. -/

namespace DurableContext.IncrementalHash

open OpenAddressing Program

/-- `_GenerationTable`. -/
structure GenerationTable where
  capacity : Nat
  slots : List (Option String)
  size : Nat

def GenerationTable.create (capacity : Nat) : GenerationTable :=
  ⟨capacity, List.replicate capacity none, 0⟩

def probePositions (hash : String → Nat) (capacity : Nat) (key : String) : List Nat :=
  let start := hash key &&& (capacity - 1)
  (List.range capacity).map fun offset => (start + offset) &&& (capacity - 1)

/-- The number of pages that some positions lie on. -/
def pagesOf (slotsPerPage : Nat) (positions : List Nat) : Nat :=
  (positions.map (· / slotsPerPage)).dedup.length

structure Placed where
  slotProbes : Nat
  pageProbes : Nat
  inserted : Bool
  deriving DecidableEq, Repr

namespace GenerationTable

variable (hash : String → Nat) (slotsPerPage : Nat)

def place (table : GenerationTable) (key : String) :
    Except StoreError (Placed × GenerationTable) :=
  let (seen, ended) := walk table.slots key (probePositions hash table.capacity key)
  match ended with
  | .free position => .ok (⟨seen.length, pagesOf slotsPerPage seen, true⟩,
      { table with slots := table.slots.set position (some key), size := table.size + 1 })
  | .found => .ok (⟨seen.length, pagesOf slotsPerPage seen, false⟩, table)
  | .full => .error (.runtimeError "hash generation is full")

/-- Whether the key is there, with the slots and the pages looked at. -/
def lookup (table : GenerationTable) (key : String) : Bool × Nat × Nat :=
  let (seen, ended) := walk table.slots key (probePositions hash table.capacity key)
  (decide (ended = .found), seen.length, pagesOf slotsPerPage seen)

def loadFactor (table : GenerationTable) : ℚ := (table.size : ℚ) / table.capacity

end GenerationTable

structure IncrementalHashIndex where
  slotsPerPage : Nat
  maxLoad : ℚ
  migrationSlotBudget : Nat
  current : GenerationTable
  old : Option GenerationTable
  migrationCursor : Nat
  migrationId : Nat
  migrationSourceRows : Nat
  migrationCopiedTotal : Nat
  liveSize : Nat

inductive FoundIn where
  | current | old | none
  deriving DecidableEq, Repr

structure IncrementalLookupTrace where
  key : String
  found : Bool
  foundIn : FoundIn
  generationsTouched : Nat
  slotProbes : Nat
  pageProbes : Nat
  deriving DecidableEq, Repr

structure IncrementalInsertTrace where
  insertedKey : String
  liveSizeBefore : Nat
  liveSizeAfter : Nat
  currentCapacityBefore : Nat
  currentCapacityAfter : Nat
  migrationId : Option Nat
  migrationStarted : Bool
  migrationCompleted : Bool
  migrationSourceCapacity : Nat
  migrationSourceRows : Nat
  migrationSourceSlotsScanned : Nat
  migrationSourcePagesScanned : Nat
  migrationRowsCopied : Nat
  migrationDestinationSlotProbes : Nat
  migrationDestinationPageProbes : Nat
  insertSlotProbes : Nat
  insertPageProbes : Nat
  mutationSlotWork : Nat
  allocatedCapacitySlots : Nat
  capacityAmplificationVsCurrent : ℚ

/-- `__init__` of the index. -/
def initIndex (initialCapacity slotsPerPage : Nat) (maxLoad : ℚ) (migrationSlotBudget : Nat) :
    Except StoreError IncrementalHashIndex :=
  if initialCapacity = 0 ∨ initialCapacity &&& (initialCapacity - 1) ≠ 0 then
    .error (.valueError "initial_capacity must be a positive power of two")
  else if slotsPerPage = 0 then .error (.valueError "slots_per_page must be positive")
  else if ¬ (0 < maxLoad ∧ maxLoad < 1) then
    .error (.valueError "max_load must be between zero and one")
  else if migrationSlotBudget = 0 then
    .error (.valueError "migration_slot_budget must be positive")
  else .ok ⟨slotsPerPage, maxLoad, migrationSlotBudget, .create initialCapacity, none, 0, 0, 0, 0, 0⟩

namespace IncrementalHashIndex

def allocatedCapacitySlots (index : IncrementalHashIndex) : Nat :=
  index.current.capacity + (index.old.elim 0 GenerationTable.capacity)

/-- What the floating-point comparisons allow above `max_load`. -/
def tolerance : ℚ := 1 / 10 ^ 12

def overloaded (index : IncrementalHashIndex) : Prop :=
  index.maxLoad + tolerance < index.current.loadFactor

instance (index : IncrementalHashIndex) : Decidable index.overloaded :=
  inferInstanceAs (Decidable (_ < _))

def tuple (left right : Nat) : String :=
  "(" ++ toString left ++ ", " ++ toString right ++ ")"

variable (hash : String → Nat)

def lookup (index : IncrementalHashIndex) (key : String) : IncrementalLookupTrace :=
  let (found, slots, pages) := index.current.lookup hash index.slotsPerPage key
  if found then ⟨key, true, .current, 1, slots, pages⟩
  else
    match index.old with
    | none => ⟨key, false, .none, 1, slots, pages⟩
    | some old =>
        let (oldFound, oldSlots, oldPages) := old.lookup hash index.slotsPerPage key
        ⟨key, oldFound, if oldFound then .old else .none, 2, slots + oldSlots, pages + oldPages⟩

def startMigration : Op StoreError IncrementalHashIndex Unit := do
  let index ← get
  if index.old.isSome then throw (.runtimeError "overlapping migration is not allowed")
  else set { index with
    old := some index.current
    current := .create (index.current.capacity * 2)
    migrationCursor := 0
    migrationId := index.migrationId + 1
    migrationSourceRows := index.current.size
    migrationCopiedTotal := 0 }

def placeCurrent (key : String) : Op StoreError IncrementalHashIndex Placed := do
  let index ← get
  let (placed, table) ← ofResult (index.current.place hash index.slotsPerPage key)
  set { index with current := table }
  pure placed

structure Scan where
  scanned : Nat
  pages : List Nat
  copied : Nat
  slotProbes : Nat
  pageProbes : Nat

def Scan.see (scan : Scan) (page : Nat) : Scan :=
  { scan with scanned := scan.scanned + 1, pages := page :: scan.pages }

def Scan.add (scan : Scan) (placed : Placed) : Scan :=
  { scan with
    copied := scan.copied + placed.inserted.toNat
    slotProbes := scan.slotProbes + placed.slotProbes
    pageProbes := scan.pageProbes + placed.pageProbes }

/-- The loop of `_migrate_step`, with what is left of the budget. -/
def migrateLoop (old : GenerationTable) : Nat → Scan → Op StoreError IncrementalHashIndex Scan
  | 0, scan => pure scan
  | left + 1, scan => do
      let index ← get
      let position := index.migrationCursor
      if position < old.capacity then
        set { index with migrationCursor := position + 1 }
        match old.slots[position]?.join with
        | none => migrateLoop old left (scan.see (position / index.slotsPerPage))
        | some key =>
            let placed ← placeCurrent hash key
            modify fun index => { index with
              migrationCopiedTotal := index.migrationCopiedTotal + placed.inserted.toNat }
            migrateLoop old left ((scan.see (position / index.slotsPerPage)).add placed)
      else pure scan

structure MigrateStep where
  scanned : Nat
  sourcePages : Nat
  copied : Nat
  destinationSlotProbes : Nat
  destinationPageProbes : Nat
  completed : Bool
  sourceCapacity : Nat
  sourceRows : Nat

/-- The checks made when the cursor is at the end of the source, and the switch. -/
def completeMigration : Op StoreError IncrementalHashIndex Unit := do
  let index ← get
  if index.migrationCopiedTotal ≠ index.migrationSourceRows then
    throw (.assertionError (tuple index.migrationCopiedTotal index.migrationSourceRows))
  else if index.current.size ≠ index.liveSize then
    throw (.assertionError (tuple index.current.size index.liveSize))
  else set { index with
    old := none, migrationCursor := 0, migrationSourceRows := 0, migrationCopiedTotal := 0 }

def migrateStep : Op StoreError IncrementalHashIndex MigrateStep := do
  let index ← get
  match index.old with
  | none => pure ⟨0, 0, 0, 0, 0, false, 0, 0⟩
  | some old =>
      let scan ← migrateLoop hash old index.migrationSlotBudget ⟨0, [], 0, 0, 0⟩
      let after ← get
      if after.overloaded then
        throw (.runtimeError
          "migration budget failed: target generation exceeded max_load before completion")
      else
        let completed := decide (old.capacity ≤ after.migrationCursor)
        if completed then completeMigration
        pure ⟨scan.scanned, scan.pages.dedup.length, scan.copied, scan.slotProbes, scan.pageProbes,
          completed, old.capacity, index.migrationSourceRows⟩

def checkLoad : Op StoreError IncrementalHashIndex Unit := do
  let index ← get
  if index.old.isSome ∧ index.overloaded then
    throw (.runtimeError "target generation exceeded max_load during migration")
  else if index.old.isNone ∧ index.current.size ≠ index.liveSize then
    throw (.assertionError (tuple index.current.size index.liveSize))
  else pure ()

/-- A migration starts when one more key would overload the only generation. -/
def crowded (index : IncrementalHashIndex) : Prop :=
  index.old = none ∧ index.maxLoad < (index.liveSize + 1 : ℚ) / index.current.capacity

instance (index : IncrementalHashIndex) : Decidable index.crowded :=
  inferInstanceAs (Decidable (index.old = none ∧ _))

def insert (key : String) : Op StoreError IncrementalHashIndex IncrementalInsertTrace := do
  let before ← get
  if (before.lookup hash key).found then throw (.valueError ("duplicate key: " ++ key))
  else
    let started := decide before.crowded
    if started then startMigration
    let migrationId := if started then some (before.migrationId + 1)
      else before.old.map fun _ => before.migrationId
    let placed ← placeCurrent hash key
    if placed.inserted then
      modify fun index => { index with liveSize := index.liveSize + 1 }
      let step ← migrateStep hash
      checkLoad
      let after ← get
      pure {
        insertedKey := key
        liveSizeBefore := before.liveSize
        liveSizeAfter := after.liveSize
        currentCapacityBefore := before.current.capacity
        currentCapacityAfter := after.current.capacity
        migrationId
        migrationStarted := started
        migrationCompleted := step.completed
        migrationSourceCapacity := step.sourceCapacity
        migrationSourceRows := step.sourceRows
        migrationSourceSlotsScanned := step.scanned
        migrationSourcePagesScanned := step.sourcePages
        migrationRowsCopied := step.copied
        migrationDestinationSlotProbes := step.destinationSlotProbes
        migrationDestinationPageProbes := step.destinationPageProbes
        insertSlotProbes := placed.slotProbes
        insertPageProbes := placed.pageProbes
        mutationSlotWork := placed.slotProbes + step.scanned + step.destinationSlotProbes
        allocatedCapacitySlots := after.allocatedCapacitySlots
        capacityAmplificationVsCurrent :=
          (after.allocatedCapacitySlots : ℚ) / after.current.capacity }
    else throw (.assertionError "new key unexpectedly already existed in current generation")

end IncrementalHashIndex
end DurableContext.IncrementalHash
