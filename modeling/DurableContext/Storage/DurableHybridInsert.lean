import DurableContext.Storage.DurableHybridMigration

/-! An insert on a durable hybrid: what a lookup finds before and after it, and when its metadata
row has room. -/

namespace DurableContext.DurableHybrid

open BucketTable Program

variable {hash : Hash} {db db' : Db} {generation capacity : Nat} {key : String} {old : OldPrimary}

section Lookup

theorem mem_stashRows : key ∈ stashRows db generation ↔
    ∃ slot, db.primaryStash.lookup (generation, slot) = some key := by
  have listed : key ∈ stashRows db generation ↔
      key ∈ Table.valuesIn Prod.fst db.primaryStash generation := by
    unfold stashRows Table.valuesIn Table.values
    rw [Multiset.mem_coe, List.mem_map, List.mem_map]
    simp only [List.mem_insertionSort]
  rw [listed, Table.mem_valuesIn]
  constructor
  · intro found
    obtain ⟨⟨home, slot⟩, held, same⟩ := found
    exact ⟨slot, same ▸ held⟩
  · intro found
    obtain ⟨slot, held⟩ := found
    exact ⟨_, held, rfl⟩

theorem lookupGenerationTx_found (housed : Housed hash db generation capacity) (key : String) :
    (lookupGenerationTx hash db generation capacity key).1 = true ↔
      key ∈ generationKeys db generation := by
  rw [mem_generationKeys]
  have hit : ∀ {bucket slot}, firstSlot (fun slot =>
      decide (db.primarySlots.lookup (generation, bucket, slot) = some key))
        db.info.config.bucketSize 0 = some slot →
      db.primarySlots.lookup (generation, bucket, slot) = some key := by
    intro bucket slot search
    exact of_decide_eq_true (firstSlot_some search).2
  have miss : ∀ {bucket}, firstSlot (fun slot =>
      decide (db.primarySlots.lookup (generation, bucket, slot) = some key))
        db.info.config.bucketSize 0 = none →
      ∀ slot, db.primarySlots.lookup (generation, bucket, slot) ≠ some key := by
    intro bucket search slot held
    have bound := (housed.slots bucket slot key held).1
    have failed := firstSlot_none search (Nat.zero_le slot) (by omega)
    exact of_decide_eq_false failed held
  unfold lookupGenerationTx
  simp only
  cases first : firstSlot (fun slot => decide (db.primarySlots.lookup
      (generation, (bucketPair hash db.info.config key capacity).1, slot) = some key))
      db.info.config.bucketSize 0 with
  | some slot => exact ⟨fun _ => Or.inl ⟨_, slot, hit first⟩, fun _ => rfl⟩
  | none =>
      cases second : firstSlot (fun slot => decide (db.primarySlots.lookup
          (generation, (bucketPair hash db.info.config key capacity).2, slot) = some key))
          db.info.config.bucketSize 0 with
      | some slot => exact ⟨fun _ => Or.inl ⟨_, slot, hit second⟩, fun _ => rfl⟩
      | none =>
          have noSlot : ¬ ∃ bucket slot,
              db.primarySlots.lookup (generation, bucket, slot) = some key := by
            intro found
            obtain ⟨bucket, slot, held⟩ := found
            rcases (housed.slots bucket slot key held).2 with here | here
            · exact miss first slot (here ▸ held)
            · exact miss second slot (here ▸ held)
          rw [← mem_stashRows]
          by_cases stashed : key ∈ stashRows db generation
          · simp [stashed]
          · simp [stashed, noSlot]

theorem lookupOverflowTx_found (counted : Counted hash db) (generations work pages : Nat) :
    (lookupOverflowTx db key generations work pages).found = true ↔
      (db.overflow.lookup key).isSome = true := by
  unfold lookupOverflowTx
  by_cases none : db.info.overflowRows = 0
  · have empty : overflowKeys db = 0 := Multiset.card_eq_zero.mp (counted.overflow.trans none)
    have absent : key ∉ overflowKeys db := by rw [empty]; exact Multiset.notMem_zero key
    rw [if_pos none, ← mem_overflowKeys]
    exact ⟨fun found => absurd found Bool.false_ne_true, fun inside => absurd inside absent⟩
  · rw [if_neg none]
    by_cases held : (db.overflow.lookup key).isSome = true
    · rw [if_pos held]
      exact ⟨fun _ => held, fun _ => rfl⟩
    · rw [if_neg held]
      exact ⟨fun found => absurd found Bool.false_ne_true, fun inside => absurd inside held⟩

theorem Mid.lookup (mid : Mid hash db) (key : String) :
    (lookupTx hash db key).found = true ↔ key ∈ storedKeys db := by
  have current := lookupGenerationTx_found mid.housed key
  rw [mem_storedKeys]
  unfold lookupTx
  rcases ran : lookupGenerationTx hash db db.info.currentGeneration db.info.currentCapacity key with
    ⟨found, work, pages⟩
  rw [ran] at current
  simp only at current ⊢
  cases found with
  | true => exact ⟨fun _ => Or.inl (current.mp rfl), fun _ => rfl⟩
  | false =>
      have absent : key ∉ generationKeys db db.info.currentGeneration := fun inside =>
        Bool.false_ne_true (current.mpr inside)
      simp only [Bool.false_eq_true, if_false, absent, false_or]
      cases held : db.info.old with
      | none =>
          simp only [lookupOverflowTx_found mid.toCounted]
          simp
      | some old =>
          have older := lookupGenerationTx_found (mid.old old held).housed key
          rcases ran' : lookupGenerationTx hash db old.generation old.capacity key with
            ⟨found', work', pages'⟩
          rw [ran'] at older
          simp only [ran']
          simp only at older
          cases found' with
          | true => exact ⟨fun _ => Or.inl ⟨old, rfl, older.mp rfl⟩, fun _ => rfl⟩
          | false =>
              have absent' : key ∉ generationKeys db old.generation := fun inside =>
                Bool.false_ne_true (older.mpr inside)
              simp only [Bool.false_eq_true, if_false, lookupOverflowTx_found mid.toCounted]
              constructor
              · exact Or.inr
              · intro found
                rcases found with ⟨other, same, inside⟩ | inside
                · obtain rfl : old = other := Option.some.inj same
                  exact absurd inside absent'
                · exact inside

end Lookup

section Insert

theorem Mid.allowed_idle (mid : Mid hash db) (idle : db.info.old = none) :
    (∀ location key, db.primarySlots.lookup location = some key →
      location.1 = db.info.currentGeneration) ∧
    ∀ location key, db.primaryStash.lookup location = some key →
      location.1 = db.info.currentGeneration := by
  have named : ∀ generation, generation ∈ allowedGenerations db.info →
      generation = db.info.currentGeneration := by
    intro generation member
    simpa [allowedGenerations, idle] using member
  exact ⟨fun location key held => named _ (mid.allowed.slots location key held),
    fun location key held => named _ (mid.allowed.stash location key held)⟩

theorem Mid.unused (mid : Mid hash db) (idle : db.info.old = none) :
    generationKeys db db.info.nextGeneration = 0 := by
  have later : db.info.nextGeneration ≠ db.info.currentGeneration := by
    rw [mid.next]
    omega
  obtain ⟨slots, stash⟩ := mid.allowed_idle idle
  refine Multiset.eq_zero_of_forall_notMem fun key present => ?_
  rcases mem_generationKeys.mp present with ⟨bucket, slot, held⟩ | ⟨slot, held⟩
  · exact later (slots _ key held)
  · exact later (stash _ key held)

theorem Mid.start (mid : Mid hash db) (idle : db.info.old = none) :
    startMigration db.info = .ok db.info.doubled ∧ Mid hash { db with info := db.info.doubled } ∧
      storedKeys { db with info := db.info.doubled } = storedKeys db := by
  refine ⟨by rw [startMigration, idle]; rfl, ?_⟩
  have empty := mid.unused idle
  have absent : ∀ key, key ∉ generationKeys db db.info.nextGeneration := by
    intro key
    rw [empty]
    exact Multiset.notMem_zero key
  obtain ⟨slots, stash⟩ := mid.allowed_idle idle
  have keys : storedKeys { db with info := db.info.doubled } = storedKeys db := by
    calc
      _ = generationKeys db db.info.nextGeneration +
          generationKeys db db.info.currentGeneration + overflowKeys db := rfl
      _ = _ := by simp only [empty, storedKeys, oldKeys, idle, Option.elim_none, zero_add, add_zero]
  refine ⟨⟨⟨mid.sized.double, ⟨?_, ?_⟩, ?_, mid.overflow⟩, ?_, ?_, ?_, by rw [keys]; exact mid.nodup,
    rfl⟩, keys⟩
  · intro bucket slot key held
    exact absurd (mem_generationKeys.mpr (Or.inl ⟨bucket, slot, held⟩)) (absent key)
  · intro slot key held
    exact absurd (mem_generationKeys.mpr (Or.inr ⟨slot, held⟩)) (absent key)
  · exact congrArg Multiset.card empty
  · intro other same
    cases same
    refine ⟨mid.sized, ⟨mid.housed.slots, mid.housed.stash⟩, ?_, ?_, rfl, Nat.zero_le _, ?_⟩
    · exact congrArg Int.ofNat mid.rows.symm
    · intro position bound
      exact absurd bound (Nat.not_lt_zero _)
    · show db.info.currentGeneration < db.info.nextGeneration
      rw [mid.next]
      exact Nat.lt_succ_self _
  · intro none
    cases none
  · refine ⟨fun place key held => ?_, fun place key held => ?_⟩
    · rw [slots place key held]
      simp [allowedGenerations, HybridMeta.doubled]
    · rw [stash place key held]
      simp [allowedGenerations, HybridMeta.doubled]

theorem Mid.admit (mid : Mid hash db) (key : String) (fresh : key ∉ storedKeys db) :
    ∃ placement routed rows overflowRows, routeTx hash db key = .ok (placement, routed) ∧
      Mid hash routed.countLive ∧ storedKeys routed.countLive = key ::ₘ storedKeys db ∧
      routed.countLive.info = { db.info with
        currentRows := rows, overflowRows := overflowRows, liveSize := db.info.liveSize + 1 } := by
  have absent : key ∉ overflowKeys db := fun inside =>
    fresh (Multiset.mem_add.mpr (Or.inr inside))
  obtain ⟨placement, ⟨info, slots, stash, overflow⟩, ran, routed⟩ :=
    routeTx_spec mid.toCounted absent
  obtain ⟨rows, overflowRows, same⟩ := routed.info
  dsimp only at same
  subst same
  set after : Db := ⟨_, slots, stash, overflow⟩ with after_eq
  have oldSame : oldKeys after = oldKeys db := by
    cases held : db.info.old with
    | none =>
        have held' : after.info.old = none := held
        simp only [oldKeys, held, held', Option.elim_none]
    | some old =>
        have held' : after.info.old = some old := held
        simp only [oldKeys, held, held', Option.elim_some]
        exact (routed.others _ (mid.old old held).earlier.ne).keys
  have keys : storedKeys after = key ::ₘ storedKeys db := by
    unfold storedKeys
    rw [oldSame, add_right_comm, add_right_comm (generationKeys db _), ← Multiset.cons_add]
    exact congrArg (fun held => held + oldKeys db) routed.keys
  refine ⟨placement, after, rows, overflowRows, ran, ?_, keys, rfl⟩
  refine ⟨⟨routed.counted.sized, ⟨routed.counted.housed.slots, routed.counted.housed.stash⟩,
    routed.counted.rows, routed.counted.overflow⟩, ?_, mid.idle,
    ⟨(routed.allowed mid.allowed).slots, (routed.allowed mid.allowed).stash⟩, ?_, mid.next⟩
  · intro old held
    have draining := mid.old old held
    have rowsSame := routed.others _ draining.earlier.ne
    have housed := rowsSame.housed rfl draining.housed
    refine ⟨draining.sized, ⟨housed.slots, housed.stash⟩, ?_, ?_, draining.limit, draining.cursor,
      draining.earlier⟩
    · exact draining.rows.trans (congrArg (fun held => (Multiset.card held : ℤ)) rowsSame.keys.symm)
    · intro position bound
      exact (congrArg Prod.fst (rowsSame.sourceKeyTx rfl position)).trans
        (draining.drained position bound)
  · refine (show (storedKeys after).Nodup from ?_)
    rw [keys]
    exact Multiset.nodup_cons.mpr ⟨fresh, mid.nodup⟩

/-- The metadata an insert routes its key by, which it always gets. -/
def HybridMeta.begun (info : HybridMeta) : HybridMeta :=
  if info.startsMigration then info.doubled else info

/-- What an insert of a new key is about to commit. -/
structure Inserting (hash : Hash) (db : Db) (key : String) (trace : InsertTrace) (db' : Db) :
    Prop where
  mid : Mid hash db'
  keys : storedKeys db' = key ::ₘ storedKeys db
  live : db'.info.liveSize = db.info.liveSize + 1
  config : db'.info.config = db.info.config
  generation : db'.info.currentGeneration = db.info.begun.currentGeneration
  capacity : db'.info.currentCapacity = db.info.begun.currentCapacity
  next : db'.info.nextGeneration = db.info.begun.nextGeneration
  started : trace.migrationStarted = decide db.info.startsMigration
  scanned : trace.migrationSourceSlotsScanned ≤ db.info.config.migrationSlotBudget
  progress : Progress db.info.config.migrationSlotBudget db.info.begun db'.info
    trace.migrationCompleted

theorem insertTx_new (mid : Mid hash db) (fresh : key ∉ storedKeys db) :
    ∃ trace db', insertTx hash db key =
        (if db'.info.stores then .ok (trace, db') else .error tooLarge) ∧
      Inserting hash db key trace db' := by
  have missing : (lookupTx hash db key).found = false :=
    Bool.eq_false_iff.mpr fun found => fresh ((mid.lookup key).mp found)
  obtain ⟨routing, midBegun, keysBegun⟩ : routeMeta db.info = .ok db.info.begun ∧
      Mid hash { db with info := db.info.begun } ∧
      storedKeys { db with info := db.info.begun } = storedKeys db := by
    unfold routeMeta HybridMeta.begun
    by_cases starts : db.info.startsMigration
    · rw [if_pos starts, if_pos starts]
      exact mid.start starts.1
    · rw [if_neg starts, if_neg starts]
      exact ⟨rfl, mid, rfl⟩
  obtain ⟨placement, routed, rows, overflowRows, ran, admitted, keys, info⟩ :=
    midBegun.admit key (by rw [keysBegun]; exact fresh)
  obtain ⟨db', done, ran', mid', keys', steady, scanned, progress⟩ := migrateStepTx_spec admitted
  have config : db.info.begun.config = db.info.config := by
    unfold HybridMeta.begun
    split <;> rfl
  have live : db.info.begun.liveSize = db.info.liveSize := by
    unfold HybridMeta.begun
    split <;> rfl
  have budget : routed.countLive.info.config.migrationSlotBudget =
      db.info.config.migrationSlotBudget := by
    rw [info]
    exact congrArg Config.migrationSlotBudget config
  rw [budget] at scanned progress
  have ran'' : insertTx hash db key =
      if db'.info.stores then .ok (insertTrace key (lookupTx hash db key)
        (decide db.info.startsMigration) placement done db'.info, db')
      else .error tooLarge := by
    unfold insertTx
    simp only [missing, Bool.false_eq_true, if_false]
    rw [ok_bind routing, ok_bind ran]
    simp only
    rw [ok_bind ran']
    simp only [writeMetaTx]
    generalize db'.info.stores = stored
    cases stored with
    | true => rfl
    | false => rfl
  refine ⟨_, db', ran'', mid', ?_, ?_, ?_, ?_, ?_, ?_, rfl, scanned, ?_⟩
  · rw [keys', keys, keysBegun]
  · rw [steady.live, info, live]
  · rw [steady.config, info, config]
  · rw [steady.generation, info]
  · rw [steady.capacity, info]
  · rw [steady.next, info]
  · exact progress.transfer (by rw [info]) (by rw [info]) (by rw [info])

theorem checkConfig_sized {initialCapacity : Nat} {config : Config}
    (accepted : checkConfig initialCapacity config = .ok ()) : Sized config initialCapacity := by
  unfold checkConfig at accepted
  simp only at accepted
  split at accepted
  · cases accepted
  split at accepted
  · cases accepted
  rename_i divides
  split at accepted
  · cases accepted
  rename_i buckets
  simp only [not_or, not_not] at divides buckets
  exact .of_checks divides.1 divides.2 buckets.1 buckets.2

/-- The invariant between two inserts. -/
structure Wf (hash : Hash) (db : Db) : Prop extends Mid hash db where
  live : Multiset.card (storedKeys db) = db.info.liveSize
  running : db.info.old ≠ none → db.info.migrationCursor < db.info.migrationLimit
  stores : db.info.stores = true

/-- The metadata row of the next new key has room in its 64-bit columns. -/
def HybridMeta.room (info : HybridMeta) : Prop :=
  (info.liveSize : Int) + 1 < INTEGER_LIMIT ∧
    (info.startsMigration → (info.currentCapacity : Int) * 2 < INTEGER_LIMIT ∧
      (info.currentCapacity : Int) + info.config.stashCapacity < INTEGER_LIMIT ∧
      (info.nextGeneration : Int) + 1 < INTEGER_LIMIT)

theorem HybridMeta.stores_iff {info : HybridMeta} : info.stores = true ↔
    ∀ value ∈ info.integers, -INTEGER_LIMIT ≤ value ∧ value < INTEGER_LIMIT := by
  unfold HybridMeta.stores
  simp only [List.all_eq_true, decide_eq_true_eq]

theorem Mid.oldRows (mid : Mid hash db) : db.info.oldRows = Multiset.card (oldKeys db) := by
  cases held : db.info.old with
  | none =>
      rw [(mid.idle held).1]
      simp only [oldKeys, held, Option.elim_none]
      rfl
  | some old =>
      rw [(mid.old old held).rows]
      simp only [oldKeys, held, Option.elim_some]

theorem Mid.counts (mid : Mid hash db) :
    db.info.currentRows ≤ Multiset.card (storedKeys db) ∧
      db.info.overflowRows ≤ Multiset.card (storedKeys db) ∧
      0 ≤ db.info.oldRows ∧ db.info.oldRows ≤ Multiset.card (storedKeys db) := by
  have total : Multiset.card (storedKeys db) =
      db.info.currentRows + Multiset.card (oldKeys db) + db.info.overflowRows := by
    rw [storedKeys, Multiset.card_add, Multiset.card_add, mid.rows, mid.overflow]
  have older := mid.oldRows
  omega

theorem Inserting.draining {trace : InsertTrace} (inserting : Inserting hash db key trace db') :
    db'.info.old = none ∧ db'.info.migrationCursor = 0 ∧ db'.info.migrationLimit = 0 ∨
      db'.info.old = db.info.begun.old ∧
        db'.info.migrationCursor ≤ db'.info.migrationLimit ∧
        db'.info.migrationLimit = db.info.begun.migrationLimit := by
  have idle := inserting.mid.idle
  have progress := inserting.progress
  generalize trace.migrationCompleted = completed at progress
  cases progress with
  | idle resting rests => exact Or.inl ⟨rests, (idle rests).2⟩
  | completed old held reached rests => exact Or.inl ⟨rests, (idle rests).2⟩
  | running old held held' more cursor limit =>
      right
      refine ⟨held'.trans held.symm, ?_, limit⟩
      omega

theorem HybridMeta.begun_stores {info : HybridMeta} (stored : info.stores = true) (room : info.room) :
    (info.begun.currentGeneration : Int) < INTEGER_LIMIT ∧
      (info.begun.currentCapacity : Int) < INTEGER_LIMIT ∧
      (info.begun.nextGeneration : Int) < INTEGER_LIMIT ∧
      (info.begun.migrationLimit : Int) < INTEGER_LIMIT := by
  have before := HybridMeta.stores_iff.mp stored
  simp only [HybridMeta.integers, List.forall_mem_cons] at before
  obtain ⟨generation, capacity, _, _, _, _, _, limit, next, _⟩ := before
  unfold HybridMeta.begun
  by_cases starts : info.startsMigration
  · obtain ⟨doubled, slots, later⟩ := room.2 starts
    rw [if_pos starts]
    refine ⟨next.2, ?_, ?_, ?_⟩
    · exact_mod_cast doubled
    · exact_mod_cast later
    · exact_mod_cast slots
  · rw [if_neg starts]
    exact ⟨generation.2, capacity.2, next.2, limit.2⟩

theorem HybridMeta.begun_old {info : HybridMeta} (stored : info.stores = true)
    {old : OldPrimary} (held : info.begun.old = some old) :
    (old.generation : Int) < INTEGER_LIMIT ∧ (old.capacity : Int) < INTEGER_LIMIT := by
  have before := HybridMeta.stores_iff.mp stored
  simp only [HybridMeta.integers, List.forall_mem_cons] at before
  obtain ⟨generation, capacity, _, oldGeneration, oldCapacity, _⟩ := before
  unfold HybridMeta.begun at held
  split at held
  · cases held
    exact ⟨generation.2, capacity.2⟩
  · rw [held] at oldGeneration oldCapacity
    exact ⟨oldGeneration.2, oldCapacity.2⟩

theorem Inserting.stores {trace : InsertTrace} (wf : Wf hash db)
    (inserting : Inserting hash db key trace db') (room : db.info.room) :
    db'.info.stores = true := by
  have positive : 0 < INTEGER_LIMIT := by decide
  have total : Multiset.card (storedKeys db') = db.info.liveSize + 1 := by
    rw [inserting.keys, Multiset.card_cons, wf.live]
  obtain ⟨rows, overflowRows, oldLow, oldHigh⟩ := inserting.mid.counts
  rw [total] at rows overflowRows oldHigh
  obtain ⟨generation, capacity, next, limit⟩ := db.info.begun_stores wf.stores room
  have live := room.1
  have before := HybridMeta.stores_iff.mp wf.stores
  simp only [HybridMeta.integers, List.forall_mem_cons] at before
  obtain ⟨_, _, _, _, _, _, _, _, _, _, _, bucket, kicks, stash, budget, _⟩ := before
  have older : ∀ old, db'.info.old = some old →
      (old.generation : Int) < INTEGER_LIMIT ∧ (old.capacity : Int) < INTEGER_LIMIT := by
    intro old held
    rcases inserting.draining with ⟨rests, _⟩ | ⟨same, _⟩
    · rw [rests] at held
      cases held
    · exact HybridMeta.begun_old wf.stores (same.symm.trans held)
  have drains : (db'.info.migrationCursor : Int) < INTEGER_LIMIT ∧
      (db'.info.migrationLimit : Int) < INTEGER_LIMIT := by
    rcases inserting.draining with ⟨_, cursor, none⟩ | ⟨_, within, same⟩ <;> omega
  rw [HybridMeta.stores_iff]
  simp only [HybridMeta.integers, List.forall_mem_cons, List.not_mem_nil, false_implies,
    implies_true, and_true, inserting.live, inserting.config, inserting.generation,
    inserting.capacity, inserting.next]
  refine ⟨by omega, by omega, by omega, ?_, ?_, by omega, by omega, by omega, by omega, by omega,
    by omega, bucket, kicks, stash, budget⟩
  · cases held : db'.info.old with
    | none => exact ⟨by simp; omega, positive⟩
    | some old => exact ⟨by simp; omega, (older old held).1⟩
  · cases held : db'.info.old with
    | none => exact ⟨by simp; omega, positive⟩
    | some old => exact ⟨by simp; omega, (older old held).2⟩

theorem Inserting.stores_iff {trace : InsertTrace} (wf : Wf hash db)
    (inserting : Inserting hash db key trace db') : db'.info.stores = true ↔ db.info.room := by
  refine ⟨fun stored => ?_, inserting.stores wf⟩
  have after := HybridMeta.stores_iff.mp stored
  simp only [HybridMeta.integers, List.forall_mem_cons, inserting.live, inserting.config,
    inserting.capacity, inserting.next] at after
  obtain ⟨_, capacity, _, _, _, _, _, limit, next, live, _, _, _, _, budget, _⟩ := after
  refine ⟨live.2, fun starts => ?_⟩
  have doubled : db.info.begun = db.info.doubled := if_pos starts
  have progress := inserting.progress
  rw [doubled] at capacity next progress
  have capacity' : ((db.info.currentCapacity * 2 : ℕ) : Int) < INTEGER_LIMIT := capacity.2
  have next' : ((db.info.nextGeneration + 1 : ℕ) : Int) < INTEGER_LIMIT := next.2
  have slots : ((db.info.currentCapacity + db.info.config.stashCapacity : ℕ) : Int) <
      INTEGER_LIMIT := by
    generalize trace.migrationCompleted = completed at progress
    cases progress with
    | idle resting rests => cases resting
    | completed old held reached rests =>
        -- a limit that the first step reaches is not stored, but is within the budget
        have reached' : db.info.currentCapacity + db.info.config.stashCapacity ≤
            0 + db.info.config.migrationSlotBudget := reached
        omega
    | running old held held' more cursor same =>
        have same' : db'.info.migrationLimit =
            db.info.currentCapacity + db.info.config.stashCapacity := same
        omega
  exact ⟨by exact_mod_cast capacity', by exact_mod_cast slots, by exact_mod_cast next'⟩

end Insert

end DurableContext.DurableHybrid
