import DurableContext.Storage.DurableHybridPlacement

/-! The invariant of the durable hybrid and its migration: a key that changes generations, or is
sent to the overflow on the way, stays stored exactly once. -/

namespace DurableContext.DurableHybrid

open BucketTable

variable {hash : Hash} {db db' : Db} {generation capacity : Nat} {key : String} {old : OldPrimary}

def overflowKeys (db : Db) : Multiset String := Multiset.ofList db.overflow.keys

def oldKeys (db : Db) : Multiset String :=
  db.info.old.elim 0 fun old => generationKeys db old.generation

/-- The keys of every row a reader can reach. -/
def storedKeys (db : Db) : Multiset String :=
  generationKeys db db.info.currentGeneration + oldKeys db + overflowKeys db

/-- The generation new keys go to, and the overflow, with the counts kept of them. -/
structure Counted (hash : Hash) (db : Db) : Prop where
  sized : Sized db.info.config db.info.currentCapacity
  housed : Housed hash db db.info.currentGeneration db.info.currentCapacity
  rows : Multiset.card (generationKeys db db.info.currentGeneration) = db.info.currentRows
  overflow : Multiset.card (overflowKeys db) = db.info.overflowRows

structure Draining (hash : Hash) (db : Db) (old : OldPrimary) : Prop where
  sized : Sized db.info.config old.capacity
  housed : Housed hash db old.generation old.capacity
  rows : db.info.oldRows = Multiset.card (generationKeys db old.generation)
  drained : ∀ position < db.info.migrationCursor, (sourceKeyTx db old position).1 = none
  limit : db.info.migrationLimit = old.capacity + db.info.config.stashCapacity
  cursor : db.info.migrationCursor ≤ db.info.migrationLimit
  earlier : old.generation < db.info.currentGeneration

/-- Every row belongs to a generation that the metadata names. -/
structure Allowed (info : HybridMeta) (db : Db) : Prop where
  slots : ∀ location key, db.primarySlots.lookup location = some key →
    location.1 ∈ allowedGenerations info
  stash : ∀ location key, db.primaryStash.lookup location = some key →
    location.1 ∈ allowedGenerations info

/-- The invariant while a transaction is at work: the cursor may have reached the limit. -/
structure Mid (hash : Hash) (db : Db) : Prop extends Counted hash db where
  old : ∀ old, db.info.old = some old → Draining hash db old
  idle : db.info.old = none → db.info.oldRows = 0 ∧ db.info.migrationCursor = 0 ∧
    db.info.migrationLimit = 0
  allowed : Allowed db.info db
  nodup : (storedKeys db).Nodup
  next : db.info.nextGeneration = db.info.currentGeneration + 1

/-- A generation has the same rows in both databases. -/
structure SameRows (generation : Nat) (db db' : Db) : Prop where
  slots : ∀ location : Location, location.1 = generation →
    db'.primarySlots.lookup location = db.primarySlots.lookup location
  stash : ∀ location : Nat × Nat, location.1 = generation →
    db'.primaryStash.lookup location = db.primaryStash.lookup location

theorem SameRows.keys (same : SameRows generation db db') :
    generationKeys db' generation = generationKeys db generation := by
  unfold generationKeys
  rw [Table.valuesIn_congr same.slots, Table.valuesIn_congr same.stash]

theorem SameRows.housed (same : SameRows generation db db')
    (config : db'.info.config = db.info.config) (housed : Housed hash db generation capacity) :
    Housed hash db' generation capacity where
  slots := by
    intro bucket slot key found
    rw [same.slots _ rfl] at found
    rw [config]
    exact housed.slots bucket slot key found
  stash := by
    intro slot key found
    rw [same.stash _ rfl] at found
    rw [config]
    exact housed.stash slot key found

theorem SameRows.sourceKeyTx (same : SameRows old.generation db db')
    (config : db'.info.config = db.info.config) (position : Nat) :
    sourceKeyTx db' old position = sourceKeyTx db old position := by
  have slots := same.slots (old.generation, position / db.info.config.bucketSize,
    position % db.info.config.bucketSize) rfl
  have stash := same.stash (old.generation, position - old.capacity) rfl
  simp only [DurableHybrid.sourceKeyTx]
  rw [config, slots, stash]

theorem mem_generationKeys : key ∈ generationKeys db generation ↔
    (∃ bucket slot, db.primarySlots.lookup (generation, bucket, slot) = some key) ∨
      ∃ slot, db.primaryStash.lookup (generation, slot) = some key := by
  unfold generationKeys
  rw [Multiset.mem_add, Table.mem_valuesIn, Table.mem_valuesIn]
  constructor
  · intro found
    rcases found with ⟨⟨home, bucket, slot⟩, held, same⟩ | ⟨⟨home, slot⟩, held, same⟩
    · exact Or.inl ⟨bucket, slot, same ▸ held⟩
    · exact Or.inr ⟨slot, same ▸ held⟩
  · intro found
    rcases found with ⟨bucket, slot, held⟩ | ⟨slot, held⟩
    · exact Or.inl ⟨_, held, rfl⟩
    · exact Or.inr ⟨_, held, rfl⟩

theorem mem_overflowKeys : key ∈ overflowKeys db ↔ (db.overflow.lookup key).isSome = true := by
  rw [overflowKeys, Multiset.mem_coe, AList.lookup_isSome]
  exact AList.mem_keys.symm

theorem mem_storedKeys : key ∈ storedKeys db ↔
    key ∈ generationKeys db db.info.currentGeneration ∨
      (∃ old, db.info.old = some old ∧ key ∈ generationKeys db old.generation) ∨
      (db.overflow.lookup key).isSome = true := by
  unfold storedKeys oldKeys
  rw [Multiset.mem_add, Multiset.mem_add, mem_overflowKeys, or_assoc]
  cases db.info.old <;> simp

section Route

/-- One more key among the rows of the current generation and the overflow. -/
structure Routed (hash : Hash) (key : String) (db db' : Db) : Prop where
  info : ∃ rows overflowRows,
    db'.info = { db.info with currentRows := rows, overflowRows := overflowRows }
  counted : Counted hash db'
  keys : generationKeys db' db.info.currentGeneration + overflowKeys db' =
    key ::ₘ (generationKeys db db.info.currentGeneration + overflowKeys db)
  others : ∀ generation, generation ≠ db.info.currentGeneration → SameRows generation db db'

theorem routeTx_spec (counted : Counted hash db) (absent : key ∉ overflowKeys db) :
    ∃ placement db', routeTx hash db key = .ok (placement, db') ∧ Routed hash key db db' := by
  obtain ⟨placement, ⟨info, slots, stash, overflow⟩, ran, moved⟩ :=
    placePrimaryTx_spec counted.sized.1 counted.housed key
  obtain rfl : info = db.info := moved.info
  obtain rfl : overflow = db.overflow := moved.overflow
  have others : ∀ generation, generation ≠ db.info.currentGeneration →
      (∀ location : Location, location.1 = generation →
        slots.lookup location = db.primarySlots.lookup location) ∧
      ∀ location : Nat × Nat, location.1 = generation →
        stash.lookup location = db.primaryStash.lookup location := by
    intro generation other
    exact ⟨fun location here => moved.slots location fun same => other (here.symm.trans same),
      fun location here => moved.stash location fun same => other (here.symm.trans same)⟩
  have keys := moved.keys
  rw [zero_add] at keys
  have housed := moved.housed
  unfold routeTx
  simp only [ran, bind, Except.bind]
  cases success : placement.success with
  | true =>
      rw [success, if_pos rfl] at keys
      refine ⟨_, _, rfl, ⟨_, _, rfl⟩, ⟨counted.sized, ⟨housed.slots, housed.stash⟩, ?_, counted.overflow⟩,
        ?_, fun generation other => ⟨(others generation other).1, (others generation other).2⟩⟩
      · have counts := congrArg Multiset.card keys
        rw [Multiset.card_add, counted.rows, Multiset.card_singleton, add_comm] at counts
        exact counts
      · have grown := congrArg (fun held => held + overflowKeys db) keys
        simp only [Multiset.singleton_add] at grown
        exact grown
  | false =>
      rw [success, if_neg Bool.false_ne_true, zero_add] at keys
      rw [mem_overflowKeys] at absent
      have missing : db.overflow.lookup key = none := Option.not_isSome_iff_eq_none.mp absent
      have fresh : key ∉ db.overflow.keys := fun inside =>
        AList.lookup_eq_none.mp missing (AList.mem_keys.mpr inside)
      have grown : Multiset.ofList (db.overflow.insert key ()).keys = key ::ₘ overflowKeys db := by
        rw [AList.keys_insert, List.erase_of_not_mem fresh, ← Multiset.cons_coe]
        rfl
      simp only [Bool.false_eq_true, if_false, insertOverflow, missing, Option.isSome_none]
      refine ⟨_, _, rfl, ⟨_, _, rfl⟩, ⟨counted.sized, ⟨housed.slots, housed.stash⟩, ?_, ?_⟩,
        ?_, fun generation other => ⟨(others generation other).1, (others generation other).2⟩⟩
      · have counts := congrArg Multiset.card keys
        rw [counted.rows] at counts
        exact counts
      · have counts := congrArg Multiset.card grown
        rw [Multiset.card_cons, counted.overflow] at counts
        exact counts
      · calc
          _ = generationKeys ⟨db.info, slots, stash, db.overflow⟩ db.info.currentGeneration +
              Multiset.ofList (db.overflow.insert key ()).keys := rfl
          _ = _ := by rw [keys, grown, Multiset.add_cons]

theorem Routed.allowed (routed : Routed hash key db db') (allowed : Allowed db.info db) :
    Allowed db.info db' where
  slots := by
    intro location stored found
    by_cases here : location.1 = db.info.currentGeneration
    · exact List.mem_cons.mpr (Or.inl here)
    · exact allowed.slots location stored (((routed.others _ here).slots location rfl).symm.trans found)
  stash := by
    intro location stored found
    by_cases here : location.1 = db.info.currentGeneration
    · exact List.mem_cons.mpr (Or.inl here)
    · exact allowed.stash location stored (((routed.others _ here).stash location rfl).symm.trans found)

end Route

section Source

variable {location : SourceLocation} {position : Nat}

/-- One key less among the rows of the old generation. -/
structure Deleted (old : OldPrimary) (position : Nat) (key : String) (db db' : Db) : Prop where
  info : db'.info = db.info
  overflow : db'.overflow = db.overflow
  keys : key ::ₘ generationKeys db' old.generation = generationKeys db old.generation
  slots : ∀ location key, db'.primarySlots.lookup location = some key →
    db.primarySlots.lookup location = some key
  stash : ∀ location key, db'.primaryStash.lookup location = some key →
    db.primaryStash.lookup location = some key
  others : ∀ generation, generation ≠ old.generation → SameRows generation db db'
  gone : (sourceKeyTx db' old position).1 = none

theorem lookup_of_erase {κ ν : Type} [DecidableEq κ] {rows : Table κ ν} {deleted place : κ}
    {value : ν} (found : (rows.erase deleted).lookup place = some value) :
    place ≠ deleted ∧ rows.lookup place = some value := by
  by_cases here : place = deleted
  · rw [here, AList.lookup_erase] at found
    cases found
  · rw [AList.lookup_erase_ne here] at found
    exact ⟨here, found⟩

theorem deleteSourceTx_spec (found : sourceKeyTx db old position = (some key, location)) :
    Deleted old position key db (deleteSourceTx db old location) := by
  unfold sourceKeyTx at found
  simp only at found
  split at found
  · rename_i inside
    simp only [Prod.mk.injEq] at found
    obtain ⟨held, rfl⟩ := found
    refine ⟨rfl, rfl, ?_, fun place value later => (lookup_of_erase later).2, fun _ _ later => later,
      fun generation other => ⟨fun place here => ?_, fun _ _ => rfl⟩, ?_⟩
    · have erased := Table.valuesIn_erase Prod.fst old.generation held
      rw [if_pos rfl] at erased
      unfold generationKeys
      rw [← erased, ← Multiset.singleton_add, ← add_assoc]
      rfl
    · refine AList.lookup_erase_ne fun same => other ?_
      rw [← here, same]
    · simp only [sourceKeyTx, deleteSourceTx, if_pos inside]
      exact AList.lookup_erase _ _
  · rename_i outside
    simp only [Prod.mk.injEq] at found
    obtain ⟨held, rfl⟩ := found
    refine ⟨rfl, rfl, ?_, fun _ _ later => later, fun place value later => (lookup_of_erase later).2,
      fun generation other => ⟨fun _ _ => rfl, fun place here => ?_⟩, ?_⟩
    · have erased := Table.valuesIn_erase Prod.fst old.generation held
      rw [if_pos rfl] at erased
      unfold generationKeys
      rw [← erased, ← Multiset.singleton_add, add_left_comm]
      rfl
    · refine AList.lookup_erase_ne fun same => other ?_
      rw [← here, same]
    · simp only [sourceKeyTx, deleteSourceTx, if_neg outside]
      exact AList.lookup_erase _ _

theorem Deleted.empty (deleted : Deleted old position key db db') {other : Nat}
    (empty : (sourceKeyTx db old other).1 = none) : (sourceKeyTx db' old other).1 = none := by
  refine Option.eq_none_iff_forall_ne_some.mpr fun stored found => ?_
  have config : db'.info.config = db.info.config := by rw [deleted.info]
  simp only [sourceKeyTx] at found empty
  rw [config] at found
  split at found
  · rename_i inside
    rw [if_pos inside] at empty
    cases empty.symm.trans (deleted.slots _ _ found)
  · rename_i outside
    rw [if_neg outside] at empty
    cases empty.symm.trans (deleted.stash _ _ found)

theorem sourceKeyTx_mem (found : sourceKeyTx db old position = (some key, location)) :
    key ∈ generationKeys db old.generation := by
  rw [mem_generationKeys]
  simp only [sourceKeyTx] at found
  split at found
  · exact Or.inl ⟨_, _, (Prod.mk.inj found).1⟩
  · exact Or.inr ⟨_, (Prod.mk.inj found).1⟩

end Source

section Migrate

def advance (db : Db) : Db :=
  { db with info := { db.info with migrationCursor := db.info.migrationCursor + 1 } }

theorem drained_succ (draining : Draining hash db old)
    (empty : (sourceKeyTx db old db.info.migrationCursor).1 = none) :
    ∀ position < db.info.migrationCursor + 1, (sourceKeyTx db old position).1 = none := by
  intro position bound
  by_cases here : position = db.info.migrationCursor
  · rw [here]
    exact empty
  · exact draining.drained position (by omega)

theorem Mid.skip (mid : Mid hash db) (held : db.info.old = some old)
    (more : db.info.migrationCursor < db.info.migrationLimit)
    (empty : (sourceKeyTx db old db.info.migrationCursor).1 = none) : Mid hash (advance db) := by
  refine ⟨⟨mid.sized, ⟨mid.housed.slots, mid.housed.stash⟩, mid.rows, mid.overflow⟩, ?_, ?_,
    ⟨mid.allowed.slots, mid.allowed.stash⟩, mid.nodup, mid.next⟩
  · intro other same
    have draining := mid.old other same
    have here : other = old := Option.some.inj (same.symm.trans held)
    subst here
    exact ⟨draining.sized, ⟨draining.housed.slots, draining.housed.stash⟩, draining.rows,
      drained_succ draining empty, draining.limit, more, draining.earlier⟩
  · intro none
    have idle : db.info.old = Option.none := none
    rw [held] at idle
    cases idle

theorem Mid.move (mid : Mid hash db) (held : db.info.old = some old)
    (more : db.info.migrationCursor < db.info.migrationLimit) {location : SourceLocation}
    (found : sourceKeyTx db old db.info.migrationCursor = (some key, location)) :
    ∃ placement routed rows overflowRows,
      routeTx hash (advance db) key = .ok (placement, routed) ∧
      let deleted := deleteSourceTx routed old location
      let moved : Db :=
        { deleted with info := { deleted.info with oldRows := deleted.info.oldRows - 1 } }
      Mid hash moved ∧ storedKeys moved = storedKeys db ∧
        moved.info = { db.info with
          migrationCursor := db.info.migrationCursor + 1, currentRows := rows
          overflowRows := overflowRows, oldRows := db.info.oldRows - 1 } := by
  have draining := mid.old old held
  have apart : old.generation ≠ db.info.currentGeneration := draining.earlier.ne
  have stored : key ∈ generationKeys db old.generation := sourceKeyTx_mem found
  have total : storedKeys db = generationKeys db db.info.currentGeneration +
      generationKeys db old.generation + overflowKeys db := by
    simp only [storedKeys, oldKeys, held, Option.elim_some]
  have absent : key ∉ overflowKeys (advance db) := by
    have nodup := mid.nodup
    rw [total] at nodup
    have disjoint := (Multiset.nodup_add.mp nodup).2.2
    exact Multiset.disjoint_left.mp disjoint (Multiset.mem_add.mpr (Or.inr stored))
  have counted : Counted hash (advance db) :=
    ⟨mid.sized, ⟨mid.housed.slots, mid.housed.stash⟩, mid.rows, mid.overflow⟩
  obtain ⟨placement, ⟨info, slots, stash, overflow⟩, ran, routed⟩ := routeTx_spec counted absent
  obtain ⟨rows, overflowRows, same⟩ := routed.info
  dsimp only at same
  subst same
  set after : Db := ⟨_, slots, stash, overflow⟩ with after_eq
  have oldSame : SameRows old.generation db after :=
    ⟨(routed.others _ apart).slots, (routed.others _ apart).stash⟩
  have found' : sourceKeyTx after old db.info.migrationCursor = (some key, location) :=
    (oldSame.sourceKeyTx rfl _).trans found
  have deleted := deleteSourceTx_spec found'
  generalize erased_eq : deleteSourceTx after old location = erased at deleted
  obtain ⟨info, slots', stash', overflow'⟩ := erased
  obtain rfl : info = after.info := deleted.info
  obtain rfl : overflow' = after.overflow := deleted.overflow
  have currentSame : SameRows db.info.currentGeneration after
      ⟨after.info, slots', stash', after.overflow⟩ := deleted.others _ apart.symm
  refine ⟨placement, after, rows, overflowRows, ran, ?_⟩
  rw [erased_eq]
  have oldKeys_eq : key ::ₘ generationKeys ⟨after.info, slots', stash', after.overflow⟩ old.generation =
      generationKeys db old.generation := deleted.keys.trans oldSame.keys
  have currentKeys_eq := currentSame.keys
  have keys : generationKeys after db.info.currentGeneration + overflowKeys after =
      key ::ₘ (generationKeys db db.info.currentGeneration + overflowKeys db) := routed.keys
  have storedSame : generationKeys ⟨after.info, slots', stash', after.overflow⟩
        db.info.currentGeneration +
      generationKeys ⟨after.info, slots', stash', after.overflow⟩ old.generation +
      overflowKeys after = storedKeys db := by
    rw [currentKeys_eq, total, ← oldKeys_eq, add_right_comm, keys, Multiset.cons_add,
      Multiset.add_cons, Multiset.cons_add, add_right_comm]
  have held' : after.info.old = some old := held
  have storedKeys_eq : storedKeys ⟨{ after.info with oldRows := after.info.oldRows - 1 }, slots',
      stash', after.overflow⟩ = storedKeys db := by
    rw [← storedSame]
    simp only [storedKeys, oldKeys, held', Option.elim_some]
    rfl
  refine ⟨⟨⟨mid.sized, ?_, ?_, routed.counted.overflow⟩, ?_, ?_, ?_, ?_, mid.next⟩,
    storedKeys_eq, rfl⟩
  · have housed := currentSame.housed rfl routed.counted.housed
    exact ⟨housed.slots, housed.stash⟩
  · calc
      _ = Multiset.card (generationKeys after db.info.currentGeneration) :=
          congrArg Multiset.card currentKeys_eq
      _ = _ := routed.counted.rows
  · intro other same
    obtain rfl : other = old := Option.some.inj (same.symm.trans held)
    have housed := oldSame.housed rfl draining.housed
    refine ⟨draining.sized, ⟨fun bucket slot stored found => ?_, fun slot stored found => ?_⟩, ?_, ?_,
      draining.limit, more, draining.earlier⟩
    · exact housed.slots bucket slot stored (deleted.slots _ _ found)
    · exact housed.stash slot stored (deleted.stash _ _ found)
    · have counts := congrArg Multiset.card oldKeys_eq
      rw [Multiset.card_cons] at counts
      show db.info.oldRows - 1 = Multiset.card (generationKeys ⟨_, slots', stash', _⟩ other.generation)
      rw [draining.rows, ← counts]
      push_cast
      exact add_sub_cancel_right _ _
    · intro position bound
      by_cases here : position = db.info.migrationCursor
      · rw [here]
        exact deleted.gone
      · refine deleted.empty ?_
        rw [oldSame.sourceKeyTx rfl]
        exact draining.drained position (Nat.lt_of_le_of_ne (Nat.lt_succ_iff.mp bound) here)
  · intro none
    have idle : db.info.old = Option.none := none
    rw [held] at idle
    cases idle
  · have allowed := routed.allowed ⟨mid.allowed.slots, mid.allowed.stash⟩
    exact ⟨fun place stored found => allowed.slots place stored (deleted.slots _ _ found),
      fun place stored found => allowed.stash place stored (deleted.stash _ _ found)⟩
  · rw [storedKeys_eq]
    exact mid.nodup

/-- What a migration step leaves alone in the metadata. -/
structure Steady (info info' : HybridMeta) : Prop where
  generation : info'.currentGeneration = info.currentGeneration
  capacity : info'.currentCapacity = info.currentCapacity
  next : info'.nextGeneration = info.nextGeneration
  live : info'.liveSize = info.liveSize
  config : info'.config = info.config

theorem Steady.trans {info info' info'' : HybridMeta} (first : Steady info info')
    (second : Steady info' info'') : Steady info info'' :=
  ⟨second.generation.trans first.generation, second.capacity.trans first.capacity,
    second.next.trans first.next, second.live.trans first.live, second.config.trans first.config⟩

theorem migrateLoop_spec (left : Nat) (sofar : Migration) (mid : Mid hash db)
    (held : db.info.old = some old) :
    ∃ db' done, migrateLoop hash old left db sofar = .ok (db', done) ∧ Mid hash db' ∧
      storedKeys db' = storedKeys db ∧ Steady db.info db'.info ∧ db'.info.old = some old ∧
      db'.info.migrationLimit = db.info.migrationLimit ∧
      db'.info.migrationCursor = min (db.info.migrationCursor + left) db.info.migrationLimit ∧
      done.scanned ≤ sofar.scanned + left ∧ done.completed = sofar.completed := by
  have within := (mid.old old held).cursor
  induction left generalizing db sofar with
  | zero =>
      exact ⟨db, sofar, rfl, mid, rfl, ⟨rfl, rfl, rfl, rfl, rfl⟩, held, rfl, by omega, le_rfl, rfl⟩
  | succ left ih =>
      rw [migrateLoop]
      by_cases more : db.info.migrationCursor < db.info.migrationLimit
      · rw [if_pos more]
        rcases found : sourceKeyTx db old db.info.migrationCursor with ⟨source, location⟩
        have found' : sourceKeyTx { db with info := { db.info with
            migrationCursor := db.info.migrationCursor + 1 } } old db.info.migrationCursor =
            (source, location) := found
        simp only [found']
        cases source with
        | none =>
            have skipped := mid.skip held more (congrArg Prod.fst found)
            obtain ⟨db', done, ran, mid', keys, steady, held', limit, cursor, scanned, completed⟩ :=
              ih { sofar with scanned := sofar.scanned + 1 } skipped held
                (skipped.old old held).cursor
            refine ⟨db', done, ran, mid', keys, ⟨steady.generation, steady.capacity, steady.next,
              steady.live, steady.config⟩, held', limit, ?_, ?_, completed⟩
            · rw [cursor]
              show min (db.info.migrationCursor + 1 + left) db.info.migrationLimit = _
              omega
            · simp only at scanned
              omega
        | some key =>
            obtain ⟨placement, routed, rows, overflowRows, ran, moved, keys, info⟩ :=
              mid.move held more found
            simp only at moved keys info
            have ran' : routeTx hash { db with info := { db.info with
                migrationCursor := db.info.migrationCursor + 1 } } key =
                .ok (placement, routed) := ran
            simp only [ran', bind, Except.bind]
            have held' := held
            obtain ⟨db', done, ran'', mid', keys', steady, held'', limit, cursor, scanned,
              completed⟩ := ih { sofar with
                scanned := sofar.scanned + 1
                moved := sofar.moved + 1
                toOverflow := sofar.toOverflow + (if placement.success then 0 else 1)
                primaryWork := sofar.primaryWork + placement.work
                primarySqlWrites := sofar.primarySqlWrites + placement.sqlWrites + 1 }
                moved (by rw [info]; exact held) (by rw [info]; exact more)
            rw [info] at limit cursor
            refine ⟨db', done, ran'', mid', keys'.trans keys, ?_, held'', limit, ?_, ?_, completed⟩
            · refine .trans ?_ steady
              rw [info]
              exact ⟨rfl, rfl, rfl, rfl, rfl⟩
            · rw [cursor]
              show min (db.info.migrationCursor + 1 + left) db.info.migrationLimit = _
              omega
            · simp only at scanned
              omega
      · rw [if_neg more]
        exact ⟨db, sofar, rfl, mid, rfl, ⟨rfl, rfl, rfl, rfl, rfl⟩, held, rfl, by omega, by omega, rfl⟩

theorem Draining.finished (draining : Draining hash db old)
    (finished : db.info.migrationLimit ≤ db.info.migrationCursor) :
    generationKeys db old.generation = 0 := by
  refine Multiset.eq_zero_of_forall_notMem fun key present => ?_
  have valid := scheme_valid hash draining.sized
  have positive := draining.sized.1
  rcases mem_generationKeys.mp present with ⟨bucket, slot, held⟩ | ⟨slot, held⟩
  · obtain ⟨bound, home⟩ := draining.housed.slots bucket slot key held
    have inside : bucket < old.capacity / db.info.config.bucketSize := by
      rcases home with first | second
      · rw [first]
        exact valid.first_lt key
      · rw [second]
        exact valid.second_lt key
    have below : db.info.config.bucketSize * bucket + slot < old.capacity := by
      calc
        _ < db.info.config.bucketSize * bucket + db.info.config.bucketSize := by omega
        _ = (bucket + 1) * db.info.config.bucketSize := by ring
        _ ≤ old.capacity / db.info.config.bucketSize * db.info.config.bucketSize :=
            Nat.mul_le_mul_right _ inside
        _ = old.capacity := draining.sized.capacity_eq
    have empty := draining.drained (db.info.config.bucketSize * bucket + slot) (by
      rw [draining.limit] at finished
      omega)
    simp only [sourceKeyTx, if_pos below] at empty
    rw [Nat.mul_add_div positive, Nat.mul_add_mod, Nat.div_eq_of_lt bound, Nat.mod_eq_of_lt bound,
      Nat.add_zero, held] at empty
    cases empty
  · have bound := draining.housed.stash slot key held
    have outside : ¬ old.capacity + slot < old.capacity := by omega
    have empty := draining.drained (old.capacity + slot) (by
      rw [draining.limit] at finished
      omega)
    simp only [sourceKeyTx, if_neg outside] at empty
    rw [Nat.add_sub_cancel_left, held] at empty
    cases empty

theorem generationRows_of_empty (empty : generationKeys db generation = 0) :
    generationRows db generation = (0, 0) := by
  obtain ⟨slots, stash⟩ := add_eq_zero.mp empty
  have slotCount := congrArg Multiset.card slots
  have stashCount := congrArg Multiset.card stash
  simp only [Table.valuesIn, Table.values, Multiset.coe_card, List.length_map,
    Multiset.card_zero] at slotCount stashCount
  rw [generationRows, slotCount, stashCount]

inductive Progress (budget : Nat) (info info' : HybridMeta) : Bool → Prop
  | idle (resting : info.old = none) (rests : info'.old = none) : Progress budget info info' false
  | completed (old : OldPrimary) (held : info.old = some old)
      (reached : info.migrationLimit ≤ info.migrationCursor + budget) (rests : info'.old = none) :
      Progress budget info info' true
  | running (old : OldPrimary) (held : info.old = some old) (held' : info'.old = some old)
      (more : info.migrationCursor + budget < info.migrationLimit)
      (cursor : info'.migrationCursor = info.migrationCursor + budget)
      (limit : info'.migrationLimit = info.migrationLimit) : Progress budget info info' false

theorem Progress.transfer {budget : Nat} {info₁ info₂ info' : HybridMeta} {completed : Bool}
    (progress : Progress budget info₁ info' completed) (old : info₁.old = info₂.old)
    (cursor : info₁.migrationCursor = info₂.migrationCursor)
    (limit : info₁.migrationLimit = info₂.migrationLimit) :
    Progress budget info₂ info' completed := by
  cases progress with
  | idle resting rests => exact .idle (old ▸ resting) rests
  | completed drained held reached rests =>
      exact .completed drained (old ▸ held) (by omega) rests
  | running drained held held' more cursor' limit' =>
      exact .running drained (old ▸ held) held' (by omega) (by omega) (limit'.trans limit)

theorem Mid.complete (mid : Mid hash db) (held : db.info.old = some old)
    (empty : generationKeys db old.generation = 0) :
    let final : Db := { db with info := { db.info with
      old := none, oldRows := 0, migrationCursor := 0, migrationLimit := 0 } }
    Mid hash final ∧ storedKeys final = storedKeys db := by
  have keys : storedKeys { db with info := { db.info with
      old := none, oldRows := 0, migrationCursor := 0, migrationLimit := 0 } } = storedKeys db := by
    simp only [storedKeys, oldKeys, held, Option.elim_some, Option.elim_none, empty]
    rfl
  refine ⟨⟨⟨mid.sized, ⟨mid.housed.slots, mid.housed.stash⟩, mid.rows, mid.overflow⟩, ?_,
    fun _ => ⟨rfl, rfl, rfl⟩, ?_, by rw [keys]; exact mid.nodup, mid.next⟩, keys⟩
  · intro other same
    cases same
  · have left : ∀ generation, generation ∈ allowedGenerations db.info →
        (∃ key, key ∈ generationKeys db generation) → generation = db.info.currentGeneration := by
      intro generation member present
      simp only [allowedGenerations, held, Option.map_some, Option.toList_some, List.mem_cons,
        List.not_mem_nil, or_false] at member
      rcases member with current | older
      · exact current
      · obtain ⟨key, inside⟩ := present
        rw [older, empty] at inside
        exact absurd inside (Multiset.notMem_zero key)
    constructor
    · intro place stored found
      refine List.mem_cons.mpr (Or.inl (left _ (mid.allowed.slots place stored found) ⟨stored, ?_⟩))
      exact mem_generationKeys.mpr (Or.inl ⟨place.2.1, place.2.2, found⟩)
    · intro place stored found
      refine List.mem_cons.mpr (Or.inl (left _ (mid.allowed.stash place stored found) ⟨stored, ?_⟩))
      exact mem_generationKeys.mpr (Or.inr ⟨place.2, found⟩)

/-- A migration step never fails: neither of its assertions can. -/
theorem migrateStepTx_spec (mid : Mid hash db) :
    ∃ db' done, migrateStepTx hash db = .ok (db', done) ∧ Mid hash db' ∧
      storedKeys db' = storedKeys db ∧ Steady db.info db'.info ∧
      done.scanned ≤ db.info.config.migrationSlotBudget ∧
      Progress db.info.config.migrationSlotBudget db.info db'.info done.completed := by
  unfold migrateStepTx
  cases held : db.info.old with
  | none =>
      exact ⟨db, _, rfl, mid, rfl, ⟨rfl, rfl, rfl, rfl, rfl⟩, Nat.zero_le _,
        .idle held held⟩
  | some old =>
      obtain ⟨db', done, ran, mid', keys, steady, held', limit, cursor, scanned, completed⟩ :=
        migrateLoop_spec db.info.config.migrationSlotBudget ⟨0, 0, 0, 0, 0, false⟩ mid held
      have within := (mid.old old held).cursor
      simp only [Nat.zero_add] at scanned
      simp only [ran, bind, Except.bind]
      by_cases finished : db'.info.migrationLimit ≤ db'.info.migrationCursor
      · have draining := mid'.old old held'
        have empty := draining.finished finished
        have none : db'.info.oldRows = 0 := by
          rw [draining.rows, empty]
          rfl
        obtain ⟨mid'', keys'⟩ := mid'.complete held' empty
        rw [if_pos finished, if_neg (not_not.mpr none), generationRows_of_empty empty,
          if_neg (not_not.mpr rfl)]
        refine ⟨_, _, rfl, mid'', keys'.trans keys, ⟨steady.generation, steady.capacity,
          steady.next, steady.live, steady.config⟩, scanned, .completed old held ?_ rfl⟩
        omega
      · rw [if_neg finished]
        refine ⟨db', done, rfl, mid', keys, steady, scanned, ?_⟩
        rw [completed]
        exact .running old held held' (by omega) (by omega) limit

end Migrate

end DurableContext.DurableHybrid
