import DurableContext.Storage.DurableHybrid
import DurableContext.Storage.Logical

/-! Bounded placement among the rows of a generation: the key and what it evicts keep their homes,
and a placement that fails leaves every row as it was. -/

namespace DurableContext.DurableHybrid

open BucketTable

variable {hash : Hash} {db db' db'' : Db} {generation capacity : Nat} {key : String}

def generationKeys (db : Db) (generation : Nat) : Multiset String :=
  Table.valuesIn Prod.fst db.primarySlots generation +
    Table.valuesIn Prod.fst db.primaryStash generation

/-- Every row of a generation lies in one of its slots, in a bucket of its key or in the stash. -/
structure Housed (hash : Hash) (db : Db) (generation capacity : Nat) : Prop where
  slots : ∀ bucket slot key, db.primarySlots.lookup (generation, bucket, slot) = some key →
    slot < db.info.config.bucketSize ∧
      (bucket = (bucketPair hash db.info.config key capacity).1 ∨
        bucket = (bucketPair hash db.info.config key capacity).2)
  stash : ∀ slot key, db.primaryStash.lookup (generation, slot) = some key →
    slot < db.info.config.stashCapacity

/-- A change of one generation's rows that takes some keys out of them and puts others in. -/
structure Rehoused (hash : Hash) (generation capacity : Nat) (out into : Multiset String)
    (db db' : Db) : Prop where
  info : db'.info = db.info
  overflow : db'.overflow = db.overflow
  housed : Housed hash db' generation capacity
  keys : out + generationKeys db' generation = into + generationKeys db generation
  slots : ∀ location : Location, location.1 ≠ generation →
    db'.primarySlots.lookup location = db.primarySlots.lookup location
  stash : ∀ location : Nat × Nat, location.1 ≠ generation →
    db'.primaryStash.lookup location = db.primaryStash.lookup location

theorem Rehoused.refl (housed : Housed hash db generation capacity) (keys : Multiset String) :
    Rehoused hash generation capacity keys keys db db :=
  ⟨rfl, rfl, housed, rfl, fun _ _ => rfl, fun _ _ => rfl⟩

theorem Rehoused.trans {out moved into : Multiset String}
    (first : Rehoused hash generation capacity moved into db db')
    (second : Rehoused hash generation capacity out moved db' db'') :
    Rehoused hash generation capacity out into db db'' where
  info := second.info.trans first.info
  overflow := second.overflow.trans first.overflow
  housed := second.housed
  keys := second.keys.trans first.keys
  slots := fun location other => (second.slots location other).trans (first.slots location other)
  stash := fun location other => (second.stash location other).trans (first.stash location other)

theorem firstSlot_some {passes : Nat → Bool} {left slot found : Nat}
    (search : firstSlot passes left slot = some found) :
    found < slot + left ∧ passes found = true := by
  induction left generalizing slot with
  | zero => cases search
  | succ left ih =>
      rw [firstSlot] at search
      split at search
      · rename_i here
        cases search
        exact ⟨by omega, here⟩
      · obtain ⟨bound, passed⟩ := ih search
        exact ⟨by omega, passed⟩

theorem firstSlot_none {passes : Nat → Bool} {left slot : Nat}
    (search : firstSlot passes left slot = none) {other : Nat} (from_ : slot ≤ other)
    (bound : other < slot + left) : passes other = false := by
  induction left generalizing slot with
  | zero => omega
  | succ left ih =>
      rw [firstSlot] at search
      split at search
      · cases search
      · rename_i failed
        by_cases here : slot = other
        · rw [← here]
          exact Bool.eq_false_iff.mpr failed
        · exact ih search (by omega) (by omega)

theorem firstEmptyTx_some {bucket slot scanned : Nat}
    (found : firstEmptyTx db generation bucket = (some slot, scanned)) :
    slot < db.info.config.bucketSize ∧
      db.primarySlots.lookup (generation, bucket, slot) = none := by
  unfold firstEmptyTx at found
  split at found
  · rename_i first search
    cases found
    obtain ⟨bound, empty⟩ := firstSlot_some search
    exact ⟨by omega, Option.isNone_iff_eq_none.mp empty⟩
  · cases found

theorem firstEmptyTx_none {bucket scanned : Nat}
    (full : firstEmptyTx db generation bucket = (none, scanned)) {slot : Nat}
    (bound : slot < db.info.config.bucketSize) :
    ∃ key, db.primarySlots.lookup (generation, bucket, slot) = some key := by
  unfold firstEmptyTx at full
  split at full
  · cases full
  · rename_i search
    have occupied := firstSlot_none search (Nat.zero_le slot) (by omega)
    exact Option.ne_none_iff_exists'.mp fun empty => by simp [empty] at occupied

theorem Housed.putSlot (housed : Housed hash db generation capacity) {bucket slot : Nat}
    (bound : slot < db.info.config.bucketSize)
    (fits : bucket = (bucketPair hash db.info.config key capacity).1 ∨
      bucket = (bucketPair hash db.info.config key capacity).2) :
    Housed hash (db.putSlot (generation, bucket, slot) key) generation capacity where
  slots := by
    intro otherBucket otherSlot other found
    by_cases here : (generation, otherBucket, otherSlot) = (generation, bucket, slot)
    · simp only [Prod.mk.injEq, true_and] at here
      rw [here.1, here.2, Db.putSlot, AList.lookup_insert] at found
      cases found
      rw [here.1, here.2]
      exact ⟨bound, fits⟩
    · rw [Db.putSlot, AList.lookup_insert_ne here] at found
      exact housed.slots otherBucket otherSlot other found
  stash := housed.stash

theorem putSlot_elsewhere {bucket slot : Nat} {location : Location}
    (other : location.1 ≠ generation) :
    (db.putSlot (generation, bucket, slot) key).primarySlots.lookup location =
      db.primarySlots.lookup location := by
  refine AList.lookup_insert_ne fun same => ?_
  rw [same] at other
  exact other rfl

theorem Rehoused.putNew (housed : Housed hash db generation capacity) {bucket slot : Nat}
    (bound : slot < db.info.config.bucketSize)
    (fits : bucket = (bucketPair hash db.info.config key capacity).1 ∨
      bucket = (bucketPair hash db.info.config key capacity).2)
    (empty : db.primarySlots.lookup (generation, bucket, slot) = none) :
    Rehoused hash generation capacity 0 {key} db (db.putSlot (generation, bucket, slot) key) where
  info := rfl
  overflow := rfl
  housed := housed.putSlot bound fits
  keys := by
    unfold generationKeys Db.putSlot
    rw [Table.valuesIn_insert_new empty, if_pos rfl, zero_add, add_assoc]
  slots := fun location other => putSlot_elsewhere other
  stash := fun _ _ => rfl

theorem Rehoused.putOver (housed : Housed hash db generation capacity) {bucket slot : Nat}
    {victim : String} (bound : slot < db.info.config.bucketSize)
    (fits : bucket = (bucketPair hash db.info.config key capacity).1 ∨
      bucket = (bucketPair hash db.info.config key capacity).2)
    (held : db.primarySlots.lookup (generation, bucket, slot) = some victim) :
    Rehoused hash generation capacity {victim} {key} db
      (db.putSlot (generation, bucket, slot) key) where
  info := rfl
  overflow := rfl
  housed := housed.putSlot bound fits
  keys := by
    have replaced := Table.valuesIn_replace Prod.fst generation held key
    rw [if_pos rfl, if_pos rfl] at replaced
    unfold generationKeys Db.putSlot
    rw [← add_assoc, replaced, add_assoc]
  slots := fun location other => putSlot_elsewhere other
  stash := fun _ _ => rfl

theorem Rehoused.putStash (housed : Housed hash db generation capacity) {slot : Nat}
    (bound : slot < db.info.config.stashCapacity)
    (empty : db.primaryStash.lookup (generation, slot) = none) :
    Rehoused hash generation capacity 0 {key} db (db.putStash (generation, slot) key) where
  info := rfl
  overflow := rfl
  housed := by
    refine ⟨housed.slots, fun other stored found => ?_⟩
    by_cases here : (generation, other) = (generation, slot)
    · rw [(Prod.mk.inj here).2]
      exact bound
    · rw [Db.putStash, AList.lookup_insert_ne here] at found
      exact housed.stash other stored found
  keys := by
    unfold generationKeys Db.putStash
    rw [Table.valuesIn_insert_new empty, if_pos rfl, zero_add, add_left_comm]
  slots := fun _ _ => rfl
  stash := by
    intro location other
    refine AList.lookup_insert_ne fun same => ?_
    rw [same] at other
    exact other rfl

theorem rollback_eq (log : List (Location × String)) (db : Db) :
    rollback log db = { db with
      primarySlots := log.foldl (fun rows previous => rows.insert previous.1 previous.2)
        db.primarySlots } := by
  induction log generalizing db with
  | nil => rfl
  | cons previous rest ih => exact ih (db.putSlot previous.1 previous.2)

theorem rollback_congr (log : List (Location × String)) {db db' : Db}
    (same : ∀ location, db'.primarySlots.lookup location = db.primarySlots.lookup location)
    (location : Location) :
    (rollback log db').primarySlots.lookup location =
      (rollback log db).primarySlots.lookup location := by
  induction log generalizing db db' with
  | nil => exact same location
  | cons previous rest ih =>
      refine ih fun other => ?_
      show (db'.primarySlots.insert _ _).lookup other = (db.primarySlots.insert _ _).lookup other
      by_cases here : other = previous.1
      · rw [here, AList.lookup_insert, AList.lookup_insert]
      · rw [AList.lookup_insert_ne here, AList.lookup_insert_ne here, same]

theorem rollback_eviction {location : Location} {victim : String}
    (held : db.primarySlots.lookup location = some victim) (log : List (Location × String))
    (other : Location) :
    (rollback ((location, victim) :: log) (db.putSlot location key)).primarySlots.lookup other =
      (rollback log db).primarySlots.lookup other := by
  refine rollback_congr log (fun place => ?_) other
  show ((db.primarySlots.insert location key).insert location victim).lookup place = _
  by_cases here : place = location
  · rw [here, AList.lookup_insert, held]
  · rw [AList.lookup_insert_ne here, AList.lookup_insert_ne here]

/-- The evictions find a victim in every full bucket and lose no key, and what they overwrote can be
put back. -/
theorem kickTx_spec (positive : 0 < db.info.config.bucketSize) (left kick : Nat) {current : String}
    {target : Nat} (work : Nat) (log : List (Location × String))
    (housed : Housed hash db generation capacity)
    (fits : target = (bucketPair hash db.info.config current capacity).1 ∨
      target = (bucketPair hash db.info.config current capacity).2) :
    ∃ walk, kickTx hash generation capacity left kick db current target work log = .ok walk ∧
      Rehoused hash generation capacity (entry walk.homeless) {current} db walk.db ∧
      (walk.homeless ≠ none → ∀ location,
        (rollback walk.rollbackLog walk.db).primarySlots.lookup location =
          (rollback log db).primarySlots.lookup location) ∧
      walk.db.primaryStash = db.primaryStash := by
  induction left generalizing kick db current target work log with
  | zero => exact ⟨_, rfl, .refl housed _, fun _ _ => rfl, rfl⟩
  | succ left ih =>
      rw [kickTx]
      rcases search : firstEmptyTx db generation target with ⟨empty, scanned⟩
      cases empty with
      | some slot =>
          obtain ⟨bound, free⟩ := firstEmptyTx_some search
          exact ⟨_, rfl, .putNew housed bound fits free, fun homeless => absurd rfl homeless, rfl⟩
      | none =>
          set slot := victimSlot hash current kick db.info.config.bucketSize
          have bound : slot < db.info.config.bucketSize := Nat.mod_lt _ positive
          obtain ⟨victim, held⟩ := firstEmptyTx_none search bound
          set written := db.putSlot (generation, target, slot) current with written_eq
          have evicted : Rehoused hash generation capacity {victim} {current} db written :=
            .putOver housed bound fits held
          have homes := (housed.slots _ _ victim held).2
          have positive' : 0 < written.info.config.bucketSize := positive
          have next : ∀ bucket, bucket = (bucketPair hash db.info.config victim capacity).1 ∨
              bucket = (bucketPair hash db.info.config victim capacity).2 → ∃ walk,
              kickTx hash generation capacity left (kick + 1) written victim bucket
                (work + scanned + 1) (((generation, target, slot), victim) :: log) = .ok walk ∧
                Rehoused hash generation capacity (entry walk.homeless) {current} db walk.db ∧
                (walk.homeless ≠ none → ∀ location,
                  (rollback walk.rollbackLog walk.db).primarySlots.lookup location =
                    (rollback log db).primarySlots.lookup location) ∧
                walk.db.primaryStash = db.primaryStash := by
            intro bucket home
            obtain ⟨walk, ran, moved, restored, stash⟩ := ih positive' (kick + 1)
              (work + scanned + 1) (((generation, target, slot), victim) :: log) evicted.housed home
            refine ⟨walk, ran, evicted.trans moved, fun homeless location => ?_, stash⟩
            exact (restored homeless location).trans (rollback_eviction held log location)
          simp only [held]
          split
          · exact next _ (Or.inr rfl)
          · rename_i elsewhere
            rw [if_pos (homes.resolve_left fun same => elsewhere same.symm).symm]
            exact next _ (Or.inl rfl)

theorem stashEmptyTx_some {slot : Nat} (found : stashEmptyTx db generation = some slot) :
    slot < db.info.config.stashCapacity ∧ db.primaryStash.lookup (generation, slot) = none := by
  obtain ⟨bound, empty⟩ := firstSlot_some found
  exact ⟨by omega, Option.isNone_iff_eq_none.mp empty⟩

/-- Placement adds the key to the generation's rows or, when it fails, changes none of them. -/
theorem placePrimaryTx_spec (positive : 0 < db.info.config.bucketSize)
    (housed : Housed hash db generation capacity) (key : String) :
    ∃ placement db', placePrimaryTx hash db generation capacity key = .ok (placement, db') ∧
      Rehoused hash generation capacity 0 (if placement.success then {key} else 0) db db' := by
  unfold placePrimaryTx
  simp only
  rcases searchFirst : firstEmptyTx db generation (bucketPair hash db.info.config key capacity).1
    with ⟨first, scanned⟩
  cases first with
  | some slot =>
      obtain ⟨bound, free⟩ := firstEmptyTx_some searchFirst
      exact ⟨_, _, rfl, .putNew housed bound (Or.inl rfl) free⟩
  | none =>
      rcases searchSecond : firstEmptyTx db generation
        (bucketPair hash db.info.config key capacity).2 with ⟨second, more⟩
      cases second with
      | some slot =>
          obtain ⟨bound, free⟩ := firstEmptyTx_some searchSecond
          exact ⟨_, _, rfl, .putNew housed bound (Or.inr rfl) free⟩
      | none =>
          have fits : (if hash key .choiceKey &&& 1 = 0 then
                (bucketPair hash db.info.config key capacity).1
              else (bucketPair hash db.info.config key capacity).2) =
                (bucketPair hash db.info.config key capacity).1 ∨
              (if hash key .choiceKey &&& 1 = 0 then
                (bucketPair hash db.info.config key capacity).1
              else (bucketPair hash db.info.config key capacity).2) =
                (bucketPair hash db.info.config key capacity).2 := by
            split
            · exact Or.inl rfl
            · exact Or.inr rfl
          obtain ⟨walk, ran, moved, restored, stash⟩ := kickTx_spec positive
            db.info.config.maxKicks 0 (scanned + more) [] housed fits
          simp only [ran, bind, Except.bind]
          cases left : walk.homeless with
          | none =>
              rw [left] at moved
              exact ⟨_, _, rfl, moved⟩
          | some homeless =>
              rw [left] at moved
              simp only
              cases searchStash : stashEmptyTx walk.db generation with
              | some slot =>
                  obtain ⟨bound, free⟩ := stashEmptyTx_some searchStash
                  exact ⟨_, _, rfl, moved.trans (.putStash moved.housed bound free)⟩
              | none =>
                  refine ⟨_, _, rfl, ?_⟩
                  have back := restored (by rw [left]; simp)
                  rw [rollback_eq] at back ⊢
                  refine ⟨moved.info, moved.overflow, ?_, ?_, fun location _ => back location, ?_⟩
                  · refine ⟨fun bucket slot stored found => ?_, fun slot stored found => ?_⟩
                    · simp only [moved.info]
                      exact housed.slots bucket slot stored ((back _).symm.trans found)
                    · simp only [moved.info]
                      simp only [stash] at found
                      exact housed.stash slot stored found
                  · simp only [generationKeys, stash, zero_add, Bool.false_eq_true, if_false]
                    rw [Table.valuesIn_congr fun location _ => back location]
                    rfl
                  · intro location _
                    simp only [stash]

end DurableContext.DurableHybrid
