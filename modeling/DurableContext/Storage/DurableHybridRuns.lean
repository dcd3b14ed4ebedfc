import DurableContext.Storage.DurableHybridInsert

/-! Runs of inserts on a durable hybrid: where each key is, what a lookup and an audit see, which
inserts are refused and how migrations end. -/

namespace DurableContext.DurableHybrid

open BucketTable Program

variable {hash : Hash} {db db' : Db} {key : String} {trace : InsertTrace} {initialCapacity : Nat}
  {config : Config}

/-- The database after any insert calls on a new store, and the keys they have returned for. -/
inductive Run (hash : Hash) (initialCapacity : Nat) (config : Config) : Db → Finset String → Prop
  | start {db : Db} (created : initializeStore none initialCapacity config = .ok db) :
      Run hash initialCapacity config db ∅
  | call {db : Db} {keys : Finset String} (before : Run hash initialCapacity config db keys)
      (key : String) : Run hash initialCapacity config (finalState (insert hash key db))
        (if returned (insert hash key db) then keys ∪ {key} else keys)

inductive Inserts (hash : Hash) : Db → List InsertTrace → Db → Prop
  | nil (db : Db) : Inserts hash db [] db
  | cons {db middle db' : Db} {key : String} {trace : InsertTrace} {traces : List InsertTrace}
      (inserted : insert hash key db = .ok trace middle) (after : Inserts hash middle traces db') :
      Inserts hash db (trace :: traces) db'

inductive Place where
  | currentSlots | currentStash | oldPrimary | overflow
  deriving DecidableEq, Repr

def Db.holds (db : Db) (key : String) : Place → Prop
  | .currentSlots => ∃ bucket slot,
      db.primarySlots.lookup (db.info.currentGeneration, bucket, slot) = some key
  | .currentStash => ∃ slot, db.primaryStash.lookup (db.info.currentGeneration, slot) = some key
  | .oldPrimary => ∃ old, db.info.old = some old ∧
      ((∃ bucket slot, db.primarySlots.lookup (old.generation, bucket, slot) = some key) ∨
        ∃ slot, db.primaryStash.lookup (old.generation, slot) = some key)
  | .overflow => (db.overflow.lookup key).isSome = true

section Audit

def primaryRows (db : Db) : Multiset String :=
  (Table.values db.primarySlots : Multiset String) + (Table.values db.primaryStash : Multiset String)

theorem Mid.primaryRows (mid : Mid hash db) :
    primaryRows db = generationKeys db db.info.currentGeneration + oldKeys db := by
  have apart : ∃ other, db.info.currentGeneration ≠ other ∧ oldKeys db = generationKeys db other ∧
      ∀ generation ∈ allowedGenerations db.info,
        generation = db.info.currentGeneration ∨ generation = other := by
    cases held : db.info.old with
    | none =>
        refine ⟨db.info.nextGeneration, ?_, ?_, ?_⟩
        · rw [mid.next]
          exact (Nat.lt_succ_self _).ne
        · rw [mid.unused held]
          simp only [oldKeys, held, Option.elim_none]
        · intro generation member
          exact Or.inl (by simpa [allowedGenerations, held] using member)
    | some old =>
        refine ⟨old.generation, (mid.old old held).earlier.ne', ?_, ?_⟩
        · simp only [oldKeys, held, Option.elim_some]
        · intro generation member
          simpa [allowedGenerations, held] using member
  obtain ⟨other, apart, older, covered⟩ := apart
  have slots := Table.values_split Prod.fst apart fun location key held =>
    covered _ (mid.allowed.slots location key held)
  have stash := Table.values_split Prod.fst apart fun location key held =>
    covered _ (mid.allowed.stash location key held)
  rw [older, DurableHybrid.primaryRows, slots, stash, generationKeys, generationKeys]
  exact add_add_add_comm _ _ _ _

theorem Mid.auditRows (mid : Mid hash db) :
    ((Table.values db.primarySlots ++ Table.values db.primaryStash ++ db.overflow.keys :
      List String) : Multiset String) = storedKeys db := by
  rw [storedKeys, ← mid.primaryRows, DurableHybrid.primaryRows, overflowKeys, Multiset.coe_add,
    Multiset.coe_add]

theorem Wf.audit (wf : Wf hash db) : (audit db).valid = true := by
  have rows := wf.auditRows
  have nodup : (Table.values db.primarySlots ++ Table.values db.primaryStash ++
      db.overflow.keys).Nodup := by
    rw [← Multiset.coe_nodup, rows]
    exact wf.nodup
  have single : ((Table.values db.primarySlots ++ Table.values db.primaryStash ++
      db.overflow.keys).dedup.filter fun key => decide ((Table.values db.primarySlots ++
        Table.values db.primaryStash ++ db.overflow.keys).count key ≠ 1)) = [] := by
    refine List.filter_eq_nil_iff.mpr fun key member => ?_
    have once := List.count_eq_one_of_mem nodup (List.mem_dedup.mp member)
    simp only [once, ne_eq, not_true_eq_false, decide_false, Bool.false_eq_true, not_false_eq_true]
  have total : (Table.values db.primarySlots ++ Table.values db.primaryStash ++
      db.overflow.keys).length = db.info.liveSize := by
    rw [← wf.live, ← rows, Multiset.coe_card]
  have overflow : db.overflow.keys.length = db.info.overflowRows := wf.overflow
  have primary : ((db.primarySlots.entries.length + db.primaryStash.entries.length : ℕ) : ℤ) =
      db.info.currentRows + db.info.oldRows := by
    have counts := congrArg Multiset.card wf.primaryRows
    rw [Multiset.card_add, wf.rows] at counts
    simp only [DurableHybrid.primaryRows, Multiset.card_add, Multiset.coe_card, Table.values,
      List.length_map] at counts
    rw [wf.oldRows, counts]
    push_cast
    rfl
  have generations : ((db.primarySlots.keys.map Prod.fst ++ db.primaryStash.keys.map Prod.fst).all
      fun generation => decide (generation ∈ allowedGenerations db.info)) = true := by
    rw [List.all_eq_true]
    intro generation member
    rw [decide_eq_true_eq]
    rcases List.mem_append.mp member with slot | stash
    · obtain ⟨location, inside, same⟩ := List.mem_map.mp slot
      obtain ⟨key, held⟩ := Option.isSome_iff_exists.mp
        (AList.lookup_isSome.mpr (AList.mem_keys.mpr inside))
      exact same ▸ wf.allowed.slots location key held
    · obtain ⟨location, inside, same⟩ := List.mem_map.mp stash
      obtain ⟨key, held⟩ := Option.isSome_iff_exists.mp
        (AList.lookup_isSome.mpr (AList.mem_keys.mpr inside))
      exact same ▸ wf.allowed.stash location key held
  unfold DurableHybrid.audit
  simp only [single, total, overflow, primary, generations]
  cases held : db.info.old with
  | none =>
      have cursor := (wf.idle held).2
      simp [cursor]
  | some old =>
      have cursor := (wf.old old held).cursor
      simp [cursor]

end Audit

section Insert

theorem initializeStore_wf (created : initializeStore none initialCapacity config = .ok db) :
    Wf hash db ∧ storedKeys db = 0 ∧ db.info.config = config := by
  unfold initializeStore at created
  cases accepted : checkConfig initialCapacity config with
  | error error => simp [accepted, bind, Except.bind] at created
  | ok done =>
      rw [ok_bind accepted, Option.isSome_none, if_neg Bool.false_ne_true, writeMetaTx] at created
      split at created
      · rename_i stored
        cases created
        refine ⟨⟨⟨⟨checkConfig_sized accepted, ⟨?_, ?_⟩, rfl, rfl⟩, ?_, fun _ => ⟨rfl, rfl, rfl⟩,
          ⟨?_, ?_⟩, Multiset.nodup_zero, rfl⟩, rfl, fun running => absurd rfl running, stored⟩, rfl, rfl⟩
        · intro bucket slot key held
          cases held
        · intro slot key held
          cases held
        · intro old held
          cases held
        · intro location key held
          cases held
        · intro location key held
          cases held
      · cases created

theorem Wf.insert_stored (wf : Wf hash db) (stored : key ∈ storedKeys db) :
    insert hash key db = .error (.valueError ("duplicate key: " ++ key)) db := by
  have found := (wf.lookup key).mpr stored
  simp only [insert, insertTx, found, if_true]

theorem Wf.insert_roomless (wf : Wf hash db) (fresh : key ∉ storedKeys db)
    (full : ¬ db.info.room) : insert hash key db = .error tooLarge db := by
  obtain ⟨trace, db', ran, inserting⟩ := insertTx_new wf.toMid fresh
  rw [if_neg fun stored => full ((inserting.stores_iff wf).mp stored)] at ran
  simp only [insert, ran]

theorem Wf.insert_new (wf : Wf hash db) (fresh : key ∉ storedKeys db) (room : db.info.room) :
    ∃ trace db', insert hash key db = .ok trace db' ∧ Inserting hash db key trace db' ∧
      Wf hash db' := by
  obtain ⟨trace, db', ran, inserting⟩ := insertTx_new wf.toMid fresh
  have stored := inserting.stores wf room
  rw [if_pos stored] at ran
  refine ⟨trace, db', by simp only [insert, ran], inserting, inserting.mid, ?_, ?_, stored⟩
  · rw [inserting.keys, Multiset.card_cons, wf.live, inserting.live]
  · intro running
    have progress := inserting.progress
    generalize trace.migrationCompleted = completed at progress
    cases progress with
    | idle resting rests => exact absurd rests running
    | completed old held reached rests => exact absurd rests running
    | running old held held' more cursor limit => omega

theorem Wf.inserted (wf : Wf hash db) (ran : insert hash key db = .ok trace db') :
    key ∉ storedKeys db ∧ db.info.room ∧ Inserting hash db key trace db' ∧ Wf hash db' := by
  have fresh : key ∉ storedKeys db := by
    intro stored
    rw [wf.insert_stored stored] at ran
    cases ran
  have room : db.info.room := by
    by_contra full
    rw [wf.insert_roomless fresh full] at ran
    cases ran
  obtain ⟨trace', final, ran', inserting, wf'⟩ := wf.insert_new fresh room
  cases ran.symm.trans ran'
  exact ⟨fresh, room, inserting, wf'⟩

theorem Run.wf {keys : Finset String} (run : Run hash initialCapacity config db keys) :
    Wf hash db ∧ storedKeys db = keys.val ∧ db.info.config = config := by
  induction run with
  | start created => exact initializeStore_wf created
  | call before key ih =>
      rename_i db keys
      obtain ⟨wf, stored, conf⟩ := ih
      cases ran : insert hash key db with
      | error error final =>
          have kept : final = db := by
            unfold insert at ran
            split at ran
            · cases ran
            · cases ran
              rfl
          rw [kept]
          exact ⟨wf, stored, conf⟩
      | ok trace final =>
          obtain ⟨fresh, room, inserting, wf'⟩ := wf.inserted ran
          refine ⟨wf', ?_, inserting.config.trans conf⟩
          have fresh' : key ∉ keys := by
            rw [stored] at fresh
            exact fresh
          show storedKeys final = (keys ∪ {key}).val
          rw [inserting.keys, stored, Finset.union_comm, ← Finset.insert_eq,
            Finset.insert_val_of_notMem fresh']

/-- A migration ends within as many inserts as its budget needs for the slots that are left. -/
theorem Inserts.completes {old : OldPrimary} {traces : List InsertTrace}
    (inserts : Inserts hash db traces db') (wf : Wf hash db) (held : db.info.old = some old)
    (enough : db.info.migrationLimit ≤
      db.info.migrationCursor + traces.length * db.info.config.migrationSlotBudget) :
    ∃ earlier middle later, traces = earlier ++ later ∧ Inserts hash db earlier middle ∧
      Inserts hash middle later db' ∧ middle.info.old = none ∧ middle.info.oldRows = 0 := by
  induction inserts with
  | nil db =>
      have running := wf.running (by rw [held]; exact Option.some_ne_none old)
      simp only [List.length_nil, zero_mul, add_zero] at enough
      omega
  | cons inserted after ih =>
      rename_i db middle db' key trace traces
      obtain ⟨fresh, room, inserting, wf'⟩ := wf.inserted inserted
      have begun : db.info.begun = db.info := if_neg fun starts => by
        rw [starts.1] at held
        cases held
      have progress := inserting.progress
      rw [begun] at progress
      have one : Inserts hash db [trace] middle := .cons inserted (.nil middle)
      generalize trace.migrationCompleted = completed at progress
      cases progress with
      | idle resting rests =>
          rw [held] at resting
          cases resting
      | completed drained same reached rests =>
          exact ⟨[trace], middle, traces, rfl, one, after, rests, (wf'.idle rests).1⟩
      | running drained same same' more cursor limit =>
          have still : middle.info.old = some old := same'.trans (same.symm.trans held)
          obtain ⟨earlier, final, later, split, before, rest, ended, empty⟩ := ih wf' still (by
            rw [cursor, limit, inserting.config]
            rw [List.length_cons, Nat.succ_mul] at enough
            omega)
          exact ⟨trace :: earlier, final, later, congrArg (List.cons trace) split,
            .cons inserted before, rest, ended, empty⟩

end Insert

section Places

def Db.keysAt (db : Db) : Place → Multiset String
  | .currentSlots => Table.valuesIn Prod.fst db.primarySlots db.info.currentGeneration
  | .currentStash => Table.valuesIn Prod.fst db.primaryStash db.info.currentGeneration
  | .oldPrimary => oldKeys db
  | .overflow => overflowKeys db

theorem holds_iff (place : Place) : db.holds key place ↔ 0 < (db.keysAt place).count key := by
  rw [Multiset.count_pos]
  cases place with
  | currentSlots =>
      refine Iff.trans ?_ Table.mem_valuesIn.symm
      constructor
      · intro found
        obtain ⟨bucket, slot, held⟩ := found
        exact ⟨_, held, rfl⟩
      · intro found
        obtain ⟨⟨generation, bucket, slot⟩, held, same⟩ := found
        exact ⟨bucket, slot, same ▸ held⟩
  | currentStash =>
      refine Iff.trans ?_ Table.mem_valuesIn.symm
      constructor
      · intro found
        obtain ⟨slot, held⟩ := found
        exact ⟨_, held, rfl⟩
      · intro found
        obtain ⟨⟨generation, slot⟩, held, same⟩ := found
        exact ⟨slot, same ▸ held⟩
  | oldPrimary =>
      simp only [Db.holds, Db.keysAt, oldKeys, ← mem_generationKeys]
      cases db.info.old <;> simp
  | overflow => exact mem_overflowKeys.symm

theorem Mid.existsUnique_place (mid : Mid hash db) (stored : key ∈ storedKeys db) :
    ∃! place, db.holds key place := by
  have once := Multiset.count_eq_one_of_mem mid.nodup stored
  have total : storedKeys db = db.keysAt .currentSlots + db.keysAt .currentStash +
      db.keysAt .oldPrimary + db.keysAt .overflow := rfl
  rw [total, Multiset.count_add, Multiset.count_add, Multiset.count_add] at once
  simp only [holds_iff]
  have present : ∃ place, 0 < (db.keysAt place).count key := by
    by_contra absent
    have none : ∀ place, (db.keysAt place).count key = 0 := fun place =>
      Nat.eq_zero_of_not_pos fun held => absent ⟨place, held⟩
    rw [none, none, none, none] at once
    omega
  obtain ⟨place, held⟩ := present
  refine ⟨place, held, fun other also => ?_⟩
  cases place <;> cases other <;> first | rfl | omega

end Places

section Main

/-- After any insert calls the database is exact: a lookup finds the keys of the inserts that
returned and no others, each of them is in one place, the audit is valid, a repeated key raises and
changes nothing, no insert scans more than its budget, and migrations end. A new key is accepted
just when the metadata row has room for it, and else changes nothing. -/
theorem inserts_exact_iff_room {keys : Finset String}
    (run : Run hash initialCapacity config db keys) :
    (∀ key, (lookup hash db key).found = true ↔ key ∈ keys) ∧
    (∀ key ∈ keys, ∃! place, db.holds key place) ∧
    (audit db).valid = true ∧
    (∀ key ∈ keys, insert hash key db = .error (.valueError ("duplicate key: " ++ key)) db) ∧
    (∀ key ∉ keys, (∃ trace db', insert hash key db = .ok trace db') ↔ db.info.room) ∧
    (∀ key ∉ keys, ¬ db.info.room → insert hash key db = .error tooLarge db) ∧
    (∀ key trace db', insert hash key db = .ok trace db' →
      trace.migrationSourceSlotsScanned ≤ config.migrationSlotBudget) ∧
    ∀ old traces db', db.info.old = some old → Inserts hash db traces db' →
      db.info.migrationLimit ≤
        db.info.migrationCursor + traces.length * config.migrationSlotBudget →
      ∃ earlier middle later, traces = earlier ++ later ∧ Inserts hash db earlier middle ∧
        Inserts hash middle later db' ∧ middle.info.old = none ∧ middle.info.oldRows = 0 := by
  obtain ⟨wf, stored, conf⟩ := run.wf
  have listed : ∀ key, key ∈ storedKeys db ↔ key ∈ keys := fun key => by
    rw [stored, Finset.mem_val]
  refine ⟨fun key => (wf.lookup key).trans (listed key),
    fun key member => wf.existsUnique_place ((listed key).mpr member), wf.audit,
    fun key member => wf.insert_stored ((listed key).mpr member), fun key fresh => ?_,
    fun key fresh => wf.insert_roomless fun inside => fresh ((listed key).mp inside),
    fun key trace db' ran => ?_, fun old traces db' held inserts enough => ?_⟩
  · have fresh' : key ∉ storedKeys db := fun inside => fresh ((listed key).mp inside)
    constructor
    · intro accepted
      obtain ⟨trace, db', ran⟩ := accepted
      exact (wf.inserted ran).2.1
    · intro room
      obtain ⟨trace, db', ran, _⟩ := wf.insert_new fresh' room
      exact ⟨trace, db', ran⟩
  · have inserting := (wf.inserted ran).2.2.1
    rw [← conf]
    exact inserting.scanned
  · rw [← conf] at enough
    exact inserts.completes wf held enough

def sampleHash : Hash
  | "a", .hashKey1 => 14687236291721452815
  | "a", .hashKey2 => 2056719593990461985
  | "a", .choiceKey => 5509615775317122435
  | "b", .hashKey1 => 3641734175545827243
  | "b", .hashKey2 => 15091282273451252157
  | "b", .choiceKey => 16231904148362914638
  | _, _ => 0

/-- Two slots, the smallest budget and a stash of some size. -/
def twoSlots (stashCapacity : Nat) : Config := ⟨1 / 2, "0.5", 1, 1, stashCapacity, 1, false⟩

def twoSlotsDb (stashCapacity : Nat) : Db := ⟨initialMeta 2 (twoSlots stashCapacity), ∅, ∅, ∅⟩

theorem twoSlots_initialized {stashCapacity : Nat}
    (fits : (twoSlotsDb stashCapacity).info.stores = true) :
    initializeStore none 2 (twoSlots stashCapacity) = .ok (twoSlotsDb stashCapacity) := by
  have accepted : checkConfig 2 (twoSlots stashCapacity) = .ok () := by
    have masked : 2 &&& 1 = 0 := by decide
    norm_num [checkConfig, twoSlots, masked]
  rw [initializeStore, ok_bind accepted, Option.isSome_none, if_neg Bool.false_ne_true, writeMetaTx]
  exact if_pos fits

theorem inserts_exact_iff_room_sample :
    (lookup sampleHash (finalState (insert sampleHash "a" (twoSlotsDb 1))) "a").found = true ∧
      ∃ trace db', insert sampleHash "b"
        (finalState (insert sampleHash "a" (twoSlotsDb 1))) = .ok trace db' := by
  have start : Run sampleHash 2 (twoSlots 1) (twoSlotsDb 1) ∅ :=
    .start (twoSlots_initialized (by decide +kernel))
  have accepted : returned (insert sampleHash "a" (twoSlotsDb 1)) = true := by decide +kernel
  have exact_keys := inserts_exact_iff_room (start.call "a")
  rw [if_pos accepted] at exact_keys
  obtain ⟨lookups, _, _, _, fresh, _⟩ := exact_keys
  have room : (finalState (insert sampleHash "a" (twoSlotsDb 1))).info.room := by
    unfold HybridMeta.room
    decide +kernel
  exact ⟨(lookups "a").mpr (by decide), (fresh "b" (by decide)).mpr room⟩

/-- With the largest stash that the metadata row can say, the first migration has no limit that it
can say, and the insert that would start it is refused. -/
theorem largest_stash_rejects :
    ¬ ∀ (db : Db) (keys : Finset String), Run sampleHash 2 (twoSlots (2 ^ 63 - 1)) db keys →
      ∀ key ∉ keys, ∃ trace db', insert sampleHash key db = .ok trace db' := by
  intro admits
  have start : Run sampleHash 2 (twoSlots (2 ^ 63 - 1)) (twoSlotsDb (2 ^ 63 - 1)) ∅ :=
    .start (twoSlots_initialized (by decide +kernel))
  have accepted : returned (insert sampleHash "a" (twoSlotsDb (2 ^ 63 - 1))) = true := by
    decide +kernel
  have refused : returned (insert sampleHash "b"
      (finalState (insert sampleHash "a" (twoSlotsDb (2 ^ 63 - 1))))) = false := by
    decide +kernel
  have run := start.call "a"
  rw [if_pos accepted] at run
  obtain ⟨trace, db', ran⟩ := admits _ _ run "b" (by decide)
  rw [ran] at refused
  cases refused

end Main

end DurableContext.DurableHybrid
