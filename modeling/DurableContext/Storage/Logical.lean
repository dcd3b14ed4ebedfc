import DurableContext.Storage.FixedPage

/-! What a primary is for, with no pages and no files: at most two cuckoo tables, the keys of the
older one moving slot by slot into the newer.

`Logical.insert` is the abstract insert. It keeps `Logical.Wf`, stores the new key and loses none;
the stores over files are proved to follow it elsewhere. -/

namespace DurableContext

open BucketTable

/-- A power-of-two number of buckets, at least two, each with all its slots. -/
def Sized (config : Config) (capacity : Nat) : Prop :=
  0 < config.bucketSize ∧ ∃ k, capacity = config.bucketSize * 2 ^ (k + 1)

def scheme (hash : Hash) (config : Config) (capacity : Nat) : Scheme String where
  buckets := capacity / config.bucketSize
  bucketSize := config.bucketSize
  stashSize := config.stashCapacity
  kicks := config.maxKicks
  first := fun key => (bucketPair hash config key capacity).1
  second := fun key => (bucketPair hash config key capacity).2
  startsFirst := fun key => hash key .choiceKey &&& 1 = 0
  victim := fun key kick => victimSlot hash key kick config.bucketSize

theorem Sized.of_checks {config : Config} {capacity : Nat} (nonzero : config.bucketSize ≠ 0)
    (remainder : capacity % config.bucketSize = 0) (several : ¬ capacity / config.bucketSize ≤ 1)
    (masked : capacity / config.bucketSize &&& (capacity / config.bucketSize - 1) = 0) :
    Sized config capacity := by
  obtain ⟨k, power⟩ := (Nat.and_sub_one_eq_zero_iff_isPowerOfTwo (by omega)).mp masked
  refine ⟨Nat.pos_of_ne_zero nonzero, ?_⟩
  cases k with
  | zero => omega
  | succ k =>
      refine ⟨k, ?_⟩
      rw [← power]
      exact (Nat.mul_div_cancel' (Nat.dvd_of_mod_eq_zero remainder)).symm

theorem Sized.double {config : Config} {capacity : Nat} (sized : Sized config capacity) :
    Sized config (capacity * 2) := by
  obtain ⟨positive, k, same⟩ := sized
  exact ⟨positive, k + 1, by rw [same, pow_succ 2 (k + 1), Nat.mul_assoc]⟩

theorem Sized.capacity_pos {config : Config} {capacity : Nat} (sized : Sized config capacity) :
    0 < capacity := by
  obtain ⟨slots, k, count⟩ := sized
  rw [count]
  exact Nat.mul_pos slots (Nat.two_pow_pos _)

theorem Sized.buckets {config : Config} {capacity : Nat} (sized : Sized config capacity) :
    ∃ k, capacity / config.bucketSize = 2 ^ (k + 1) := by
  obtain ⟨positive, k, same⟩ := sized
  exact ⟨k, by rw [same, Nat.mul_div_cancel_left _ positive]⟩

theorem Sized.capacity_eq {config : Config} {capacity : Nat} (sized : Sized config capacity) :
    capacity / config.bucketSize * config.bucketSize = capacity := by
  obtain ⟨positive, k, same⟩ := sized
  rw [same, Nat.mul_div_cancel_left _ positive, Nat.mul_comm]

theorem scheme_valid (hash : Hash) {config : Config} {capacity : Nat}
    (sized : Sized config capacity) : (scheme hash config capacity).Valid := by
  obtain ⟨k, count⟩ := sized.buckets
  have masked : ∀ n, n &&& (2 ^ (k + 1) - 1) < 2 ^ (k + 1) := fun n => by
    rw [Nat.and_two_pow_sub_one_eq_mod]
    exact Nat.mod_lt _ (by positivity)
  have two : 1 < 2 ^ (k + 1) := Nat.one_lt_two_pow (by omega)
  have pair : ∀ key, (bucketPair hash config key capacity).1 < 2 ^ (k + 1) ∧
      (bucketPair hash config key capacity).2 < 2 ^ (k + 1) := by
    intro key
    have zeroth : 0 < 2 ^ (k + 1) := by omega
    simp only [bucketPair, count]
    constructor <;> split <;> split <;> first | exact masked _ | exact two | exact zeroth
  refine ⟨fun key => ?_, fun key => ?_, fun key kick => Nat.mod_lt _ sized.1⟩
  · simpa only [scheme, count] using (pair key).1
  · simpa only [scheme, count] using (pair key).2

theorem scheme_slots (hash : Hash) {config : Config} {capacity : Nat}
    (sized : Sized config capacity) :
    (scheme hash config capacity).slots = capacity + config.stashCapacity := by
  simp only [Scheme.slots, scheme, sized.capacity_eq]

structure OldTable where
  generation : Nat
  capacity : Nat
  table : Buckets String

def OldTable.drainSlot (hash : Hash) (config : Config) (old : OldTable) (cursor : Nat) :
    OldTable :=
  { old with table := clear (scheme hash config old.capacity) old.table cursor }

@[ext] structure Logical where
  generation : Nat
  capacity : Nat
  table : Buckets String
  rows : Nat
  old : Option OldTable
  oldRows : Int
  cursor : Nat
  limit : Nat
  nextGeneration : Nat
  live : Nat

namespace Logical

section Machine

variable (hash : Hash) (config : Config)

def fresh (capacity : Nat) : Logical where
  generation := 0
  capacity := capacity
  table := blank (scheme hash config capacity)
  rows := 0
  old := none
  oldRows := 0
  cursor := 0
  limit := 0
  nextGeneration := 1
  live := 0

def startMigration (state : Logical) : Logical where
  generation := state.nextGeneration
  capacity := state.capacity * 2
  table := blank (scheme hash config (state.capacity * 2))
  rows := 0
  old := some ⟨state.generation, state.capacity, state.table⟩
  oldRows := state.rows
  cursor := 0
  limit := state.capacity + config.stashCapacity
  nextGeneration := state.nextGeneration + 1
  live := state.live

def advance (state : Logical) (old : OldTable) : Logical :=
  { state with old := some old, cursor := state.cursor + 1 }

def receive (state : Logical) (table : Buckets String) : Logical :=
  { state with table, rows := state.rows + 1, oldRows := state.oldRows - 1 }

def migrateLoop : Nat → OldTable → Logical → Except StoreError Logical
  | 0, _, state => .ok state
  | left + 1, old, state =>
      if state.cursor < state.limit then
        let drained := OldTable.drainSlot hash config old state.cursor
        match slotAt (scheme hash config old.capacity) old.table state.cursor with
        | none => migrateLoop left drained (state.advance drained)
        | some key =>
            match place (scheme hash config state.capacity) state.table key with
            | some table => migrateLoop left drained ((state.advance drained).receive table)
            | none =>
                .error (.primaryAdmissionExhausted "migration destination primary exhausted")
      else .ok state

def migrate (state : Logical) : Except StoreError Logical :=
  match state.old with
  | none => .ok state
  | some old => do
      let state ← migrateLoop hash config config.migrationSlotBudget old state
      if state.limit ≤ state.cursor then
        if state.oldRows ≠ 0 then .error (.assertionError
          ("migration completed with " ++ toString state.oldRows ++ " old rows"))
        else .ok { state with old := none, cursor := 0, limit := 0 }
      else .ok state

def found (state : Logical) (key : String) : Prop :=
  holds (scheme hash config state.capacity) state.table key ∨
    ∃ old ∈ state.old, holds (scheme hash config old.capacity) old.table key

instance (state : Logical) (key : String) : Decidable (state.found hash config key) :=
  inferInstanceAs (Decidable (_ ∨ _))

def full (state : Logical) : Prop :=
  ⌊(state.capacity : ℚ) * config.maxLoad⌋₊ < state.rows + 1

instance (state : Logical) : Decidable (state.full config) := inferInstanceAs (Decidable (_ < _))

/-- Room is made by starting a migration, unless one is running already. -/
def makeRoom (state : Logical) : Except StoreError Logical :=
  if state.full config then
    match state.old with
    | none => .ok (state.startMigration hash config)
    | some _ => .error (.primaryAdmissionExhausted
        "migration backlog reached current generation threshold")
  else .ok state

def admitKey (state : Logical) (key : String) : Except StoreError Logical := do
  let state ← state.makeRoom hash config
  match place (scheme hash config state.capacity) state.table key with
  | some table => migrate hash config { state with
      table, rows := state.rows + 1, live := state.live + 1 }
  | none => .error (.primaryAdmissionExhausted "new key primary placement exhausted")

/-- The insert, and whether the key was there already. -/
def insert (state : Logical) (key : String) : Except StoreError (Bool × Logical) :=
  if 256 < key.utf8ByteSize then
    .error (.valueError "fixed-page keys are capped at 256 UTF-8 bytes")
  else if state.found hash config key then .ok (true, state)
  else do
    let state ← state.admitKey hash config key
    .ok (false, state)

def currentKeys (state : Logical) : Multiset String :=
  contents (scheme hash config state.capacity) state.table

def oldKeys (state : Logical) : Multiset String :=
  state.old.elim 0 fun old => contents (scheme hash config old.capacity) old.table

def keys (state : Logical) : Multiset String :=
  state.currentKeys hash config + state.oldKeys hash config

structure OldWf (state : Logical) (old : OldTable) : Prop where
  sized : Sized config old.capacity
  twice : state.capacity = old.capacity * 2
  table : BucketTable.Wf (scheme hash config old.capacity) old.table
  rows : state.oldRows = Multiset.card (contents (scheme hash config old.capacity) old.table)
  drained : Drained (scheme hash config old.capacity) old.table state.cursor
  limit : state.limit = old.capacity + config.stashCapacity
  succ : state.generation = old.generation + 1

/-- The invariant while a transaction is at work: the cursor may have reached the limit. -/
structure Mid (state : Logical) : Prop where
  sized : Sized config state.capacity
  table : BucketTable.Wf (scheme hash config state.capacity) state.table
  rows : Multiset.card (state.currentKeys hash config) = state.rows
  old : ∀ old, state.old = some old → OldWf hash config state old
  idle : state.old = none → state.oldRows = 0
  nodup : (state.keys hash config).Nodup
  next : state.nextGeneration = state.generation + 1

structure Wf (state : Logical) : Prop extends Mid hash config state where
  live : Multiset.card (state.keys hash config) = state.live
  running : state.old ≠ none → state.cursor < state.limit

/-- The tables are in order, whatever the counters say. -/
structure Tables (state : Logical) : Prop where
  sized : Sized config state.capacity
  table : BucketTable.Wf (scheme hash config state.capacity) state.table
  old : ∀ old, state.old = some old → Sized config old.capacity ∧
    BucketTable.Wf (scheme hash config old.capacity) old.table
  nodup : (state.keys hash config).Nodup

end Machine

section Invariant

variable {hash : Hash} {config : Config} {state state' : Logical} {key : String}

theorem Mid.tables (mid : state.Mid hash config) : state.Tables hash config :=
  ⟨mid.sized, mid.table, fun old held => ⟨(mid.old old held).sized, (mid.old old held).table⟩,
    mid.nodup⟩

theorem fresh_wf {capacity : Nat} (sized : Sized config capacity) :
    (fresh hash config capacity).Wf hash config := by
  refine ⟨⟨sized, blank_wf _, ?_, ?_, ?_, ?_, rfl⟩, ?_, ?_⟩ <;>
    simp [fresh, currentKeys, oldKeys, keys, contents_blank]

theorem fresh_keys (capacity : Nat) : (fresh hash config capacity).keys hash config = 0 := by
  simp [fresh, currentKeys, oldKeys, keys, contents_blank]

theorem found_iff (mid : state.Mid hash config) :
    state.found hash config key ↔ key ∈ state.keys hash config := by
  have current : holds _ _ key ↔ _ := holds_iff (scheme_valid hash mid.sized) mid.table
  unfold found keys currentKeys oldKeys
  rw [current, Multiset.mem_add]
  cases held : state.old with
  | none => simp
  | some old =>
      have older := mid.old old held
      simp [holds_iff (scheme_valid hash older.sized) older.table]

theorem startMigration_mid (wf : state.Wf hash config) (idle : state.old = none) :
    (state.startMigration hash config).Mid hash config := by
  have keysOf : state.keys hash config = state.currentKeys hash config := by
    simp [keys, oldKeys, idle]
  refine ⟨wf.sized.double, blank_wf _, ?_, ?_, ?_, ?_, rfl⟩
  · simp [startMigration, currentKeys, contents_blank]
  · intro old same
    simp only [startMigration, Option.some.injEq] at same
    subst same
    exact ⟨wf.sized, rfl, wf.table, by rw [← currentKeys, wf.rows]; rfl,
      fun earlier bound => absurd bound (Nat.not_lt_zero _), rfl, wf.next⟩
  · simp [startMigration]
  · have nodup := wf.nodup
    rw [keysOf] at nodup
    simpa [keys, currentKeys, oldKeys, startMigration, contents_blank] using nodup

theorem startMigration_keys (idle : state.old = none) :
    (state.startMigration hash config).keys hash config = state.keys hash config := by
  simp [keys, currentKeys, oldKeys, startMigration, contents_blank, idle]

/-- What making room, placing one key and migrating have in common: the keys afterwards are those
before and `more`. -/
structure Grown (hash : Hash) (config : Config) (more : Multiset String) (state state' : Logical) :
    Prop where
  mid : state'.Mid hash config
  keys : state'.keys hash config = more + state.keys hash config

theorem makeRoom_spec (wf : state.Wf hash config)
    (made : state.makeRoom hash config = .ok state') :
    Grown hash config 0 state state' ∧ state'.live = state.live := by
  unfold makeRoom at made
  split at made
  · split at made
    · rename_i idle
      cases made
      exact ⟨⟨startMigration_mid wf idle, by rw [startMigration_keys idle, zero_add]⟩, rfl⟩
    · cases made
  · cases made
    exact ⟨⟨wf.toMid, (zero_add _).symm⟩, rfl⟩

theorem keys_of_old {old : OldTable} (held : state.old = some old) :
    state.keys hash config = state.currentKeys hash config +
      contents (scheme hash config old.capacity) old.table := by
  simp [keys, oldKeys, held]

theorem place_grown (mid : state.Mid hash config) {table : Buckets String}
    (fresh : key ∉ state.keys hash config) (live : Nat)
    (placed : place (scheme hash config state.capacity) state.table key = some table) :
    Grown hash config {key} state { state with table, rows := state.rows + 1, live } := by
  obtain ⟨table_wf, grown⟩ := place_spec (scheme_valid hash mid.sized) mid.table placed
  have keys_eq : keys hash config { state with table, rows := state.rows + 1, live } =
      key ::ₘ state.keys hash config := by
    show contents _ table + state.oldKeys hash config = _
    rw [grown, keys, currentKeys, Multiset.cons_add]
  refine ⟨⟨mid.sized, table_wf, ?_, ?_, mid.idle, ?_, mid.next⟩, ?_⟩
  · show Multiset.card (contents _ table) = state.rows + 1
    rw [grown, Multiset.card_cons, ← currentKeys, mid.rows]
  · intro old same
    obtain ⟨sized, twice, older, rows, drained, limit, succ⟩ := mid.old old same
    exact ⟨sized, twice, older, rows, drained, limit, succ⟩
  · rw [keys_eq]
    exact Multiset.nodup_cons.mpr ⟨fresh, mid.nodup⟩
  · rw [keys_eq, Multiset.singleton_add]

theorem advance_grown (mid : state.Mid hash config) {old : OldTable} (held : state.old = some old)
    (more : state.cursor < state.limit)
    (empty : slotAt (scheme hash config old.capacity) old.table state.cursor = none) :
    Grown hash config 0 state
      (state.advance (OldTable.drainSlot hash config old state.cursor)) := by
  have older := mid.old old held
  have bound : state.cursor < (scheme hash config old.capacity).slots := by
    rw [scheme_slots hash older.sized, ← older.limit]
    exact more
  have cleared := contents_clear older.table bound
  rw [empty, entry_none, add_zero] at cleared
  have keys_eq : keys hash config
      (state.advance (OldTable.drainSlot hash config old state.cursor)) =
      state.keys hash config := by
    rw [keys_of_old held, ← cleared]
    rfl
  refine ⟨⟨mid.sized, mid.table, mid.rows, ?_, by simp [advance], by rw [keys_eq]; exact mid.nodup,
    mid.next⟩, by rw [keys_eq, zero_add]⟩
  intro _ same
  cases same
  exact ⟨older.sized, older.twice, clear_wf older.table _, older.rows.trans (by rw [← cleared]; rfl),
    older.drained.step, older.limit, older.succ⟩

theorem receive_grown (mid : state.Mid hash config) {old : OldTable} (held : state.old = some old)
    (more : state.cursor < state.limit) {table : Buckets String}
    (occupied : slotAt (scheme hash config old.capacity) old.table state.cursor = some key)
    (placed : place (scheme hash config state.capacity) state.table key = some table) :
    Grown hash config 0 state
      ((state.advance (OldTable.drainSlot hash config old state.cursor)).receive table) := by
  have older := mid.old old held
  have bound : state.cursor < (scheme hash config old.capacity).slots := by
    rw [scheme_slots hash older.sized, ← older.limit]
    exact more
  have cleared := contents_clear older.table bound
  rw [occupied, entry_some] at cleared
  obtain ⟨table_wf, grown⟩ := place_spec (scheme_valid hash mid.sized) mid.table placed
  have keys_eq : keys hash config
      ((state.advance (OldTable.drainSlot hash config old state.cursor)).receive table) =
      state.keys hash config := by
    show contents (scheme hash config state.capacity) table +
      contents (scheme hash config old.capacity) (clear _ old.table state.cursor) = _
    rw [grown, keys_of_old held, ← cleared, currentKeys, ← Multiset.singleton_add]
    abel
  refine ⟨⟨mid.sized, table_wf, ?_, ?_, by simp [advance, receive],
    by rw [keys_eq]; exact mid.nodup, mid.next⟩, by rw [keys_eq, zero_add]⟩
  · show Multiset.card (contents (scheme hash config state.capacity) table) = state.rows + 1
    rw [grown, Multiset.card_cons, ← currentKeys, mid.rows]
  · intro _ same
    cases same
    refine ⟨older.sized, older.twice, clear_wf older.table _, ?_, older.drained.step,
      older.limit, older.succ⟩
    have counted := older.rows
    rw [← cleared, Multiset.card_add, Multiset.card_singleton] at counted
    show state.oldRows - 1 =
      Multiset.card (contents (scheme hash config old.capacity) (clear _ old.table state.cursor))
    rw [counted]
    push_cast
    ring

theorem Grown.trans {more : Multiset String} {middle : Logical}
    (first : Grown hash config more state middle) (second : Grown hash config 0 middle state') :
    Grown hash config more state state' :=
  ⟨second.mid, by rw [second.keys, zero_add, first.keys]⟩

theorem migrateLoop_spec (left : Nat) {old : OldTable} (mid : state.Mid hash config)
    (held : state.old = some old) (ran : migrateLoop hash config left old state = .ok state') :
    Grown hash config 0 state state' ∧ state'.live = state.live ∧ state'.old ≠ none := by
  induction left generalizing old state with
  | zero =>
      cases ran
      exact ⟨⟨mid, (zero_add _).symm⟩, rfl, by simp [held]⟩
  | succ left ih =>
      rw [migrateLoop] at ran
      split at ran
      · rename_i more
        simp only at ran
        split at ran
        · rename_i empty
          have step := advance_grown mid held more empty
          obtain ⟨grown, live, running⟩ := ih step.mid rfl ran
          exact ⟨step.trans grown, live, running⟩
        · rename_i key occupied
          split at ran
          · rename_i table placed
            have step := receive_grown mid held more occupied placed
            obtain ⟨grown, live, running⟩ := ih step.mid rfl ran
            exact ⟨step.trans grown, live, running⟩
          · cases ran
      · cases ran
        exact ⟨⟨mid, (zero_add _).symm⟩, rfl, by simp [held]⟩

/-- Once the cursor has passed the last slot there is nothing left in the old generation. -/
theorem oldRows_of_finished (mid : state.Mid hash config) {old : OldTable}
    (held : state.old = some old) (finished : state.limit ≤ state.cursor) :
    contents (scheme hash config old.capacity) old.table = 0 ∧ state.oldRows = 0 := by
  have older := mid.old old held
  have empty := older.drained.contents_eq_zero older.table
    (by rw [scheme_slots hash older.sized, ← older.limit]; exact finished)
  exact ⟨empty, by rw [older.rows, empty]; rfl⟩

theorem migrate_spec (mid : state.Mid hash config)
    (counted : Multiset.card (state.keys hash config) = state.live)
    (ran : state.migrate hash config = .ok state') :
    state'.Wf hash config ∧ state'.keys hash config = state.keys hash config := by
  unfold migrate at ran
  split at ran
  · rename_i idle
    cases ran
    exact ⟨⟨mid, counted, fun running => absurd idle running⟩, rfl⟩
  · rename_i old held
    cases looped : migrateLoop hash config config.migrationSlotBudget old state with
    | error error => simp [looped, bind, Except.bind] at ran
    | ok middle =>
        obtain ⟨grown, live, running⟩ := migrateLoop_spec _ mid held looped
        have kept : middle.keys hash config = state.keys hash config := by
          rw [grown.keys, zero_add]
        have total : Multiset.card (middle.keys hash config) = middle.live := by
          rw [kept, counted, live]
        simp only [looped, bind, Except.bind] at ran
        split at ran
        · rename_i finished
          obtain ⟨last, left⟩ := Option.ne_none_iff_exists'.mp running
          obtain ⟨empty, none⟩ := oldRows_of_finished grown.mid left finished
          rw [if_neg (not_not.mpr none)] at ran
          cases ran
          have keys_eq : keys hash config { middle with old := Option.none, cursor := 0, limit := 0 } =
              middle.keys hash config := by
            rw [keys_of_old left, empty]
            rfl
          refine ⟨⟨⟨grown.mid.sized, grown.mid.table, grown.mid.rows, by simp, fun _ => none,
            by rw [keys_eq]; exact grown.mid.nodup, grown.mid.next⟩,
            by rw [keys_eq]; exact total, by simp⟩, by rw [keys_eq, kept]⟩
        · rename_i unfinished
          cases ran
          exact ⟨⟨grown.mid, total, fun _ => by omega⟩, kept⟩

theorem admitKey_spec (wf : state.Wf hash config) (fresh : key ∉ state.keys hash config)
    (ran : state.admitKey hash config key = .ok state') :
    state'.Wf hash config ∧ state'.keys hash config = key ::ₘ state.keys hash config := by
  unfold admitKey at ran
  cases made : state.makeRoom hash config with
  | error error => simp [made, bind, Except.bind] at ran
  | ok roomy =>
      obtain ⟨room, live⟩ := makeRoom_spec wf made
      have same : roomy.keys hash config = state.keys hash config := by rw [room.keys, zero_add]
      simp only [made, bind, Except.bind] at ran
      split at ran
      · rename_i table placed
        have step := place_grown room.mid (by rwa [same]) (roomy.live + 1) placed
        have counted : Multiset.card (keys hash config { roomy with
            table, rows := roomy.rows + 1, live := roomy.live + 1 }) = roomy.live + 1 := by
          rw [step.keys, same, Multiset.card_add, Multiset.card_singleton, wf.live, live, add_comm]
        obtain ⟨kept, keys_eq⟩ := migrate_spec step.mid counted ran
        exact ⟨kept, by rw [keys_eq, step.keys, same, Multiset.singleton_add]⟩
      · cases ran

/-- The only way to refuse a key for good. -/
def Exhausted (error : StoreError) : Prop := ∃ message, error = .primaryAdmissionExhausted message

theorem Exhausted.isExhausted {error : StoreError} (exhausted : Exhausted error) :
    error.isExhausted = true := by
  obtain ⟨message, rfl⟩ := exhausted
  rfl

/-- The refusal of an insert that would start a migration while another one is running. -/
def Backlog (error : StoreError) : Prop :=
  error = .primaryAdmissionExhausted "migration backlog reached current generation threshold"

theorem makeRoom_error {error : StoreError} (ran : state.makeRoom hash config = .error error) :
    Exhausted error ∧ state.old ≠ none ∧ state.full config := by
  unfold makeRoom at ran
  split at ran
  · rename_i full
    split at ran
    · cases ran
    · rename_i old held
      cases ran
      exact ⟨⟨_, rfl⟩, by rw [held]; simp, full⟩
  · cases ran

theorem migrateLoop_error (left : Nat) {old : OldTable} {error : StoreError}
    (ran : migrateLoop hash config left old state = .error error) :
    error = .primaryAdmissionExhausted "migration destination primary exhausted" := by
  induction left generalizing old state with
  | zero => cases ran
  | succ left ih =>
      rw [migrateLoop] at ran
      split at ran
      · simp only at ran
        split at ran
        · exact ih ran
        · split at ran
          · exact ih ran
          · cases ran
            rfl
      · cases ran

theorem migrate_error (mid : state.Mid hash config) {error : StoreError}
    (ran : state.migrate hash config = .error error) :
    error = .primaryAdmissionExhausted "migration destination primary exhausted" := by
  unfold migrate at ran
  split at ran
  · cases ran
  · rename_i old held
    cases looped : migrateLoop hash config config.migrationSlotBudget old state with
    | error failure =>
        simp only [looped, bind, Except.bind] at ran
        cases ran
        exact migrateLoop_error _ looped
    | ok middle =>
        obtain ⟨grown, _, running⟩ := migrateLoop_spec _ mid held looped
        simp only [looped, bind, Except.bind] at ran
        split at ran
        · rename_i finished
          obtain ⟨last, left⟩ := Option.ne_none_iff_exists'.mp running
          rw [if_neg (not_not.mpr (oldRows_of_finished grown.mid left finished).2)] at ran
          cases ran
        · cases ran

theorem admitKey_error (wf : state.Wf hash config) (fresh : key ∉ state.keys hash config)
    {error : StoreError} (ran : state.admitKey hash config key = .error error) :
    Exhausted error ∧ (Backlog error → state.old ≠ none ∧ state.full config) := by
  unfold admitKey at ran
  cases made : state.makeRoom hash config with
  | error failure =>
      simp only [made, bind, Except.bind] at ran
      cases ran
      obtain ⟨exhausted, blocked⟩ := makeRoom_error made
      exact ⟨exhausted, fun _ => blocked⟩
  | ok roomy =>
      obtain ⟨room, _⟩ := makeRoom_spec wf made
      simp only [made, bind, Except.bind] at ran
      split at ran
      · rename_i table placed
        have absent : key ∉ roomy.keys hash config := by rwa [room.keys, zero_add]
        have refused := migrate_error (place_grown room.mid absent (roomy.live + 1) placed).mid ran
        subst refused
        exact ⟨⟨_, rfl⟩, by simp [Backlog]⟩
      · cases ran
        exact ⟨⟨_, rfl⟩, by simp [Backlog]⟩

/-- An insert that returns keeps the invariant and stores the key once; a repeated key changes
nothing. -/
theorem insert_spec (wf : state.Wf hash config) {duplicate : Bool}
    (ran : state.insert hash config key = .ok (duplicate, state')) :
    state'.Wf hash config ∧
      (duplicate = true ∧ state' = state ∧ key ∈ state.keys hash config ∨
        duplicate = false ∧ key ∉ state.keys hash config ∧
          state'.keys hash config = key ::ₘ state.keys hash config) := by
  unfold insert at ran
  split at ran
  · cases ran
  · split at ran
    · rename_i stored
      cases ran
      exact ⟨wf, Or.inl ⟨rfl, rfl, (found_iff wf.toMid).mp stored⟩⟩
    · rename_i missing
      have fresh : key ∉ state.keys hash config := fun stored =>
        missing ((found_iff wf.toMid).mpr stored)
      cases admitted : state.admitKey hash config key with
      | error error => simp [admitted, bind, Except.bind] at ran
      | ok next =>
          simp only [admitted, bind, Except.bind] at ran
          cases ran
          obtain ⟨kept, grown⟩ := admitKey_spec wf fresh admitted
          exact ⟨kept, Or.inr ⟨rfl, fresh, grown⟩⟩

/-- An insert raises for a key that is too long, or for a new one that has nowhere to go. -/
theorem insert_error (wf : state.Wf hash config) {error : StoreError}
    (ran : state.insert hash config key = .error error) :
    256 < key.utf8ByteSize ∧
        error = .valueError "fixed-page keys are capped at 256 UTF-8 bytes" ∨
      ¬ 256 < key.utf8ByteSize ∧ Exhausted error ∧ key ∉ state.keys hash config ∧
        (Backlog error → state.old ≠ none ∧ state.full config) := by
  unfold insert at ran
  split at ran
  · rename_i long
    cases ran
    exact Or.inl ⟨long, rfl⟩
  rename_i short
  split at ran
  · cases ran
  rename_i missing
  have fresh : key ∉ state.keys hash config := fun stored =>
    missing ((found_iff wf.toMid).mpr stored)
  cases admitted : state.admitKey hash config key with
  | error failure =>
      simp only [admitted, bind, Except.bind] at ran
      cases ran
      obtain ⟨exhausted, blocked⟩ := admitKey_error wf fresh admitted
      exact Or.inr ⟨short, exhausted, fresh, blocked⟩
  | ok next =>
      simp only [admitted, bind, Except.bind] at ran
      cases ran

end Invariant

end Logical
end DurableContext
