import DurableContext.Storage.PagePayload

/-! The pace of a migration.

A migration that scans enough slots with each insert is over before the new generation is full. The
new generation is twice as large, so the next migration, which starts when it is, keeps pace too. -/

namespace DurableContext

open BucketTable

/-! ### Counting -/

/-- The rows a generation may hold before the next one is started. -/
def quota (config : Config) (capacity : Nat) : Nat := ⌊(capacity : ℚ) * config.maxLoad⌋₊

/-- As many inserts as fill a generation migrate all of it. -/
def Ample (config : Config) (capacity : Nat) : Prop :=
  capacity + config.stashCapacity ≤ config.migrationSlotBudget * quota config capacity

variable {config : Config} {hash : Hash}

theorem two_quota_le (config : Config) (capacity : Nat) :
    2 * quota config capacity ≤ quota config (capacity * 2) := by
  unfold quota
  by_cases negative : (capacity : ℚ) * config.maxLoad < 0
  · rw [Nat.floor_of_nonpos negative.le]
    exact Nat.zero_le _
  · have floored := Nat.floor_le (not_lt.mp negative)
    apply Nat.le_floor
    push_cast
    linarith

theorem Ample.double {capacity : Nat} (ample : Ample config capacity) :
    Ample config (capacity * 2) := by
  unfold Ample at ample ⊢
  calc
    capacity * 2 + config.stashCapacity ≤ 2 * (capacity + config.stashCapacity) := by omega
    _ ≤ 2 * (config.migrationSlotBudget * quota config capacity) := Nat.mul_le_mul_left 2 ample
    _ = config.migrationSlotBudget * (2 * quota config capacity) := Nat.mul_left_comm _ _ _
    _ ≤ config.migrationSlotBudget * quota config (capacity * 2) :=
        Nat.mul_le_mul_left _ (two_quota_le config capacity)

/-- A migration that is not over has taken fewer steps than the old generation has rows. -/
theorem Ample.steps_lt {capacity steps : Nat} (ample : Ample config capacity)
    (unfinished : steps * config.migrationSlotBudget < capacity + config.stashCapacity) :
    steps < quota config capacity := by
  have most := lt_of_lt_of_le unfinished ample
  rw [Nat.mul_comm] at most
  exact Nat.lt_of_mul_lt_mul_left most

namespace Logical

variable {state state' : Logical} {key : String}

/-- The cursor and the rows after so many steps of the migration of `old`. -/
structure Stepped (config : Config) (steps : Nat) (old : OldTable) (state : Logical) : Prop where
  ample : Ample config old.capacity
  cursor : state.cursor = steps * config.migrationSlotBudget
  rows : (state.rows : Int) + state.oldRows = steps + quota config old.capacity

structure Paced (config : Config) (state : Logical) : Prop where
  idle : state.old = none → Ample config state.capacity ∧ state.rows ≤ quota config state.capacity
  running : ∀ old, state.old = some old → ∃ steps, state.Stepped config steps old

theorem fresh_paced {capacity : Nat} (ample : Ample config capacity) :
    (fresh hash config capacity).Paced config := by
  constructor
  · intro _
    exact ⟨ample, Nat.zero_le _⟩
  · intro old held
    cases held

/-- The refusal for a backlog never applies. -/
theorem Paced.room (wf : state.Wf hash config) (paced : state.Paced config) {old : OldTable}
    (held : state.old = some old) : ¬ state.full config := by
  obtain ⟨steps, stepped⟩ := paced.running old held
  have older := wf.old old held
  have running := wf.running (by rw [held]; simp)
  rw [stepped.cursor, older.limit] at running
  have fewer := stepped.ample.steps_lt running
  have twice := two_quota_le config old.capacity
  have counted := stepped.rows
  have left := older.rows
  have allowed : ¬ quota config state.capacity < state.rows + 1 := by
    rw [older.twice]
    omega
  exact allowed

/-- A migration starts when the generation has as many rows as it may have. -/
theorem Paced.rows_eq (paced : state.Paced config) (idle : state.old = none)
    (full : state.full config) : state.rows = quota config state.capacity := by
  have few := (paced.idle idle).2
  have many : quota config state.capacity < state.rows + 1 := full
  omega

theorem migrateLoop_counts (left : Nat) {old : OldTable} (held : state.old = some old)
    (below : state.cursor ≤ state.limit)
    (ran : migrateLoop hash config left old state = .ok state') :
    (state'.rows : Int) + state'.oldRows = state.rows + state.oldRows ∧
      state'.cursor = min (state.cursor + left) state.limit ∧ state'.limit = state.limit ∧
      state'.capacity = state.capacity ∧
      ∃ old', state'.old = some old' ∧ old'.capacity = old.capacity := by
  induction left generalizing old state with
  | zero =>
      cases ran
      exact ⟨rfl, by omega, rfl, rfl, old, held, rfl⟩
  | succ left ih =>
      rw [migrateLoop] at ran
      split at ran
      · rename_i more
        simp only at ran
        split at ran
        · obtain ⟨rows, cursor, limit, capacity, last⟩ := ih rfl (Nat.succ_le_of_lt more) ran
          refine ⟨rows, ?_, limit, capacity, last⟩
          rw [cursor]
          show min (state.cursor + 1 + left) state.limit = _
          rw [Nat.add_assoc, Nat.add_comm 1 left]
        · split at ran
          · obtain ⟨rows, cursor, limit, capacity, last⟩ := ih rfl (Nat.succ_le_of_lt more) ran
            refine ⟨?_, ?_, limit, capacity, last⟩
            · rw [rows]
              simp only [receive, advance]
              push_cast
              ring
            · rw [cursor]
              show min (state.cursor + 1 + left) state.limit = _
              rw [Nat.add_assoc, Nat.add_comm 1 left]
          · cases ran
      · cases ran
        exact ⟨rfl, by omega, rfl, rfl, old, held, rfl⟩

/-- One more step: the row just admitted is counted, and the migration goes on or ends. -/
theorem Stepped.migrate (steps : Nat) {old : OldTable} (mid : state.Mid hash config)
    (held : state.old = some old) (ample : Ample config old.capacity)
    (cursor : state.cursor = steps * config.migrationSlotBudget)
    (running : state.cursor < state.limit)
    (rows : (state.rows : Int) + state.oldRows = (steps + 1 : Nat) + quota config old.capacity)
    (ran : state.migrate hash config = .ok state') : state'.Paced config := by
  have older := mid.old old held
  rw [cursor, older.limit] at running
  have fewer := ample.steps_lt running
  unfold Logical.migrate at ran
  rw [held] at ran
  simp only at ran
  cases looped : migrateLoop hash config config.migrationSlotBudget old state with
  | error error => simp [looped, bind, Except.bind] at ran
  | ok middle =>
      obtain ⟨total, reached, limit, capacity, last, held', same⟩ :=
        migrateLoop_counts _ held (by rw [cursor, older.limit]; exact running.le) looped
      simp only [looped, bind, Except.bind] at ran
      split at ran
      · split at ran
        · cases ran
        · rename_i drained
          cases ran
          constructor
          · intro _
            have twice := two_quota_le config old.capacity
            show Ample config middle.capacity ∧ middle.rows ≤ quota config middle.capacity
            rw [capacity, older.twice]
            exact ⟨ample.double, by omega⟩
          · intro _ none
            cases none
      · rename_i unfinished
        cases ran
        constructor
        · intro none
          rw [held'] at none
          cases none
        · intro old' found
          rw [held'] at found
          cases found
          refine ⟨steps + 1, by rw [same]; exact ample, ?_, ?_⟩
          · rw [Nat.add_mul, Nat.one_mul]
            omega
          · rw [total, rows, same]

theorem admitKey_paced (wf : state.Wf hash config) (paced : state.Paced config)
    (fresh : key ∉ state.keys hash config) (ran : state.admitKey hash config key = .ok state') :
    state'.Paced config := by
  unfold admitKey at ran
  cases made : state.makeRoom hash config with
  | error error => simp [made, bind, Except.bind] at ran
  | ok roomy =>
      obtain ⟨room, _⟩ := makeRoom_spec wf made
      have absent : key ∉ roomy.keys hash config := by rwa [room.keys, zero_add]
      simp only [made, bind, Except.bind] at ran
      cases placed : place (scheme hash config roomy.capacity) roomy.table key with
      | none => simp [placed] at ran
      | some table =>
          have step := place_grown room.mid absent (roomy.live + 1) placed
          simp only [placed] at ran
          unfold makeRoom at made
          cases held : state.old with
          | none =>
              rw [held] at made
              split at made
              · rename_i full
                cases made
                have started := paced.rows_eq held full
                obtain ⟨ample, _⟩ := paced.idle held
                refine Stepped.migrate 0 step.mid rfl ample (Nat.zero_mul _).symm ?_ ?_ ran
                · show 0 < state.capacity + config.stashCapacity
                  exact Nat.add_pos_left wf.sized.capacity_pos _
                · show ((0 + 1 : Nat) : Int) + state.rows = _
                  rw [started]
              · rename_i spare
                cases made
                unfold migrate at ran
                rw [show ({ state with table, rows := state.rows + 1, live := state.live + 1 } :
                  Logical).old = none from held] at ran
                cases ran
                constructor
                · intro _
                  obtain ⟨ample, _⟩ := paced.idle held
                  exact ⟨ample, not_lt.mp spare⟩
                · intro old found
                  cases found
          | some old =>
              rw [if_neg (paced.room wf held)] at made
              cases made
              obtain ⟨steps, stepped⟩ := paced.running old held
              refine Stepped.migrate steps step.mid held stepped.ample stepped.cursor
                (wf.running (by rw [held]; simp)) ?_ ran
              have counted := stepped.rows
              show ((state.rows + 1 : Nat) : Int) + state.oldRows = _
              push_cast
              omega

theorem insert_paced (wf : state.Wf hash config) (paced : state.Paced config)
    (ran : state.insert hash config key = .ok (false, state')) : state'.Paced config := by
  unfold insert at ran
  split at ran
  · cases ran
  split at ran
  · cases ran
  rename_i missing
  have fresh : key ∉ state.keys hash config := fun stored =>
    missing ((found_iff wf.toMid).mpr stored)
  cases admitted : state.admitKey hash config key with
  | error error => simp [admitted, bind, Except.bind] at ran
  | ok final =>
      simp only [admitted, bind, Except.bind, Except.ok.injEq, Prod.mk.injEq, true_and] at ran
      subst ran
      exact admitKey_paced wf paced fresh admitted

end Logical

namespace FixedPage

open Program

variable {E : Type} [SuperFields E] {initialCapacity : Nat} {ext : E} {disk : Disk (Block E)} {epoch : Nat}
  {info : Meta E} {keys : Finset String} {key : String}

theorem Run.paced (run : Run hash (Settled hash) initialCapacity config ext disk keys)
    (ample : Ample config initialCapacity) :
    ∃ epoch info, info.config = config ∧ Committed hash initialCapacity disk epoch info ∧
      (info.logical (view info.config initialCapacity disk epoch)).keys hash info.config =
        keys.val ∧ (info.logical (view info.config initialCapacity disk epoch)).Paced config :=
  run.induction (Logical.Paced config) (fun _ => Logical.fresh_paced ample)
    fun _ _ _ wf paced ran => Logical.insert_paced wf paced ran

/-- With an ample budget no insert of a settled run is refused for a backlog, and every migration
starts with exactly as many rows as the capacity allows. -/
theorem ample_run_keeps_pace
    (ample : initialCapacity + config.stashCapacity ≤
      config.migrationSlotBudget * ⌊(initialCapacity : ℚ) * config.maxLoad⌋₊)
    (reached : Run hash (Settled hash) initialCapacity config ext disk keys ∨
      Inserts hash (fun disk _ key => PayloadsFit hash disk key) initialCapacity config ext disk
        keys) (failpoint : String → Bool) (key : String) :
    (∀ file, insert hash (methods hash) failpoint key ⟨disk, []⟩ ≠ .error
      (.primaryAdmissionExhausted "migration backlog reached current generation threshold") file) ∧
    ∀ trace file, insert hash (methods hash) failpoint key ⟨disk, []⟩ = .ok trace file →
      trace.migrationStarted = true → ∃ epoch info active,
        readSuper disk = .ok (epoch, info, active) ∧ info.currentRows = keys.card ∧
          info.currentRows = ⌊(info.currentCapacity : ℚ) * config.maxLoad⌋₊ := by
  have run : Run hash (Settled hash) initialCapacity config ext disk keys := by
    rcases reached with run | inserts
    · exact run
    · exact inserts.clean.run
  obtain ⟨epoch, info, conf, committed, keys_eq, paced⟩ := run.paced ample
  subst conf
  obtain ⟨active, super⟩ := committed.super
  have follows := prepareInsert_follows committed [] key
  rcases insert_run committed super [] failpoint key with ⟨trace, ran, _, _, calm⟩ |
    ⟨error, file', ran, _, refused, refusal⟩ | ⟨tx, prepared, file', ran, new, _, ready, outcome⟩
  · rw [ran]
    refine ⟨fun file failed => (by cases failed), fun trace' file ended started => ?_⟩
    cases ended
    rw [calm] at started
    cases started
  · rw [ran]
    refine ⟨fun file failed => ?_, fun trace' file ended => (by cases ended)⟩
    cases failed
    cases abstractly : (info.logical (view info.config initialCapacity disk epoch)).insert hash
        info.config key with
    | error failure =>
        rw [abstractly] at follows
        obtain ⟨_, failed, _⟩ := follows
        rw [refused] at failed
        cases failed
        rcases Logical.insert_error committed.wf abstractly with ⟨_, same⟩ | ⟨_, _, _, blocked⟩
        · cases same
        · obtain ⟨running, full⟩ := blocked rfl
          obtain ⟨old, held⟩ := Option.ne_none_iff_exists'.mp running
          exact paced.room committed.wf held full
    | ok result =>
        obtain ⟨duplicate, state⟩ := result
        rw [abstractly] at follows
        cases duplicate with
        | true =>
            obtain ⟨_, _, finished⟩ := follows
            rw [refused] at finished
            cases finished
        | false =>
            obtain ⟨_, _, _, finished, _⟩ := follows
            rw [refused] at finished
            cases finished
  · have start : prepared.migrationStarted = true →
        info.old = none ∧ threshold info < info.currentRows + 1 := by
      rw [(prepareInsert_new committed ran new).1] at follows
      obtain ⟨_, _, _, again, _, start, _⟩ := follows
      rw [ran] at again
      cases again
      exact start
    rcases outcome with ⟨done, rest, error, _, ran', stopped⟩ | ⟨trace, ran', _, same⟩ | ⟨ran', _⟩
    · rw [ran']
      refine ⟨fun file failed => ?_, fun trace' file ended => (by cases ended)⟩
      cases failed
      cases stopped.1
    · rw [ran']
      refine ⟨fun file failed => (by cases failed), fun trace' file ended started => ?_⟩
      cases ended
      rw [same] at started
      obtain ⟨idle, full⟩ := start started
      have none : (info.logical (view info.config initialCapacity disk epoch)).old = none := by
        simp [Meta.logical, idle]
      refine ⟨epoch, info, active, super, ?_, paced.rows_eq none full⟩
      have rows := committed.wf.rows
      rw [Logical.keys, Logical.oldKeys, none] at keys_eq
      rw [Option.elim_none, add_zero] at keys_eq
      rw [keys_eq] at rows
      exact rows.symm
    · rw [ran']
      refine ⟨fun file failed => (by cases failed), fun trace' file ended => (by cases ended)⟩

/-- The keyed digests of the keys below, four of them long as JSON text. -/
def backlogDigests : List (String × Digests) := [
  (controlKey 169 'Y', ⟨14329106260255396857,
    11517071250480997219, 15929834189355640913⟩),
  (controlKey 169 'O', ⟨4934239392359544977,
    4999836377026268189, 3801166248520397487⟩),
  ("k", ⟨10442490994702466081,
    4844983231475300056, 15392339252488537879⟩),
  (controlKey 169 'R', ⟨13877358480429931173,
    17466515277458320789, 534776691380807584⟩),
  ("l", ⟨9990214524722868435,
    1439676752941824884, 726719318931935978⟩),
  ("d", ⟨3951510868264231371,
    2532237523747688985, 6834201855766002719⟩),
  ("c", ⟨6621236861530022611,
    8154748018538025621, 9054101243208905128⟩),
  ("w", ⟨14914013261952395299,
    4529216214412581910, 12586722841581487382⟩),
  (controlKey 169 'U', ⟨16248716190407308427,
    17861206867129631001, 10129178106665248395⟩),
  ("e", ⟨1158470209422936062,
    14763499819697722356, 15387004674166848750⟩),
  ("x", ⟨15142027071322107698,
    5925750409938467902, 15944964867785238810⟩),
  ("o", ⟨2424535236764120303,
    7708808134743183827, 11828051414335927582⟩),
  ("i", ⟨6020043276707763880,
    17949526591051355336, 15434660831989380643⟩),
  ("g", ⟨7865541054515218305,
    700654699672571498, 7258875991898792401⟩),
  ("u", ⟨8617160131572348980,
    12297661694892180579, 16212796101009877932⟩),
  ("j", ⟨12112406116358077117,
    1118815089923374351, 5676875029789274871⟩),
  ("t", ⟨7996904275017309044,
    11206584502085119389, 16480874135974730701⟩),
  ("v", ⟨14667930045245951422,
    10464009827694464021, 9819227830419970064⟩),
  ("h", ⟨6084924334966448714,
    17825734125459648095, 14524359273399760916⟩)
]

def backlogVictims : List (String × Nat) := [
  (controlKey 169 'U' ++ "|0", 8487306329228060110),
  ("k|1", 15606549872723213996)
]

def backlogHash : Hash := digestTable backlogDigests backlogVictims

def tightBudget : Config := ⟨9 / 16, "0.5625", 4, 2, 2, 2, false⟩

theorem tightBudget_initialized :
    initializeStore none 16 tightBudget () = .ok (createdDisk (initialMeta 16 tightBudget ())) := by
  have accepted : checkConfig 16 tightBudget = .ok () := by
    have masked : 16 &&& 15 = 0 := by decide
    have pairs : 4 &&& 3 = 0 := by decide
    norm_num [checkConfig, tightBudget, masked, pairs]
  exact initializeStore_of accepted (by decide +kernel)

theorem tightBudget_ample :
    16 + tightBudget.stashCapacity ≤
      tightBudget.migrationSlotBudget * ⌊((16 : Nat) : ℚ) * tightBudget.maxLoad⌋₊ := by
  have quota : ⌊((16 : Nat) : ℚ) * tightBudget.maxLoad⌋₊ = 9 := by norm_num [tightBudget]
  rw [quota]
  decide

/-- The third and the fifth of these keys start a migration, and the others go into one. -/
def pacedCalls : List String := ["k", "l", "d", "c", "w", "e", "x", "o"]

def pacedDisk : Disk (Block Unit) :=
  afterCalls backlogHash (createdDisk (initialMeta 8 eightSlots ())) pacedCalls

theorem eightSlots_ample :
    8 + eightSlots.stashCapacity ≤
      eightSlots.migrationSlotBudget * ⌊((8 : Nat) : ℚ) * eightSlots.maxLoad⌋₊ := by
  have quota : ⌊((8 : Nat) : ℚ) * eightSlots.maxLoad⌋₊ = 2 := by norm_num [eightSlots]
  rw [quota]
  decide

/-- The ninth insert starts the third migration. -/
theorem ample_run_keeps_pace_sample :
    (∀ file, insert backlogHash (methods backlogHash) (fun _ => false) "i" ⟨pacedDisk, []⟩ ≠ .error
      (.primaryAdmissionExhausted "migration backlog reached current generation threshold") file) ∧
    ∀ trace file, insert backlogHash (methods backlogHash) (fun _ => false) "i" ⟨pacedDisk, []⟩ =
        .ok trace file →
      trace.migrationStarted = true → ∃ epoch info active,
        readSuper pacedDisk = .ok (epoch, info, active) ∧
          info.currentRows = (keysAfter backlogHash (createdDisk (initialMeta 8 eightSlots ())) ∅
            pacedCalls).card ∧
          info.currentRows = ⌊(info.currentCapacity : ℚ) * eightSlots.maxLoad⌋₊ := by
  have start : Inserts backlogHash (fun disk _ key => PayloadsFit backlogHash disk key) 8 eightSlots
      () (createdDisk (initialMeta 8 eightSlots ())) ∅ := .start _ eightSlots_initialized
  have run := start.calls pacedCalls (by decide +kernel)
  exact ample_run_keeps_pace eightSlots_ample (Or.inr run) (fun _ => false) "i"

/-- The ninth of these calls moves "k" to a page before the one that overflows, and the next call
commits that page: from then on "k" is stored twice, and the migration moves ten rows for nine. -/
def backlogDisk : Disk (Block Unit) :=
  afterCalls backlogHash (createdDisk (initialMeta 16 tightBudget ())) [
    controlKey 169 'Y', controlKey 169 'O', "k", controlKey 169 'R', "l", "d", "c", "w",
    controlKey 169 'U', "e", "x", "o", "i", "g", "u", "j", "t", "v"]

def raised : EStateM.Result StoreError (File E) InsertTrace → Option StoreError
  | .ok _ _ => none
  | .error error _ => some error

/-- With one more row than counted the migration is not over when the new generation is full. -/
theorem overflow_causes_backlog :
    (∃ keys, Inserts backlogHash (fun _ _ _ => True) 16 tightBudget () backlogDisk keys) ∧
    16 + tightBudget.stashCapacity ≤
      tightBudget.migrationSlotBudget * ⌊((16 : Nat) : ℚ) * tightBudget.maxLoad⌋₊ ∧
    raised (called backlogHash backlogDisk "h") = some (.primaryAdmissionExhausted
      "migration backlog reached current generation threshold") := by
  refine ⟨?_, tightBudget_ample, by decide +kernel⟩
  exact Inserts.afterCalls tightBudget_initialized (fun _ => True) fun _ _ => trivial

end FixedPage
end DurableContext
