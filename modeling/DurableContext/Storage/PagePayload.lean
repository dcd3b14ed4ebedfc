import DurableContext.Storage.FaultFree

/-! What fits on a page.

Keys are admitted by their UTF-8 length, but a page stores them as JSON text, where a character may
take six or twelve bytes. A page overflows only when the keys that meet on it are long as JSON. -/

namespace DurableContext

open BucketTable

/-! ### Who can be in a stash -/

theorem scheme_apart (hash : Hash) {config : Config} {capacity : Nat}
    (sized : Sized config capacity) (key : String) :
    (scheme hash config capacity).first key ≠ (scheme hash config capacity).second key := by
  obtain ⟨k, count⟩ := sized.buckets
  have several : 2 ≤ 2 ^ (k + 1) := by
    calc
      2 = 2 ^ 1 := rfl
      _ ≤ 2 ^ (k + 1) := Nat.pow_le_pow_right (by omega) (by omega)
  have bound := (scheme_valid hash sized).first_lt key
  simp only [scheme, bucketPair, count] at bound ⊢
  generalize (if config.forceSamePair = true then 0
    else hash key .hashKey1 &&& 2 ^ (k + 1) - 1) = first at *
  generalize (if config.forceSamePair = true then 1
    else hash key .hashKey2 &&& 2 ^ (k + 1) - 1) = second at *
  split at bound
  · rename_i same
    rw [if_pos same]
    subst same
    rw [Nat.and_two_pow_sub_one_eq_mod]
    intro wrapped
    simp only at bound wrapped
    by_cases last : second + 1 = 2 ^ (k + 1)
    · rw [last, Nat.mod_self] at wrapped
      omega
    · rw [Nat.mod_eq_of_lt (by omega)] at wrapped
      omega
  · rename_i different
    rw [if_neg different]
    exact fun same => different same.symm

namespace Logical

/-- A stash in use has two full buckets' worth of keys beside it. -/
def Backed (config : Config) (count total : Nat) : Prop :=
  0 < count → 2 * config.bucketSize + count ≤ total

structure Crowded (hash : Hash) (config : Config) (state : Logical) : Prop where
  current : Backed config (stashed (scheme hash config state.capacity) state.table).length
    (Multiset.card (state.currentKeys hash config))
  old : ∀ old, state.old = some old → Backed config
    (stashed (scheme hash config old.capacity) old.table).length
    (Multiset.card (state.keys hash config))

variable {hash : Hash} {config : Config} {state state' : Logical} {key : String}

theorem Backed.mono {count count' total total' : Nat} (backed : Backed config count total)
    (fewer : count' ≤ count) (more : total ≤ total') : Backed config count' total' := by
  intro used
  have enough := backed (by omega)
  omega

theorem fresh_crowded (hash : Hash) (config : Config) (capacity : Nat) :
    (fresh hash config capacity).Crowded hash config := by
  constructor
  · have empty : stashed (scheme hash config capacity) (blank (scheme hash config capacity)) =
        [] := by
      simp [stashed, blank, List.reduceOption_replicate_none]
    intro used
    simp only [fresh, empty] at used
    cases used
  · intro old held
    cases held

theorem startMigration_crowded (crowded : state.Crowded hash config) (idle : state.old = none) :
    (state.startMigration hash config).Crowded hash config := by
  constructor
  · have empty : stashed (scheme hash config (state.capacity * 2))
        (blank (scheme hash config (state.capacity * 2))) = [] := by
      simp [stashed, blank, List.reduceOption_replicate_none]
    intro used
    simp only [startMigration, empty] at used
    cases used
  · intro old held
    cases held
    refine crowded.current.mono le_rfl ?_
    rw [startMigration_keys idle, keys, Multiset.card_add]
    exact Nat.le_add_right _ _

theorem place_crowded (mid : state.Mid hash config) (crowded : state.Crowded hash config)
    {table : Buckets String}
    (placed : place (scheme hash config state.capacity) state.table key = some table) :
    Backed config (stashed (scheme hash config state.capacity) table).length
      (Multiset.card (contents (scheme hash config state.capacity) table)) := by
  have valid := scheme_valid hash mid.sized
  have grown := (place_spec valid mid.table placed).2
  rw [grown, Multiset.card_cons]
  rcases place_stashed valid mid.table (scheme_apart hash mid.sized key) placed with
    same | ⟨one, full⟩
  · rw [same]
    exact crowded.current.mono le_rfl (Nat.le_succ _)
  · intro _
    change 2 * config.bucketSize + _ ≤ _ at full
    omega

theorem advance_crowded (mid : state.Mid hash config) (crowded : state.Crowded hash config)
    {old : OldTable} (held : state.old = some old) (more : state.cursor < state.limit)
    (empty : slotAt (scheme hash config old.capacity) old.table state.cursor = none) :
    (state.advance (OldTable.drainSlot hash config old state.cursor)).Crowded hash config := by
  have kept := (advance_grown mid held more empty).keys
  rw [zero_add] at kept
  constructor
  · exact crowded.current
  · intro drained same
    cases same
    rw [kept]
    exact (crowded.old old held).mono (clear_stashed _ _ _) le_rfl

theorem receive_crowded (mid : state.Mid hash config) (crowded : state.Crowded hash config)
    {old : OldTable} (held : state.old = some old) (more : state.cursor < state.limit)
    {table : Buckets String}
    (occupied : slotAt (scheme hash config old.capacity) old.table state.cursor = some key)
    (placed : place (scheme hash config state.capacity) state.table key = some table) :
    ((state.advance (OldTable.drainSlot hash config old state.cursor)).receive table).Crowded hash
      config := by
  have kept := (receive_grown mid held more occupied placed).keys
  rw [zero_add] at kept
  constructor
  · exact place_crowded mid crowded placed
  · intro drained same
    cases same
    rw [kept]
    exact (crowded.old old held).mono (clear_stashed _ _ _) le_rfl

theorem migrateLoop_crowded (left : Nat) {old : OldTable} (mid : state.Mid hash config)
    (crowded : state.Crowded hash config) (held : state.old = some old)
    (ran : migrateLoop hash config left old state = .ok state') :
    state'.Crowded hash config := by
  induction left generalizing old state with
  | zero =>
      cases ran
      exact crowded
  | succ left ih =>
      rw [migrateLoop] at ran
      split at ran
      · rename_i more
        simp only at ran
        split at ran
        · rename_i empty
          exact ih (advance_grown mid held more empty).mid
            (advance_crowded mid crowded held more empty) rfl ran
        · rename_i key occupied
          split at ran
          · rename_i table placed
            exact ih (receive_grown mid held more occupied placed).mid
              (receive_crowded mid crowded held more occupied placed) rfl ran
          · cases ran
      · cases ran
        exact crowded

theorem migrate_crowded (mid : state.Mid hash config) (crowded : state.Crowded hash config)
    (ran : state.migrate hash config = .ok state') : state'.Crowded hash config := by
  unfold migrate at ran
  split at ran
  · cases ran
    exact crowded
  rename_i old held
  cases looped : migrateLoop hash config config.migrationSlotBudget old state with
  | error error => simp [looped, bind, Except.bind] at ran
  | ok middle =>
      have later := migrateLoop_crowded _ mid crowded held looped
      simp only [looped, bind, Except.bind] at ran
      split at ran
      · split at ran
        · cases ran
        · cases ran
          exact ⟨later.current, fun _ none => by cases none⟩
      · cases ran
        exact later

theorem insert_crowded (wf : state.Wf hash config) (crowded : state.Crowded hash config)
    (ran : state.insert hash config key = .ok (false, state')) : state'.Crowded hash config := by
  unfold insert at ran
  split at ran
  · cases ran
  split at ran
  · cases ran
  rename_i missing
  have fresh : key ∉ state.keys hash config := fun stored =>
    missing ((found_iff wf.toMid).mpr stored)
  unfold admitKey at ran
  cases made : state.makeRoom hash config with
  | error error => simp [made, bind, Except.bind] at ran
  | ok roomy =>
      obtain ⟨room, _⟩ := makeRoom_spec wf made
      have ready : roomy.Crowded hash config := by
        unfold makeRoom at made
        split at made
        · split at made
          · rename_i idle
            cases made
            exact startMigration_crowded crowded idle
          · cases made
        · cases made
          exact crowded
      have absent : key ∉ roomy.keys hash config := by rwa [room.keys, zero_add]
      simp only [made, bind, Except.bind] at ran
      cases placed : place (scheme hash config roomy.capacity) roomy.table key with
      | none => simp [placed] at ran
      | some table =>
          have step := place_grown room.mid absent (roomy.live + 1) placed
          have stored : Crowded hash config { roomy with
              table, rows := roomy.rows + 1, live := roomy.live + 1 } := by
            constructor
            · exact place_crowded room.mid ready placed
            · intro old held
              refine (ready.old old held).mono le_rfl ?_
              rw [step.keys, Multiset.card_add]
              exact Nat.le_add_left _ _
          simp only [placed] at ran
          cases migrated : migrate hash config { roomy with
              table, rows := roomy.rows + 1, live := roomy.live + 1 } with
          | error error => simp [migrated] at ran
          | ok final =>
              simp only [migrated] at ran
              cases ran
              exact migrate_crowded step.mid stored migrated

end Logical

/-! ### Pages -/

/-- A page of so many slots that holds these keys and no others can be encoded. -/
def FitsPage (slots : Nat) (keys : Finset String) : Prop :=
  11 + (∑ key ∈ keys, jsonKeyLength (some key)) + 4 * (slots - keys.card) + (slots - 1) ≤
    MAX_PAYLOAD

/-- The keys that meet in a bucket or in the stash of a table fit a page. -/
def TableFits (config : Config) (capacity : Nat) (table : Buckets String) : Prop :=
  ∀ index ≤ capacity / config.bucketSize,
    FitsPage (table index).length (table index).reduceOption.toFinset

structure Logical.Fit (config : Config) (state : Logical) : Prop where
  current : TableFits config state.capacity state.table
  old : ∀ old, state.old = some old → TableFits config old.capacity old.table

theorem pagePayloadLength_eq (page : Slots) :
    pagePayloadLength page = 11 + (page.reduceOption.map fun key => jsonKeyLength (some key)).sum +
      4 * (page.length - page.reduceOption.length) + (page.length - 1) := by
  have summed : (page.map jsonKeyLength).sum =
      (page.reduceOption.map fun key => jsonKeyLength (some key)).sum +
        4 * (page.length - page.reduceOption.length) := by
    induction page with
    | nil => rfl
    | cons slot rest ih =>
        have shorter := rest.reduceOption_length_le
        cases slot with
        | none =>
            rw [List.map_cons, List.sum_cons, ih, List.reduceOption_cons_of_none, jsonKeyLength,
              List.length_cons]
            omega
        | some key =>
            rw [List.map_cons, List.sum_cons, ih, List.reduceOption_cons_of_some, List.map_cons,
              List.sum_cons, List.length_cons, List.length_cons]
            omega
  unfold pagePayloadLength
  omega

theorem fitsPage_iff {page : Slots} (distinct : page.reduceOption.Nodup) :
    FitsPage page.length page.reduceOption.toFinset ↔ pagePayloadLength page ≤ MAX_PAYLOAD := by
  unfold FitsPage
  rw [List.sum_toFinset _ distinct, List.toFinset_card_of_nodup distinct, pagePayloadLength_eq]

theorem blank_fits {slots : Nat} (few : slots ≤ 8) :
    pagePayloadLength (List.replicate slots none) ≤ MAX_PAYLOAD := by
  have limit : MAX_PAYLOAD = 4072 := rfl
  rw [pagePayloadLength_eq, List.reduceOption_replicate_none, List.length_replicate,
    List.map_nil, List.sum_nil, List.length_nil]
  omega

theorem fitsPage_empty {slots : Nat} (few : slots ≤ 8) : FitsPage slots ∅ := by
  have limit : MAX_PAYLOAD = 4072 := rfl
  unfold FitsPage
  rw [Finset.sum_empty, Finset.card_empty, limit]
  omega

section Tables

variable {config : Config} {hash : Hash} {capacity : Nat} {table : Buckets String}

theorem page_le_contents (hash : Hash) (table : Buckets String) {index : Nat}
    (bound : index ≤ capacity / config.bucketSize) :
    ((table index).reduceOption : Multiset String) ≤
      contents (scheme hash config capacity) table :=
  Finset.single_le_sum_of_canonicallyOrdered
    (f := fun bucket => ((table bucket).reduceOption : Multiset String))
    (Finset.mem_range.mpr (Nat.lt_succ_of_le bound))

theorem tableFits_iff (distinct : (contents (scheme hash config capacity) table).Nodup) :
    TableFits config capacity table ↔
      ∀ index ≤ capacity / config.bucketSize, pagePayloadLength (table index) ≤ MAX_PAYLOAD := by
  refine forall₂_congr fun index bound => fitsPage_iff ?_
  exact Multiset.coe_nodup.mp (Multiset.nodup_of_le (page_le_contents hash table bound) distinct)

theorem TableFits.of_empty (few : config.bucketSize ≤ 8 ∧ config.stashCapacity ≤ 8)
    (wf : BucketTable.Wf (scheme hash config capacity) table)
    (empty : contents (scheme hash config capacity) table = 0) :
    TableFits config capacity table := by
  intro index bound
  have part := page_le_contents hash table bound
  rw [empty, Multiset.le_zero, Multiset.coe_eq_zero] at part
  have size : (table index).length = (scheme hash config capacity).slotsAt index :=
    wf.shape index bound
  rw [part, List.toFinset_nil]
  refine fitsPage_empty ?_
  rw [size, Scheme.slotsAt]
  split
  · exact few.2
  · exact few.1

end Tables

namespace Logical

variable {hash : Hash} {config : Config} {state : Logical}

theorem nodup_current (distinct : (state.keys hash config).Nodup) :
    (contents (scheme hash config state.capacity) state.table).Nodup :=
  Multiset.nodup_of_le (Multiset.le_add_right _ _) distinct

theorem nodup_old (distinct : (state.keys hash config).Nodup) {old : OldTable}
    (held : state.old = some old) :
    (contents (scheme hash config old.capacity) old.table).Nodup := by
  refine Multiset.nodup_of_le ?_ distinct
  rw [keys, oldKeys, held]
  exact Multiset.le_add_left _ _

end Logical

/-! ### When short keys suffice -/

/-- Wherever they meet, the stored keys and the new one fit: any that a bucket has slots for, and
any that can be in the stash while two buckets are full of others. -/
structure Roomy (config : Config) (stored : Finset String) (key : String) : Prop where
  bucket : ∀ met ⊆ stored ∪ {key}, met.card ≤ config.bucketSize → FitsPage config.bucketSize met
  stash : ∀ met ⊆ stored ∪ {key}, met.card ≤ config.stashCapacity →
    2 * config.bucketSize + met.card ≤ (stored ∪ {key}).card → FitsPage config.stashCapacity met

section Roomy

variable {config : Config} {hash : Hash} {stored : Finset String} {key : String}

theorem Roomy.table {capacity : Nat} {table : Buckets String} (roomy : Roomy config stored key)
    (few : config.stashCapacity ≤ 8) (wf : BucketTable.Wf (scheme hash config capacity) table)
    (held : contents (scheme hash config capacity) table ≤ (stored ∪ {key}).val)
    (backed : Logical.Backed config (stashed (scheme hash config capacity) table).length
      (stored ∪ {key}).card) : TableFits config capacity table := by
  intro index bound
  have part := (page_le_contents hash table bound).trans held
  have distinct : (table index).reduceOption.Nodup :=
    Multiset.coe_nodup.mp (Multiset.nodup_of_le part (stored ∪ {key}).nodup)
  have inside : (table index).reduceOption.toFinset ⊆ stored ∪ {key} := by
    intro other member
    exact Multiset.mem_of_le part (List.mem_toFinset.mp member)
  have count := List.toFinset_card_of_nodup distinct
  have size : (table index).length = (scheme hash config capacity).slotsAt index :=
    wf.shape index bound
  have at_most := (table index).reduceOption_length_le
  rcases Nat.lt_or_eq_of_le bound with below | atStash
  · have slots : (scheme hash config capacity).slotsAt index = config.bucketSize := if_neg below.ne
    rw [size, slots] at at_most ⊢
    exact roomy.bucket _ inside (by omega)
  · have slots : (scheme hash config capacity).slotsAt index = config.stashCapacity :=
      if_pos atStash
    rw [size, slots] at at_most ⊢
    by_cases unused : (table index).reduceOption = []
    · rw [unused]
      exact fitsPage_empty few
    · have used : 0 < (table index).reduceOption.length := List.length_pos_iff.mpr unused
      have here : (scheme hash config capacity).buckets = index := atStash.symm
      have many : Logical.Backed config (table index).reduceOption.length
          (stored ∪ {key}).card := by
        rw [stashed, here] at backed
        exact backed
      have enough := many used
      exact roomy.stash _ inside (by omega) (by omega)

theorem Roomy.fit {state : Logical} (roomy : Roomy config stored key)
    (few : config.stashCapacity ≤ 8) (mid : state.Mid hash config)
    (crowded : state.Crowded hash config)
    (total : state.keys hash config = (stored ∪ {key}).val) : state.Fit config := by
  have count : Multiset.card (stored ∪ {key}).val = (stored ∪ {key}).card := rfl
  constructor
  · have part : state.currentKeys hash config ≤ (stored ∪ {key}).val := by
      rw [← total]
      exact Multiset.le_add_right _ _
    refine roomy.table few mid.table part ?_
    exact crowded.current.mono le_rfl ((Multiset.card_le_card part).trans count.le)
  · intro old held
    have part : contents (scheme hash config old.capacity) old.table ≤ (stored ∪ {key}).val := by
      rw [← total, Logical.keys, Logical.oldKeys, held]
      exact Multiset.le_add_left _ _
    refine roomy.table few (mid.old old held).table part ?_
    refine (crowded.old old held).mono le_rfl ?_
    rw [total]
    exact count.le

/-- Keys of at most 506 bytes as JSON text always find room. -/
theorem roomy_of_short (buckets : config.bucketSize = 4) (stash : config.stashCapacity = 8)
    (short : ∀ other ∈ stored ∪ {key}, jsonKeyLength (some other) ≤ 506) :
    Roomy config stored key := by
  have fits : ∀ slots ≤ 8, ∀ met ⊆ stored ∪ {key}, met.card ≤ slots → FitsPage slots met := by
    intro slots few met inside count
    have summed : ∑ other ∈ met, jsonKeyLength (some other) ≤ met.card * 506 :=
      Finset.sum_le_card_nsmul _ _ _ fun other member => short other (inside member)
    have limit : MAX_PAYLOAD = 4072 := rfl
    unfold FitsPage
    omega
  constructor
  · intro met inside count
    rw [buckets] at count ⊢
    exact fits 4 (by omega) met inside count
  · intro met inside count _
    rw [stash] at count ⊢
    exact fits 8 le_rfl met inside count

end Roomy

namespace FixedPage

open Program

variable {E : Type} [SuperFields E] {hash : Hash} {initialCapacity : Nat} {config : Config} {ext : E}
  {disk disk' : Disk (Block E)} {epoch : Nat} {info : Meta E} {keys : Finset String} {key : String}

/-! ### The pages an insert writes -/

omit [SuperFields E] in
/-- What an insert writes lies in the generations it worked on: their pages fit, and a generation it
drained is empty. -/
theorem Worked.fits {stored : Nat → Slots} {held : Multiset String} {tx : Txn E}
    {older : Option OldGeneration} (worked : Worked hash stored held tx older)
    (few : tx.info.config.bucketSize ≤ 8 ∧ tx.info.config.stashCapacity ≤ 8)
    (fit : (tx.logical stored).Fit tx.info.config) : PagesFit tx := by
  intro page slots changed
  have shows : tx.view stored page = slots := by
    unfold Txn.view
    rw [changed]
    rfl
  have distinct := worked.tables.nodup
  rw [← shows]
  rcases worked.changed page slots changed with ⟨index, bound, here⟩ | ⟨old, held, index, bound, here⟩
  · have shown : tx.view stored page = (tx.logical stored).table index := by
      rw [here]
      exact (if_pos bound).symm
    rw [shown]
    exact (tableFits_iff (Logical.nodup_current distinct)).mp fit.current index bound
  · have kept : (({ tx.info with old := older } : Meta E).logical (tx.view stored)).old =
        some (old.table tx.info.config (tx.view stored)) := by
      change older.map _ = _
      rw [show older = some old from held]
      rfl
    have shown : tx.view stored page = (old.table tx.info.config (tx.view stored)).table index := by
      rw [here]
      exact (if_pos bound).symm
    rw [shown]
    refine (tableFits_iff (Logical.nodup_old distinct kept)).mp ?_ index bound
    rcases worked.running with finished | running
    · exact .of_empty few (worked.tables.old _ kept).2 (worked.drained finished old held)
    · refine fit.old _ ?_
      rw [← kept, ← running]
      rfl

omit [SuperFields E] in
theorem logical_fit {info : Meta E} {shown : Nat → Slots}
    (distinct : ((info.logical shown).keys hash info.config).Nodup)
    (fits : ∀ page, pagePayloadLength (shown page) ≤ MAX_PAYLOAD) :
    (info.logical shown).Fit info.config := by
  have region : ∀ base capacity index, index ≤ capacity / info.config.bucketSize →
      pagePayloadLength (tableAt shown base (capacity / info.config.bucketSize) index) ≤
        MAX_PAYLOAD := by
    intro base capacity index bound
    rw [tableAt_apply _ _ bound]
    exact fits _
  constructor
  · exact (tableFits_iff (Logical.nodup_current distinct)).mpr (region _ _)
  · intro old held
    refine (tableFits_iff (Logical.nodup_old distinct held)).mpr ?_
    obtain ⟨generation, _, rfl⟩ := Option.map_eq_some_iff.mp held
    exact region _ _

theorem writePages_ok_fits {newEpoch : Nat} {changes : List (Nat × Slots)} {file file' : File E}
    {done : Unit} (ran : writePages (methods hash) epoch newEpoch changes file = .ok done file') :
    ∀ change ∈ changes, pagePayloadLength change.2 ≤ MAX_PAYLOAD := by
  induction changes generalizing file with
  | nil => simp
  | cons change rest ih =>
      obtain ⟨page, slots⟩ := change
      have head := writeLogicalPage_run page epoch newEpoch slots file
      have unfolded : writePages (methods hash) epoch newEpoch ((page, slots) :: rest) =
          (writeLogicalPage page epoch newEpoch slots >>= fun _ =>
            writePages (methods hash) epoch newEpoch rest : Op StoreError (File E) Unit) :=
        List.forM_cons
      rw [unfolded] at ran
      cases packed : (packPage newEpoch slots : Except StoreError (Block E)) with
      | error error =>
          rw [packed] at head
          rw [bind_of_error head] at ran
          cases ran
      | ok block =>
          rw [packed] at head
          rw [bind_of_ok head] at ran
          rw [List.forall_mem_cons]
          refine ⟨?_, ih ran⟩
          by_contra large
          rw [packPage, if_pos (Nat.lt_of_not_le large)] at packed
          cases packed

theorem Call.pagesFit (committed : Committed hash initialCapacity disk epoch info)
    (called : Call hash disk key true disk') {tx : Txn E} {prepared : Prepared} {file : File E}
    (ran : prepareInsert hash (methods hash) epoch info key ⟨disk, []⟩ = .ok (tx, prepared) file) :
    PagesFit tx := by
  obtain ⟨active, super⟩ := committed.super
  intro page slots changed
  rcases prepareInsert_ok committed [] key with ⟨_, again, untouched, _⟩ |
    ⟨_, _, _, again, new, extended, _⟩ | ⟨_, _, again, _⟩
  · rw [ran] at again
    cases again
    rw [untouched] at changed
    cases changed
  · rw [ran] at again
    cases again
    generalize outcome : true = flag at called
    cases called with
    | killed => cases outcome
    | torn => cases outcome
    | finished failpoint =>
        cases wrote : writePages (methods hash) epoch (epoch + 1) tx.sortedChanges file with
        | ok done file' =>
            exact writePages_ok_fits wrote (page, slots) (mem_sortedChanges.mpr changed)
        | error error file' =>
            -- A page that cannot be encoded ends the call before its superblock.
            have failed : insert hash (methods hash) failpoint key ⟨disk, []⟩ =
                .error error file' := by
              rw [insert_begun super ran new failpoint, bind_of_error wrote]
            rw [failed] at outcome
            obtain ⟨done, _, _, ⟨finished, _⟩ | ⟨_, stopped, _⟩⟩ :=
              writePages_run hash epoch (epoch + 1) tx.sortedChanges file (sortedChanges_nodup tx)
            · rw [wrote] at finished
              cases finished
            · rw [wrote] at stopped
              cases stopped
              have plain := extended.plain
              simp [finalState, File.written, plain, pageWrite, isSuperblock] at outcome
  · rw [ran] at again
    cases again

theorem Run.shown_fits (run : Run hash (Settled hash) initialCapacity config ext disk keys)
    (few : config.bucketSize ≤ 8 ∧ config.stashCapacity ≤ 8) {active : Bool}
    (super : readSuper disk = .ok (epoch, info, active)) (page : Nat) :
    pagePayloadLength (view info.config initialCapacity disk epoch page) ≤ MAX_PAYLOAD := by
  induction run generalizing epoch info active with
  | start disk created =>
      obtain ⟨_, _, rfl⟩ := initializeStore_eq created
      rw [createdDisk_super] at super
      cases super
      rw [view, pageAt_blank (createdDisk_page _ _)]
      refine blank_fits ?_
      rw [Layout.role]
      split
      · exact few.2
      · exact few.1
  | call before called fine ih =>
      rename_i disk disk' keys key flag
      obtain ⟨epoch', info', _, committed, _⟩ := before.committed
      obtain ⟨active', super'⟩ := committed.super
      cases flag with
      | false =>
          have abandoned := called.uncommitted committed
          rw [abandoned.readSuper super'] at super
          cases super
          rw [abandoned.view committed]
          exact ih super'
      | true =>
          obtain ⟨tx, _, _, ran, ready, _, next, _, pages⟩ :=
            called.committed committed (fine rfl)
          obtain ⟨_, moved⟩ := next.super
          rw [moved] at super
          cases super
          rw [view, ready.config]
          cases changed : tx.changes.lookup page with
          | none =>
              have kept := (pages page).2 (AList.lookup_eq_none.mp changed)
                ((layout info'.config initialCapacity).role info'.config page)
              rw [readLogicalPage_eq, readLogicalPage_eq, Except.ok.injEq] at kept
              rw [kept]
              exact ih super'
          | some slots =>
              have shown := (pages page).1 slots changed
              rw [readLogicalPage_eq, (ready.shape page slots changed).2, Except.ok.injEq] at shown
              rw [shown]
              exact called.pagesFit committed ran page slots changed

/-- Where the placement brings keys together, they fit: in every bucket and stash of the tables as
the insert would leave them. The superblock fits too, while there is an epoch for it. -/
structure RoomFor (hash : Hash) (initialCapacity : Nat) (disk : Disk (Block E)) (key : String) :
    Prop where
  tables : ∀ epoch info active after, readSuper disk = .ok (epoch, info, active) →
    (info.logical (view info.config initialCapacity disk epoch)).insert hash info.config key =
      .ok (false, after) → after.Fit info.config
  superblock : ∀ epoch info active, readSuper disk = .ok (epoch, info, active) →
    epoch + 1 < 2 ^ 64 → ∀ tx, plannedTx hash disk key = some tx →
      superPayloadLength tx.info ≤ MAX_PAYLOAD

theorem prepareInsert_config (committed : Committed hash initialCapacity disk epoch info)
    {tx : Txn E} {prepared : Prepared} {file : File E}
    (ran : prepareInsert hash (methods hash) epoch info key ⟨disk, []⟩ = .ok (tx, prepared) file)
    (new : prepared.duplicate = false) : tx.info.config = info.config := by
  rcases prepareInsert_ok committed [] key with ⟨_, again, _⟩ | ⟨_, _, _, again, _, _, ready⟩ |
    ⟨_, _, again, _⟩
  · rw [ran] at again
    cases again
    cases new
  · rw [ran] at again
    cases again
    exact ready.config
  · rw [ran] at again
    cases again

/-- The condition of `RoomFor`, said of the keys that meet, is exact for what can be encoded. -/
theorem Run.roomFor_iff (run : Run hash (Settled hash) initialCapacity config ext disk keys)
    (few : config.bucketSize ≤ 8 ∧ config.stashCapacity ≤ 8) :
    RoomFor hash initialCapacity disk key ↔ PayloadsFit hash disk key := by
  obtain ⟨epoch, info, conf, committed, _⟩ := run.committed
  subst conf
  obtain ⟨active, super⟩ := committed.super
  constructor
  · intro room epoch' info' active' found tx planned
    rw [super] at found
    cases found
    obtain ⟨prepared, file, ran, new⟩ := plannedTx_some super planned
    obtain ⟨inserted, older, worked⟩ := prepareInsert_new committed ran new
    have conf := prepareInsert_config committed ran new
    refine ⟨worked.fits ?_ ?_, fun early => room.superblock epoch info active super early tx planned⟩
    · rw [conf]
      exact few
    · rw [conf]
      exact room.tables epoch info active _ super inserted
  · intro fit
    constructor
    · intro epoch' info' active' after found inserted
      rw [super] at found
      cases found
      have follows := prepareInsert_follows committed [] key
      rw [inserted] at follows
      obtain ⟨tx, prepared, file, ran, new, _, _, ready, _, rfl⟩ := follows
      have planned : plannedTx hash disk key = some tx := by
        rw [plannedTx_ok super ran, new, if_neg Bool.false_ne_true]
      have pages := (fit epoch info active super tx planned).1
      have distinct := ready.wf.nodup
      rw [← ready.config] at distinct ⊢
      refine logical_fit distinct fun page => ?_
      unfold Txn.view
      cases changed : tx.changes.lookup page with
      | none =>
          rw [ready.config]
          exact run.shown_fits few super page
      | some slots => exact pages page slots changed
    · intro epoch' info' active' found early tx planned
      exact (fit epoch' info' active' found tx planned).2 early

theorem Run.roomFor_of_roomy (run : Run hash (Settled hash) initialCapacity config ext disk keys)
    (few : config.stashCapacity ≤ 8) (roomy : Roomy config keys key)
    (small : ∀ epoch info active, readSuper disk = .ok (epoch, info, active) →
      epoch + 1 < 2 ^ 64 → ∀ tx, plannedTx hash disk key = some tx →
        superPayloadLength tx.info ≤ MAX_PAYLOAD) : RoomFor hash initialCapacity disk key := by
  obtain ⟨epoch, info, conf, committed, keys_eq, crowded⟩ :=
    run.induction (Logical.Crowded hash config)
      (fun _ => Logical.fresh_crowded hash config initialCapacity)
      fun _ _ _ wf crowded ran => Logical.insert_crowded wf crowded ran
  subst conf
  obtain ⟨active, super⟩ := committed.super
  refine ⟨fun epoch' info' active' after found inserted => ?_, small⟩
  rw [super] at found
  cases found
  have later := Logical.insert_crowded committed.wf crowded inserted
  rcases (Logical.insert_spec committed.wf inserted) with ⟨wf, ⟨known, _⟩ | ⟨_, fresh, total⟩⟩
  · cases known
  · refine roomy.fit few wf.toMid later ?_
    rw [keys_eq, Finset.mem_val] at fresh
    rw [total, keys_eq, Finset.union_comm, ← Finset.insert_eq, Finset.insert_val_of_notMem fresh]

theorem Inserts.clean_of_roomFor (few : config.bucketSize ≤ 8 ∧ config.stashCapacity ≤ 8)
    (inserts : Inserts hash (fun disk _ key => RoomFor hash initialCapacity disk key)
      initialCapacity config ext disk keys) : Clean hash initialCapacity config ext disk keys := by
  induction inserts with
  | start disk created => exact .start created
  | insert before key room ih => exact ih.insert ((ih.run.roomFor_iff few).mp room)

def isPageWrite : Effect (Block E) → Bool
  | .pwrite _ (.page _ _) => true
  | _ => false

omit [SuperFields E] in
theorem Extended.unwritten {pages : Nat} {file : File E} (extended : Extended disk [] pages file) :
    file.log.any isPageWrite = false := by
  cases extended with
  | same => rfl
  | grown => rfl

/-- A superblock that cannot be encoded is found out when all pages are written. -/
theorem called_superblock (committed : Committed hash initialCapacity disk epoch info)
    {active : Bool} (super : readSuper disk = .ok (epoch, info, active)) {tx : Txn E}
    (planned : plannedTx hash disk key = some tx) (pages : PagesFit tx)
    (early : epoch + 1 < 2 ^ 64) (large : MAX_PAYLOAD < superPayloadLength tx.info) :
    ∃ message file, called hash disk key = .error (.valueError message) file := by
  obtain ⟨prepared, file, ran, new⟩ := plannedTx_some super planned
  rcases prepareInsert_ok committed [] key with ⟨_, again, _⟩ |
    ⟨_, _, _, again, _, extended, ready⟩ | ⟨_, _, again, _⟩
  · rw [ran] at again
    cases again
    cases new
  · rw [ran] at again
    cases again
    have fits : ∀ change ∈ tx.sortedChanges, pagePayloadLength change.2 ≤ MAX_PAYLOAD :=
      fun change member => pages change.1 change.2 (mem_sortedChanges.mp member)
    have kept := ready.kept committed super extended
    have packed : (packSuper (epoch + 1) tx.info : Except StoreError (Block E)) =
        .error (.valueError
          ("fixed page payload too large: " ++ toString (superPayloadLength tx.info))) := by
      rw [packSuper, if_pos large]
    have failed := writeSuper_refused kept packed epoch
    unfold called
    rw [insert_begun super ran new,
      bind_of_ok (writePages_fit hash file (sortedChanges_nodup tx) early fits),
      bind_of_ok (reach_run _ _ _), bind_of_ok (reach_run _ _ _),
      bind_of_error (show (methods hash).writeSuper _ _ _ _ = _ from failed)]
    exact ⟨_, _, rfl⟩
  · rw [ran] at again
    cases again

def eightSlots : Config := ⟨1 / 4, "0.25", 4, 32, 8, 8, false⟩

theorem eightSlots_initialized :
    initializeStore none 8 eightSlots () = .ok (createdDisk (initialMeta 8 eightSlots ())) := by
  have accepted : checkConfig 8 eightSlots = .ok () := by
    have masked : 8 &&& 7 = 0 := by decide
    have pairs : 2 &&& 1 = 0 := by decide
    norm_num [checkConfig, eightSlots, masked, pairs]
  exact initializeStore_of accepted (by decide +kernel)

/-- A key of which all characters but the first take six bytes as JSON text. -/
def controlKey (controls : Nat) (first : Char) : String :=
  String.ofList (first :: List.replicate controls (Char.ofNat 1))

theorem controlKey_byteSize (controls : Nat) (first : Char) :
    (controlKey controls first).utf8ByteSize = first.utf8Size + controls := by
  have run : (String.ofList (List.replicate controls (Char.ofNat 1))).utf8ByteSize = controls := by
    induction controls with
    | zero => rfl
    | succ controls grown =>
        rw [List.replicate_succ', String.ofList_append, String.utf8ByteSize_append, grown]
        rfl
  rw [controlKey, ← List.singleton_append, String.ofList_append, String.utf8ByteSize_append, run,
    ← String.singleton_eq_ofList, String.utf8ByteSize_singleton]

/-- The keyed digests of three such keys of 256 bytes. -/
def controlDigests : List (String × Digests) := [
  (controlKey 255 'a', ⟨13522594215139451058,
    9382015548874838081, 4508631617030740309⟩),
  (controlKey 255 'r', ⟨7513348606860068382,
    17931561894528561358, 10853211636517345635⟩),
  (controlKey 255 'x', ⟨2215839976779356782,
    15302667195087256887, 6366107580170128652⟩)
]

def controlDisk : Disk (Block Unit) :=
  afterCalls (digestTable controlDigests []) (createdDisk (initialMeta 8 eightSlots ()))
    [controlKey 255 'a', controlKey 255 'r']

/-- A `ValueError` out of an insert that had already written a page. -/
def failedMidway : EStateM.Result StoreError (File E) InsertTrace → Bool
  | .error (.valueError _) file => file.log.any isPageWrite
  | _ => false

end FixedPage
end DurableContext
