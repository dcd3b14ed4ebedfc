import DurableContext.Storage.FixedPageRuns

/-! Runs of inserts that nothing interrupts: no failpoint raises and no process is killed, so a call
returns or raises by itself.

No page copy is ever tagged above the committed epoch then, which settles every commit. -/

namespace DurableContext.FixedPage

open BucketTable Program

variable {E : Type} [SuperFields E] {hash : Hash} {initialCapacity : Nat} {config : Config} {ext : E}
  {disk disk' : Disk (Block E)} {epoch : Nat} {info : Meta E} {key : String}

def called (hash : Hash) (disk : Disk (Block E)) (key : String) :
    EStateM.Result StoreError (File E) InsertTrace :=
  insert hash (methods hash) (fun _ => false) key ⟨disk, []⟩

/-- Every page that the insert would rewrite can be encoded, and so can the superblock it would
come to while there is an epoch for it. -/
def PayloadsFit (hash : Hash) (disk : Disk (Block E)) (key : String) : Prop :=
  ∀ epoch info active, readSuper disk = .ok (epoch, info, active) →
    ∀ tx, plannedTx hash disk key = some tx →
      PagesFit tx ∧ (epoch + 1 < 2 ^ 64 → superPayloadLength tx.info ≤ MAX_PAYLOAD)

/-- Sequences of insert calls; the keys are those of the calls that returned. -/
inductive Inserts (hash : Hash) (allowed : Disk (Block E) → Finset String → String → Prop)
    (initialCapacity : Nat) (config : Config) (ext : E) : Disk (Block E) → Finset String → Prop
  | start (disk : Disk (Block E))
      (created : initializeStore none initialCapacity config ext = .ok disk) :
      Inserts hash allowed initialCapacity config ext disk ∅
  | insert {disk : Disk (Block E)} {keys : Finset String}
      (before : Inserts hash allowed initialCapacity config ext disk keys) (key : String)
      (fine : allowed disk keys key) :
      Inserts hash allowed initialCapacity config ext (finalState (called hash disk key)).disk
        (if returned (called hash disk key) then keys ∪ {key} else keys)

def afterCalls (hash : Hash) (disk : Disk (Block E)) (calls : List String) : Disk (Block E) :=
  calls.foldl (fun disk key => (finalState (called hash disk key)).disk) disk

theorem Inserts.afterCalls {calls : List String}
    (created : initializeStore none initialCapacity config ext = .ok disk)
    (allowed : String → Prop) (fine : ∀ key ∈ calls, allowed key) :
    ∃ keys, Inserts hash (fun _ _ key => allowed key) initialCapacity config ext
      (afterCalls hash disk calls) keys := by
  induction calls using List.reverseRecOn with
  | nil => exact ⟨∅, .start disk created⟩
  | append_singleton calls key ih =>
      obtain ⟨keys, before⟩ := ih fun other member => fine other (List.mem_append_left _ member)
      have step := before.insert key (fine key (by simp))
      unfold FixedPage.afterCalls at step ⊢
      rw [List.foldl_append]
      exact ⟨_, step⟩

structure Digests where
  first : Nat
  second : Nat
  choice : Nat

/-- The hash given by a table of digests, and by a table of those that choose victims. -/
def digestTable (digests : List (String × Digests)) (victims : List (String × Nat)) : Hash :=
  fun key use => match use with
    | .hashKey1 => (digests.lookup key).elim 0 Digests.first
    | .hashKey2 => (digests.lookup key).elim 0 Digests.second
    | .choiceKey => (digests.lookup key).elim 0 Digests.choice
    | .victimKey => (victims.lookup key).getD 0

/-! ### One call -/

theorem writePages_fit (hash : Hash) {newEpoch : Nat} {changes : List (Nat × Slots)}
    (file : File E) (distinct : (changes.map Prod.fst).Nodup) (early : newEpoch < 2 ^ 64)
    (fit : ∀ change ∈ changes, pagePayloadLength change.2 ≤ MAX_PAYLOAD) :
    writePages (methods hash) epoch newEpoch changes file =
      .ok ⟨⟩ (file.written epoch newEpoch changes) := by
  obtain ⟨done, rest, split, ⟨ran, rfl⟩ | ⟨error, _, page, keys, member, packed⟩⟩ :=
    writePages_run hash epoch newEpoch changes file distinct
  · rw [List.append_nil] at split
    subst split
    exact ran
  · have fits : pagePayloadLength keys ≤ MAX_PAYLOAD := fit _ member
    rcases (packPage_error packed).1 with large | late <;> omega

/-- Past the last epoch that can be encoded no page is written. -/
theorem writePages_late (hash : Hash) {newEpoch : Nat} {changes : List (Nat × Slots)}
    (file : File E) (late : 2 ^ 64 ≤ newEpoch) (some_page : changes ≠ [])
    (fit : ∀ change ∈ changes, pagePayloadLength change.2 ≤ MAX_PAYLOAD) :
    writePages (methods hash) epoch newEpoch changes file = .error .structError file := by
  cases changes with
  | nil => exact absurd rfl some_page
  | cons change rest =>
      obtain ⟨page, keys⟩ := change
      have fits : pagePayloadLength keys ≤ MAX_PAYLOAD := fit _ List.mem_cons_self
      have packed : (packPage newEpoch keys : Except StoreError (Block E)) =
          .error .structError := by
        rw [packPage, if_neg (Nat.not_lt.mpr fits), if_pos late]
      have head := writeLogicalPage_run page epoch newEpoch keys file
      rw [packed] at head
      have unfolded : writePages (methods hash) epoch newEpoch ((page, keys) :: rest) =
          (writeLogicalPage page epoch newEpoch keys >>= fun _ =>
            writePages (methods hash) epoch newEpoch rest : Op StoreError (File E) Unit) :=
        List.forM_cons
      rw [unfolded, bind_of_error head]

omit [SuperFields E] in
theorem sortedChanges_ne_nil {tx : Txn E} (touched : tx.changes ≠ ∅) : tx.sortedChanges ≠ [] := by
  intro none
  refine touched (AList.ext (List.eq_nil_iff_forall_not_mem.mpr ?_))
  rintro ⟨page, keys⟩ entry
  have change := mem_sortedChanges.mpr (AList.mem_lookup_iff.mpr entry)
  rw [none] at change
  cases change

theorem called_follows (committed : Committed hash initialCapacity disk epoch info) {active : Bool}
    (super : readSuper disk = .ok (epoch, info, active)) (fit : PayloadsFit hash disk key) :
    match (info.logical (view info.config initialCapacity disk epoch)).insert hash info.config
        key with
    | .ok (true, _) => ∃ trace, called hash disk key = .ok trace ⟨disk, []⟩ ∧
        trace.duplicate = true
    | .ok (false, state) => ∃ tx prepared file',
        prepareInsert hash (methods hash) epoch info key ⟨disk, []⟩ = .ok (tx, prepared) file' ∧
        Extended disk [] info.startMigration.nextPageId file' ∧
        Ready hash initialCapacity disk epoch info key tx ∧
        tx.logical (view info.config initialCapacity disk epoch) = state ∧
        ((∃ trace, called hash disk key = .ok trace (file'.commit epoch tx active) ∧
            trace.duplicate = false ∧ trace.migrationStarted = prepared.migrationStarted) ∨
          called hash disk key = .error .structError file' ∧ 2 ^ 64 ≤ epoch + 1)
    | .error error => ∃ file', called hash disk key = .error error file' ∧
        Extended disk [] info.startMigration.nextPageId file' := by
  have read : (methods hash).readSuper (⟨disk, []⟩ : File E) = .ok (epoch, info, active) := super
  have follows := prepareInsert_follows committed [] key
  unfold called
  cases abstractly : (info.logical (view info.config initialCapacity disk epoch)).insert hash
      info.config key with
  | error error =>
      rw [abstractly] at follows
      obtain ⟨file', refused, extended⟩ := follows
      refine ⟨file', ?_, extended⟩
      unfold insert
      rw [bind_of_ok (get_run _), read, bind_of_ok (ofResult_ok _ _)]
      simp only
      rw [bind_of_error refused]
  | ok result =>
      obtain ⟨duplicate, state⟩ := result
      rw [abstractly] at follows
      cases duplicate with
      | true =>
          obtain ⟨tx, _, ran⟩ := follows
          unfold insert
          rw [bind_of_ok (get_run _), read, bind_of_ok (ofResult_ok _ _)]
          simp only
          rw [bind_of_ok ran]
          exact ⟨_, rfl, rfl⟩
      | false =>
          obtain ⟨tx, prepared, file', ran, new, _, extended, ready, ⟨_, worked⟩, logical⟩ := follows
          refine ⟨tx, prepared, file', ran, extended, ready, logical, ?_⟩
          have planned : plannedTx hash disk key = some tx := by
            rw [plannedTx_ok super ran, new, if_neg Bool.false_ne_true]
          obtain ⟨pages, superblock⟩ := fit epoch info active super tx planned
          have fits : ∀ change ∈ tx.sortedChanges, pagePayloadLength change.2 ≤ MAX_PAYLOAD :=
            fun change member => pages change.1 change.2 (mem_sortedChanges.mp member)
          have kept := ready.kept committed super extended
          rw [insert_begun super ran new]
          by_cases early : epoch + 1 < 2 ^ 64
          · left
            rw [bind_of_ok (writePages_fit hash file' (sortedChanges_nodup tx) early fits),
              bind_of_ok (reach_run _ _ _), bind_of_ok (reach_run _ _ _)]
            rcases writeSuper_run kept with ⟨wrote, _⟩ | ⟨_, _, packed⟩
            · rw [bind_of_ok (show (methods hash).writeSuper _ _ _ _ = _ from wrote),
                bind_of_ok (reach_run _ _ _)]
              exact ⟨_, rfl, rfl, rfl⟩
            · rcases (packSuper_error packed).1 with large | ⟨_, late⟩
              · exact absurd (superblock early) (Nat.not_le.mpr large)
              · exact absurd early (Nat.not_lt.mpr late)
          · right
            have late : 2 ^ 64 ≤ epoch + 1 := Nat.le_of_not_lt early
            have some_page := sortedChanges_ne_nil worked.touched
            exact ⟨by rw [bind_of_error (writePages_late hash file' late some_page fits)], late⟩

/-- Before the last epoch a call returns if and only if the abstract insert admits its key. -/
theorem called_returns_iff (committed : Committed hash initialCapacity disk epoch info) {active : Bool}
    (super : readSuper disk = .ok (epoch, info, active)) (fit : PayloadsFit hash disk key)
    (early : epoch + 1 < 2 ^ 64) :
    returned (called hash disk key) = true ↔
      ∃ result, (info.logical (view info.config initialCapacity disk epoch)).insert hash info.config
        key = .ok result := by
  have follows := called_follows committed super fit
  cases abstractly : (info.logical (view info.config initialCapacity disk epoch)).insert hash
      info.config key with
  | error error =>
      rw [abstractly] at follows
      obtain ⟨file', failed, _⟩ := follows
      rw [failed]
      refine iff_of_false Bool.false_ne_true ?_
      rintro ⟨result, admitted⟩
      cases admitted
  | ok result =>
      refine iff_of_true ?_ ⟨result, rfl⟩
      obtain ⟨duplicate, state⟩ := result
      rw [abstractly] at follows
      cases duplicate with
      | true =>
          obtain ⟨trace, ran, _⟩ := follows
          rw [ran]
          rfl
      | false =>
          obtain ⟨tx, prepared, file', _, _, _, _, ⟨trace, ran, _⟩ | ⟨_, late⟩⟩ := follows
          · rw [ran]
            rfl
          · exact absurd early (Nat.not_lt.mpr late)

/-! ### Sequences of calls -/

/-- No page copy is tagged above the epoch. -/
def UpTo (disk : Disk (Block E)) (epoch : Nat) : Prop :=
  ∀ page (slot : Bool) tag keys, disk.pread (2 + 2 * page + slot.toNat) = .page tag keys →
    tag ≤ epoch

theorem UpTo.settled {active : Bool} (super : readSuper disk = .ok (epoch, info, active))
    (upTo : UpTo disk epoch) (key : String) : Settled hash disk key :=
  .of_planned super fun page _ slot tag keys held => upTo page slot tag keys held

omit [SuperFields E] in
theorem UpTo.extended {file : File E} {log : List (Effect (Block E))}
    (committed : Committed hash initialCapacity disk epoch info) (upTo : UpTo disk epoch)
    (extended : Extended disk log info.startMigration.nextPageId file) :
    UpTo file.disk epoch := by
  intro page slot tag keys held
  rw [extended.pread committed.beyond] at held
  exact upTo page slot tag keys held

omit [SuperFields E] in
theorem UpTo.commit {file : File E} {tx : Txn E} {active : Bool} (upTo : UpTo file.disk epoch) :
    UpTo (file.commit epoch tx active).disk (epoch + 1) := by
  intro page slot tag keys held
  change (committedDisk file.disk epoch tx active).pread _ = _ at held
  rw [committedDisk_block] at held
  split at held
  · split at held
    · cases held
      exact Nat.le_refl _
    · exact Nat.le_succ_of_le (upTo page slot tag keys held)
  · exact Nat.le_succ_of_le (upTo page slot tag keys held)

omit [SuperFields E] in
theorem createdDisk_upTo (info : Meta E) (epoch : Nat) : UpTo (createdDisk info) epoch := by
  intro page slot tag keys held
  rw [createdDisk_page] at held
  cases held

omit [SuperFields E] in
theorem Extended.plain {file : File E} {pages : Nat} (extended : Extended disk [] pages file) :
    file.log.any isSuperblock = false := by
  cases extended with
  | same => rfl
  | grown => rfl

/-- A settled run that has left no page copy above the committed epoch. -/
structure Clean (hash : Hash) (initialCapacity : Nat) (config : Config) (ext : E)
    (disk : Disk (Block E)) (keys : Finset String) : Prop where
  run : Run hash (Settled hash) initialCapacity config ext disk keys
  upTo : ∀ epoch info active, readSuper disk = .ok (epoch, info, active) → UpTo disk epoch

theorem Clean.start (created : initializeStore none initialCapacity config ext = .ok disk) :
    Clean hash initialCapacity config ext disk ∅ := by
  refine ⟨.start disk created, fun epoch info active _ => ?_⟩
  obtain ⟨_, _, rfl⟩ := initializeStore_eq created
  exact createdDisk_upTo _ _

/-- A call that ends in `file'` and wrote no superblock leaves a clean run. -/
theorem Clean.refused {keys : Finset String} {file' : File E}
    (clean : Clean hash initialCapacity config ext disk keys)
    (committed : Committed hash initialCapacity disk epoch info)
    (ended : finalState (called hash disk key) = file')
    (extended : Extended disk [] info.startMigration.nextPageId file') :
    Clean hash initialCapacity config ext file'.disk keys := by
  obtain ⟨active, super⟩ := committed.super
  have kept := (extended.abandoned committed).readSuper super
  constructor
  · have step := clean.run.call (.finished fun _ => false)
      (fun _ => (clean.upTo epoch info active super).settled super key)
    change Run hash (Settled hash) initialCapacity config ext (finalState (called hash disk key)).disk
      (if (finalState (called hash disk key)).log.any isSuperblock then _ else _) at step
    rw [ended, extended.plain] at step
    exact step
  · intro epoch' info' active' found
    rw [kept] at found
    cases found
    exact (clean.upTo epoch info active super).extended committed extended

theorem Clean.insert {keys : Finset String}
    (clean : Clean hash initialCapacity config ext disk keys) (fit : PayloadsFit hash disk key) :
    Clean hash initialCapacity config ext (finalState (called hash disk key)).disk
      (if returned (called hash disk key) then keys ∪ {key} else keys) := by
  obtain ⟨epoch, info, conf, committed, keys_eq⟩ := clean.run.committed
  obtain ⟨active, super⟩ := committed.super
  have follows := called_follows committed super fit
  cases abstractly : (info.logical (view info.config initialCapacity disk epoch)).insert hash
      info.config key with
  | error error =>
      rw [abstractly] at follows
      obtain ⟨file', ran, extended⟩ := follows
      rw [ran]
      exact clean.refused committed (congrArg finalState ran) extended
  | ok result =>
      obtain ⟨duplicate, state⟩ := result
      rw [abstractly] at follows
      cases duplicate with
      | true =>
          obtain ⟨trace, ran, _⟩ := follows
          rcases (Logical.insert_spec committed.wf abstractly).2 with ⟨_, _, member⟩ | ⟨new, _⟩
          · rw [keys_eq, Finset.mem_val] at member
            have same : keys ∪ {key} = keys :=
              Finset.union_eq_left.mpr (Finset.singleton_subset_iff.mpr member)
            rw [ran, same, ite_self]
            exact clean.refused committed (congrArg finalState ran) .same
          · cases new
      | false =>
          obtain ⟨tx, prepared, file', _, extended, _, _, ⟨trace, ran, _⟩ | ⟨ran, _⟩⟩ := follows
          · have upTo := (clean.upTo epoch info active super).extended committed extended
            rw [ran]
            constructor
            · have step := clean.run.call (.finished fun _ => false)
                (fun _ => (clean.upTo epoch info active super).settled super key)
              change Run hash (Settled hash) initialCapacity config ext
                (finalState (called hash disk key)).disk
                (if (finalState (called hash disk key)).log.any isSuperblock then _ else _) at step
              rw [ran] at step
              have wrote : (file'.commit epoch tx active).log.any isSuperblock = true := by
                rw [commit_log, List.any_append]
                simp [isSuperblock]
              change Run _ _ _ _ _ _ (if (file'.commit epoch tx active).log.any _ then _ else _) at step
              rw [wrote] at step
              exact step
            · intro epoch' info' active' found
              have grown := extended.abandoned committed
              have moved : readSuper (file'.commit epoch tx active).disk =
                  .ok (epoch + 1, tx.info, !active) :=
                committedDisk_super (grown.readSuper super)
              change readSuper (file'.commit epoch tx active).disk = _ at found
              rw [moved] at found
              cases found
              exact upTo.commit
          · rw [ran]
            exact clean.refused committed (congrArg finalState ran) extended

theorem Inserts.clean {keys : Finset String}
    (run : Inserts hash (fun disk _ key => PayloadsFit hash disk key) initialCapacity config ext
      disk keys) : Clean hash initialCapacity config ext disk keys := by
  induction run with
  | start disk created => exact .start created
  | insert before key fine ih => exact ih.insert fine

/-- After every call of a sequence whose pages fit, a lookup finds the keys of the inserts that
returned and no others, each of them is stored once, the counters count them, an insert of one of
them writes nothing, and an insert that raises changes no page and fails no assertion. -/
theorem inserts_exact {keys : Finset String}
    (run : Inserts hash (fun disk _ key => PayloadsFit hash disk key) initialCapacity config ext
      disk keys) :
    (∀ key, ∃ trace, lookup hash (methods hash) key ⟨disk, []⟩ = .ok trace ∧
      (trace.found = true ↔ key ∈ keys)) ∧
    (∃ snapshot active, logicalSnapshot (methods hash) ⟨disk, []⟩ = .ok snapshot ∧
      readSuper disk = .ok (snapshot.epoch, snapshot.info, active) ∧
      (∀ key, key ∈ snapshot.currentKeys ++ snapshot.oldKeys ↔ key ∈ keys) ∧
      (snapshot.currentKeys ++ snapshot.oldKeys).Nodup ∧
      snapshot.currentKeys.length = snapshot.info.currentRows ∧
      (snapshot.oldKeys.length : Int) = snapshot.info.oldRows ∧
      (snapshot.currentKeys ++ snapshot.oldKeys).length = snapshot.info.liveSize) ∧
    (∀ key ∈ keys, ∃ trace, called hash disk key = .ok trace ⟨disk, []⟩ ∧
      trace.duplicate = true) ∧
    ∀ key error file, PayloadsFit hash disk key → called hash disk key = .error error file →
      (∀ page, file.disk.pread page = disk.pread page) ∧
        ∀ message, error ≠ .assertionError message := by
  obtain ⟨epoch, info, _, committed, keys_eq⟩ := run.clean.run.committed
  have shown := committed.shown [] fun _ owned => owned
  obtain ⟨active, super⟩ := committed.super
  refine ⟨fun key => ?_, ?_, fun key member => ?_, fun key error file fit ran => ?_⟩
  · obtain ⟨trace, ran, found⟩ := shown.lookup key
    refine ⟨trace, ran, ?_⟩
    rw [found, keys_eq, Finset.mem_val]
  · obtain ⟨snapshot, taken, tag, same, members, nodup, rows, oldRows, live⟩ := shown.counts
    refine ⟨snapshot, active, taken, ?_, ?_, nodup, ?_⟩
    · rw [tag, same]
      exact super
    · intro key
      rw [members, keys_eq, Finset.mem_val]
    · rw [same]
      exact ⟨rows, oldRows, live⟩
  · rcases insert_run committed super [] (fun _ => false) key with ⟨trace, ran, duplicate, _⟩ |
      ⟨error, _, _, _, _, reason⟩ | ⟨_, _, _, _, _, _, ready, _⟩
    · exact ⟨trace, ran, duplicate⟩
    · rcases reason with ⟨long, _⟩ | ⟨_, _, fresh⟩
      · exact absurd long (run.clean.run.short key member)
      · rw [keys_eq, Finset.mem_val] at fresh
        exact absurd member fresh
    · have fresh := ready.fresh
      rw [keys_eq, Finset.mem_val] at fresh
      exact absurd member fresh
  · have follows := called_follows committed super fit
    cases abstractly : (info.logical (view info.config initialCapacity disk epoch)).insert hash
        info.config key with
    | error failure =>
        rw [abstractly] at follows
        obtain ⟨file', failed, extended⟩ := follows
        rw [ran] at failed
        cases failed
        refine ⟨extended.unread committed, fun message same => ?_⟩
        rcases Logical.insert_error committed.wf abstractly with ⟨_, reason⟩ | ⟨_, ⟨_, reason⟩, _⟩
        · rw [reason] at same
          cases same
        · rw [reason] at same
          cases same
    | ok result =>
        obtain ⟨duplicate, state⟩ := result
        rw [abstractly] at follows
        cases duplicate with
        | true =>
            obtain ⟨trace, finished, _⟩ := follows
            rw [ran] at finished
            cases finished
        | false =>
            obtain ⟨_, _, file', _, extended, _, _, ⟨trace, finished, _⟩ | ⟨failed, _⟩⟩ := follows
            · rw [ran] at finished
              cases finished
            · rw [ran] at failed
              cases failed
              exact ⟨extended.unread committed, fun message same => by cases same⟩

/-- The payloads of a planned transaction, checked one by one. -/
def payloadsFit (hash : Hash) (disk : Disk (Block E)) (key : String) : Bool :=
  (plannedTx hash disk key).all fun tx =>
    tx.changes.entries.all (fun entry => decide (pagePayloadLength entry.2 ≤ MAX_PAYLOAD)) &&
      decide (superPayloadLength tx.info ≤ MAX_PAYLOAD)

theorem PayloadsFit.of_check (fit : payloadsFit hash disk key = true) :
    PayloadsFit hash disk key := by
  unfold payloadsFit at fit
  intro epoch info active super tx planned
  rw [planned] at fit
  simp only [Option.all_some, Bool.and_eq_true, List.all_eq_true, decide_eq_true_eq] at fit
  exact ⟨fun page slots changed => fit.1 ⟨page, slots⟩ (AList.mem_lookup_iff.mp changed),
    fun _ => fit.2⟩

/-- The keys of the calls that return, one call after the other. -/
def keysAfter (hash : Hash) (disk : Disk (Block E)) (keys : Finset String) :
    List String → Finset String
  | [] => keys
  | key :: rest => keysAfter hash (finalState (called hash disk key)).disk
      (if returned (called hash disk key) then keys ∪ {key} else keys) rest

def callsFit (hash : Hash) (disk : Disk (Block E)) : List String → Bool
  | [] => true
  | key :: rest => payloadsFit hash disk key &&
      callsFit hash (finalState (called hash disk key)).disk rest

theorem Inserts.calls {keys : Finset String} (calls : List String)
    (before : Inserts hash (fun disk _ key => PayloadsFit hash disk key) initialCapacity config ext
      disk keys) (fit : callsFit hash disk calls = true) :
    Inserts hash (fun disk _ key => PayloadsFit hash disk key) initialCapacity config ext
      (FixedPage.afterCalls hash disk calls) (keysAfter hash disk keys calls) := by
  induction calls generalizing disk keys with
  | nil => exact before
  | cons key rest ih =>
      rw [callsFit, Bool.and_eq_true] at fit
      exact ih (before.insert key (.of_check fit.1)) fit.2

/-- The fourth key starts a migration, which the last call finds no room for. -/
def sampleCalls : List String := ["a", "m", "v", "b", "a", "c", "z"]

theorem inserts_exact_sample :
    (∀ key, ∃ trace, lookup sampleHash (methods sampleHash) key
        ⟨afterCalls sampleHash sampleDisk sampleCalls, []⟩ = .ok trace ∧
      (trace.found = true ↔ key ∈ ({"a", "m", "v", "b", "c"} : Finset String))) ∧
    ∀ error file, called sampleHash (afterCalls sampleHash sampleDisk sampleCalls) "z" =
        .error error file →
      ∀ page, file.disk.pread page =
        (afterCalls sampleHash sampleDisk sampleCalls).pread page := by
  have start : Inserts sampleHash (fun disk _ key => PayloadsFit sampleHash disk key) 4 sampleConfig
      () sampleDisk ∅ := .start sampleDisk sampleDisk_initialized
  have run := start.calls sampleCalls (by decide +kernel)
  have keys : keysAfter sampleHash sampleDisk ∅ sampleCalls = {"a", "m", "v", "b", "c"} := by
    decide +kernel
  rw [keys] at run
  have fit : PayloadsFit sampleHash (afterCalls sampleHash sampleDisk sampleCalls) "z" :=
    .of_check (by decide +kernel)
  obtain ⟨lookups, _, _, raises⟩ := inserts_exact run
  exact ⟨lookups, fun error file ran => (raises "z" error file fit ran).1⟩

end DurableContext.FixedPage
