import DurableContext.Storage.FixedPageCrash

/-! Runs of inserts on a flat primary, each of which may return, raise or be killed.

The commit epoch is reused after an insert that did not commit. `Settled` is what makes that
safe: no page the next commit leaves alone may look different at the epoch it commits. -/

namespace DurableContext.FixedPage

open BucketTable Program

variable {E : Type} [SuperFields E]

def isSuperblock : Effect (Block E) → Bool
  | .pwrite _ (.superblock _ _) => true
  | _ => false

/-- Where the process of one insert call leaves the file, and whether the call committed. A kill
keeps any part of what came before the superblock write; a torn superblock fails its checksum. -/
inductive Call (hash : Hash) (disk : Disk (Block E)) (key : String) :
    Bool → Disk (Block E) → Prop
  | finished (failpoint : String → Bool) :
      Call hash disk key
        ((finalState (insert hash (methods hash) failpoint key ⟨disk, []⟩)).log.any isSuperblock)
        (finalState (insert hash (methods hash) failpoint key ⟨disk, []⟩)).disk
  | killed (cut before after : List (Effect (Block E)))
      (effects : (finalState (insert hash (methods hash) (fun _ => false) key ⟨disk, []⟩)).log =
        before ++ after)
      (short : before.any isSuperblock = false) (part : cut.Sublist before) :
      Call hash disk key false (disk.replay cut)
  | torn (before : List (Effect (Block E))) (page tag : Nat) (info : Meta E)
      (effects : (finalState (insert hash (methods hash) (fun _ => false) key ⟨disk, []⟩)).log =
        before ++ [.pwrite page (.superblock tag info)]) :
      Call hash disk key false (disk.replay (before ++ [.pwrite page .blank]))

def plannedChanges (hash : Hash) (disk : Disk (Block E)) (key : String) : Dict Slots :=
  match readSuper disk with
  | .ok (epoch, info, _) =>
      match prepareInsert hash (methods hash) epoch info key ⟨disk, []⟩ with
      | .ok (tx, _) _ => tx.changes
      | .error _ _ => ∅
  | .error _ => ∅

def plannedTx (hash : Hash) (disk : Disk (Block E)) (key : String) : Option (Txn E) :=
  match readSuper disk with
  | .ok (epoch, info, _) =>
      match prepareInsert hash (methods hash) epoch info key ⟨disk, []⟩ with
      | .ok (tx, prepared) _ => if prepared.duplicate then none else some tx
      | .error _ _ => none
  | .error _ => none

/-- No page that the insert leaves alone looks different at the epoch it would commit. -/
def Settled (hash : Hash) (disk : Disk (Block E)) (key : String) : Prop :=
  ∀ epoch info active, readSuper disk = .ok (epoch, info, active) →
    ∀ page, page ∉ plannedChanges hash disk key → ∀ slots,
      readLogicalPage disk page (epoch + 1) slots = readLogicalPage disk page epoch slots

/-- Runs of insert calls; the keys are those whose insert committed. -/
inductive Run (hash : Hash) (allowed : Disk (Block E) → String → Prop) (initialCapacity : Nat)
    (config : Config) (ext : E) : Disk (Block E) → Finset String → Prop
  | start (disk : Disk (Block E))
      (created : initializeStore none initialCapacity config ext = .ok disk) :
      Run hash allowed initialCapacity config ext disk ∅
  | call {disk disk' : Disk (Block E)} {keys : Finset String} {key : String} {committed : Bool}
      (before : Run hash allowed initialCapacity config ext disk keys)
      (called : Call hash disk key committed disk')
      (fine : committed = true → allowed disk key) :
      Run hash allowed initialCapacity config ext disk' (if committed then keys ∪ {key} else keys)

variable {hash : Hash} {initialCapacity : Nat} {config : Config} {ext : E}
  {disk disk' : Disk (Block E)} {epoch : Nat} {info : Meta E} {key : String}

theorem plannedChanges_ok {active : Bool} {tx : Txn E} {prepared : Prepared} {file : File E}
    (super : readSuper disk = .ok (epoch, info, active))
    (ran : prepareInsert hash (methods hash) epoch info key ⟨disk, []⟩ = .ok (tx, prepared) file) :
    plannedChanges hash disk key = tx.changes := by
  simp only [plannedChanges, super, ran]

theorem plannedChanges_error {active : Bool} {error : StoreError} {file : File E}
    (super : readSuper disk = .ok (epoch, info, active))
    (ran : prepareInsert hash (methods hash) epoch info key ⟨disk, []⟩ = .error error file) :
    plannedChanges hash disk key = ∅ := by
  simp only [plannedChanges, super, ran]

theorem plannedTx_ok {active : Bool} {tx : Txn E} {prepared : Prepared} {file : File E}
    (super : readSuper disk = .ok (epoch, info, active))
    (ran : prepareInsert hash (methods hash) epoch info key ⟨disk, []⟩ = .ok (tx, prepared) file) :
    plannedTx hash disk key = if prepared.duplicate then none else some tx := by
  simp only [plannedTx, super, ran]

theorem plannedTx_error {active : Bool} {error : StoreError} {file : File E}
    (super : readSuper disk = .ok (epoch, info, active))
    (ran : prepareInsert hash (methods hash) epoch info key ⟨disk, []⟩ = .error error file) :
    plannedTx hash disk key = none := by
  simp only [plannedTx, super, ran]

theorem plannedTx_some {active : Bool} {tx : Txn E}
    (super : readSuper disk = .ok (epoch, info, active))
    (planned : plannedTx hash disk key = some tx) :
    ∃ prepared file, prepareInsert hash (methods hash) epoch info key ⟨disk, []⟩ =
      .ok (tx, prepared) file ∧ prepared.duplicate = false := by
  simp only [plannedTx, super] at planned
  cases ran : prepareInsert hash (methods hash) epoch info key ⟨disk, []⟩ with
  | error error file =>
      rw [ran] at planned
      cases planned
  | ok result file =>
      obtain ⟨tx', prepared⟩ := result
      rw [ran] at planned
      cases duplicate : prepared.duplicate with
      | true => simp [duplicate] at planned
      | false =>
          simp only [duplicate, Bool.false_eq_true, if_false, Option.some.injEq] at planned
          subst planned
          exact ⟨prepared, file, rfl, duplicate⟩

theorem checkConfig_sized (accepted : checkConfig initialCapacity config = .ok ()) :
    Sized config initialCapacity := by
  unfold checkConfig at accepted
  simp only at accepted
  split at accepted
  · cases accepted
  split at accepted
  · cases accepted
  rename_i divides
  split at accepted
  · cases accepted
  rename_i buckets
  simp only [not_or, not_not] at divides buckets
  exact .of_checks divides.1 divides.2 buckets.1 buckets.2

omit [SuperFields E] in
theorem createdDisk_page (info : Meta E) (page : Nat) (slot : Bool) :
    (createdDisk info).pread (2 + 2 * page + slot.toNat) = .blank := by
  have apart : 2 + 2 * page + slot.toNat ≠ 0 := by omega
  rw [createdDisk, Disk.pread_pwrite, if_neg apart, Disk.pread_ftruncate]
  split <;> rfl

omit [SuperFields E] in
theorem createdDisk_super (info : Meta E) :
    readSuper (createdDisk info) = .ok (1, info, false) := by
  rw [readSuper_ok]
  refine DualCopy.newest_eq ?_ ?_
  · simp [copiesAt_zero, createdDisk, Block.asSuperblock]
  · intro found present
    have second : (createdDisk info).pread 1 = .blank := by
      rw [createdDisk, Disk.pread_pwrite, if_neg (by decide), Disk.pread_ftruncate]
      split <;> rfl
    rw [copiesAt_zero] at present
    simp [second, Block.asSuperblock] at present

omit [SuperFields E] in
theorem createdDisk_logical (hash : Hash) (initialCapacity : Nat) (config : Config) (ext : E) :
    (initialMeta initialCapacity config ext).logical (view config initialCapacity
      (createdDisk (initialMeta initialCapacity config ext)) 1) =
      Logical.fresh hash config initialCapacity := by
  have region : Region config _ (fun _ => True) ((layout config initialCapacity).base 0)
      ((layout config initialCapacity).capacity 0) :=
    (layout_apart config initialCapacity).region fun _ _ => trivial
  have table : tableAt (view config initialCapacity
      (createdDisk (initialMeta initialCapacity config ext)) 1) 0
      (initialCapacity / config.bucketSize) = blank (scheme hash config initialCapacity) := by
    have count : (scheme hash config initialCapacity).buckets =
        initialCapacity / config.bucketSize := rfl
    funext bucket
    simp only [tableAt, blank, count]
    split
    · rename_i bound
      rw [view, pageAt_blank (createdDisk_page _ _)]
      congr 1
      have same : _ = (scheme hash config _).slotsAt bucket :=
        region.slotsAt (by simpa [layout] using bound)
      simpa [layout, base] using same
    · rfl
  rw [Logical.fresh, ← table]
  rfl

/-- What `initialize` has checked of a file it made. -/
theorem initializeStore_eq (created : initializeStore none initialCapacity config ext = .ok disk) :
    checkConfig initialCapacity config = .ok () ∧
      superPayloadLength (initialMeta initialCapacity config ext) ≤ MAX_PAYLOAD ∧
      disk = createdDisk (initialMeta initialCapacity config ext) := by
  rw [initializeStore, Option.isSome_none, if_neg Bool.false_ne_true] at created
  obtain ⟨⟨⟩, accepted, created⟩ := of_bind_ok created
  obtain ⟨block, packed, same⟩ := of_bind_ok created
  obtain ⟨rfl, small, _⟩ := packSuper_ok packed
  exact ⟨accepted, small, (Except.ok.inj same).symm⟩

/-- A file that passes the checks of `initialize`. -/
theorem initializeStore_of (accepted : checkConfig initialCapacity config = .ok ())
    (small : superPayloadLength (initialMeta initialCapacity config ext) ≤ MAX_PAYLOAD) :
    initializeStore none initialCapacity config ext =
      .ok (createdDisk (initialMeta initialCapacity config ext)) := by
  have packed : packSuper 1 (initialMeta initialCapacity config ext) =
      .ok (Block.superblock 1 (initialMeta initialCapacity config ext)) := by
    rw [packSuper, if_neg (Nat.not_lt.mpr small), if_neg (by decide)]
  rw [initializeStore, Option.isSome_none, if_neg Bool.false_ne_true, ok_bind accepted]
  simp only
  rw [ok_bind packed]
  rfl

theorem initializeStore_committed (hash : Hash)
    (created : initializeStore none initialCapacity config ext = .ok disk) :
    ∃ info : Meta E, info.config = config ∧ info.ext = ext ∧
      Committed hash initialCapacity disk 1 info ∧
      info.logical (view info.config initialCapacity disk 1) =
        Logical.fresh hash config initialCapacity := by
  obtain ⟨accepted, _, rfl⟩ := initializeStore_eq created
  have sized := checkConfig_sized accepted
  have logical := createdDisk_logical hash initialCapacity config ext
  refine ⟨initialMeta initialCapacity config ext, rfl, rfl, ⟨⟨false, createdDisk_super _⟩,
    ⟨rfl, by simp [initialMeta, layout], ?_, by simp [initialMeta]⟩, ?_, ?_, ?_, ?_⟩, ?_⟩
  · simp [initialMeta, layout, Layout.finish, Layout.buckets, base, generationPages]
  · intro page slot tag keys held
    rw [createdDisk_page] at held
    cases held
  · intro page _
    exact pageAt_blank (createdDisk_page _ _) _ _
  · intro page _ slot
    exact createdDisk_page _ page slot
  · show (Meta.logical _ (view config _ _ _)).Wf hash config
    rw [logical]
    exact Logical.fresh_wf sized
  · exact logical

omit [SuperFields E] in
theorem Harmless.not_super {effect : Effect (Block E)}
    (harmless : Harmless initialCapacity disk epoch info effect) : isSuperblock effect = false := by
  cases harmless <;> rfl

omit [SuperFields E] in
theorem commit_log (file : File E) (tx : Txn E) (active : Bool) :
    (file.commit epoch tx active).log = (file.written epoch (epoch + 1) tx.sortedChanges).log ++
      [.pwrite (!active).toNat (.superblock (epoch + 1) tx.info)] := rfl

/-- A call that does not commit leaves the committed state alone. -/
theorem Call.uncommitted (committed : Committed hash initialCapacity disk epoch info)
    (called : Call hash disk key false disk') :
    Abandoned initialCapacity disk epoch info disk' := by
  obtain ⟨active, super⟩ := committed.super
  generalize outcome : false = flag at called
  cases called with
  | finished failpoint =>
      obtain ⟨effects, harmless, plain | ⟨tx, _, file', _, _, _, _, _, final⟩⟩ :=
        insert_trail committed super failpoint key
      · rw [plain]
        exact committed.replay harmless
      · rw [final, commit_log] at outcome
        simp [isSuperblock] at outcome
  | killed cut before after effects short part =>
      obtain ⟨trail, harmless, ended⟩ := insert_trail committed super (fun _ => false) key
      refine committed.replay fun effect member => harmless effect ?_
      have inside := part.subset member
      have plain : isSuperblock effect = false := by
        have none := List.any_eq_false.mp short effect inside
        simpa using none
      have logged : effect ∈ before ++ after := List.mem_append_left _ inside
      rw [← effects] at logged
      rcases ended with ended | ⟨tx, _, file', _, _, _, _, written, ended⟩
      · rw [ended] at logged
        exact logged
      · rw [ended, commit_log, written, List.mem_append, List.mem_singleton] at logged
        rcases logged with early | last
        · exact early
        · rw [last] at plain
          cases plain
  | torn before page tag held effects =>
      obtain ⟨trail, harmless, ended⟩ := insert_trail committed super (fun _ => false) key
      rcases ended with ended | ⟨tx, _, file', _, _, _, _, written, ended⟩
      · rw [ended] at effects
        have last := harmless (.pwrite page (.superblock tag held)) (by
          rw [show trail = _ from effects]
          simp)
        cases last.not_super
      · rw [ended, commit_log, written] at effects
        obtain ⟨same, last⟩ := List.append_inj' effects rfl
        subst same
        simp only [List.cons.injEq, and_true, Effect.pwrite.injEq] at last
        refine committed.replay fun effect member => ?_
        rw [List.mem_append, List.mem_singleton] at member
        rcases member with early | rfl
        · exact harmless effect early
        · rw [← last.1]
          exact .torn active super

theorem Call.committed (committed : Committed hash initialCapacity disk epoch info)
    (called : Call hash disk key true disk') (settled : Settled hash disk key) :
    ∃ tx prepared file', prepareInsert hash (methods hash) epoch info key ⟨disk, []⟩ =
        .ok (tx, prepared) file' ∧ Ready hash initialCapacity disk epoch info key tx ∧
      (info.logical (view info.config initialCapacity disk epoch)).insert hash info.config key =
        .ok (false, tx.info.logical (view tx.info.config initialCapacity disk' (epoch + 1))) ∧
      Committed hash initialCapacity disk' (epoch + 1) tx.info ∧
      (tx.info.logical (view tx.info.config initialCapacity disk' (epoch + 1))).keys hash
        tx.info.config = key ::ₘ (info.logical (view info.config initialCapacity disk epoch)).keys
          hash info.config ∧
      ∀ page, (∀ keys, tx.changes.lookup page = some keys →
          readLogicalPage disk' page (epoch + 1) keys.length = .ok keys) ∧
        (page ∉ tx.changes → ∀ slots,
          readLogicalPage disk' page (epoch + 1) slots = readLogicalPage disk page epoch slots) := by
  obtain ⟨active, super⟩ := committed.super
  generalize outcome : true = flag at called
  cases called with
  | killed => cases outcome
  | torn => cases outcome
  | finished failpoint =>
      obtain ⟨effects, harmless, plain | ⟨tx, prepared, file', ran, new, extended, ready, _,
        final⟩⟩ := insert_trail committed super failpoint key
      · rw [plain] at outcome
        obtain ⟨effect, member, found⟩ := List.any_eq_true.mp outcome.symm
        rw [(harmless effect member).not_super] at found
        cases found
      · have grown := extended.abandoned committed
        have committed' := committed.abandoned grown
        have same := extended.pread committed.beyond
        have view_eq := grown.view committed
        have settled' : ∀ page, tx.changes.lookup page = none → ∀ slots,
            pageAt file'.disk (epoch + 1) slots page = pageAt file'.disk epoch slots page := by
          intro page absent slots
          have kept := settled epoch info active super page
            (by rwa [plannedChanges_ok super ran, ← AList.lookup_eq_none]) slots
          rw [readLogicalPage_eq, readLogicalPage_eq, Except.ok.injEq] at kept
          rw [pageAt_congr (same page), pageAt_congr (same page), kept]
        have wf := ready.wf
        rw [← view_eq] at wf
        obtain ⟨next, shown⟩ := committed'.commit (grown.readSuper super) ready.shape ready.laid
          ready.grows ready.config wf settled'
        rw [final]
        refine ⟨tx, prepared, file', ran, ready, ?_, next, ?_, fun page => ⟨?_, ?_⟩⟩
        · rw [ready.config]
          show _ = Except.ok (false, tx.info.logical (view _ _ (committedDisk file'.disk epoch tx
            active) _))
          rw [shown, view_eq]
          exact (prepareInsert_new committed ran new).1
        · rw [ready.config]
          show (tx.info.logical (view _ _ (committedDisk file'.disk epoch tx active) _)).keys _ _ = _
          rw [shown, view_eq]
          exact ready.keys
        · intro keys changed
          have shape := (ready.shape page keys changed).2
          rw [readLogicalPage_eq, shape]
          show Except.ok (pageAt (committedDisk file'.disk epoch tx active) _ _ _) = _
          rw [committedDisk_pageAt committed' (fun page keys held => (ready.shape page keys held).2),
            changed]
        · intro absent slots
          have absent' : tx.changes.lookup page = none := by rwa [AList.lookup_eq_none]
          rw [readLogicalPage_eq, readLogicalPage_eq]
          show Except.ok (pageAt (committedDisk file'.disk epoch tx active) _ _ _) = _
          have kept : ∀ slot : Bool,
              (committedDisk file'.disk epoch tx active).pread (2 + 2 * page + slot.toNat) =
                file'.disk.pread (2 + 2 * page + slot.toNat) := fun slot => by
            rw [committedDisk_block, absent']
          rw [pageAt_congr kept, settled' page absent', pageAt_congr (same page)]

/-- The state every run is in: one committed insert for each key, and whatever the abstract inserts
keep. -/
theorem Run.induction {keys : Finset String}
    (run : Run hash (Settled hash) initialCapacity config ext disk keys) (holds : Logical → Prop)
    (base : Sized config initialCapacity → holds (Logical.fresh hash config initialCapacity))
    (step : ∀ state key state', state.Wf hash config → holds state →
      state.insert hash config key = .ok (false, state') → holds state') :
    ∃ epoch info, info.config = config ∧ Committed hash initialCapacity disk epoch info ∧
      (info.logical (view info.config initialCapacity disk epoch)).keys hash info.config =
        keys.val ∧ holds (info.logical (view info.config initialCapacity disk epoch)) := by
  induction run with
  | start disk created =>
      obtain ⟨info, conf, _, committed, fresh⟩ := initializeStore_committed hash created
      have sized := committed.wf.sized
      rw [fresh] at sized
      refine ⟨1, info, conf, committed, ?_, ?_⟩
      · rw [fresh, conf]
        exact Logical.fresh_keys initialCapacity
      · rw [fresh]
        exact base (conf ▸ sized)
  | call before called fine ih =>
      rename_i disk disk' keys key flag
      obtain ⟨epoch, info, conf, committed, keys_eq, held⟩ := ih
      cases flag with
      | false =>
          have abandoned := called.uncommitted committed
          exact ⟨epoch, info, conf, committed.abandoned abandoned, by
            rw [abandoned.view committed, keys_eq]; rfl, by rw [abandoned.view committed]; exact held⟩
      | true =>
          obtain ⟨tx, _, _, _, ready, inserted, next, grown, _⟩ :=
            called.committed committed (fine rfl)
          refine ⟨epoch + 1, tx.info, by rw [ready.config, conf], next, ?_, ?_⟩
          rotate_left
          · have wf := committed.wf
            rw [conf] at wf inserted held
            exact step _ key _ wf held inserted
          have fresh : key ∉ keys := by
            have nodup := next.wf.nodup
            rw [grown, Multiset.nodup_cons, keys_eq] at nodup
            exact nodup.1
          rw [grown, keys_eq, if_pos rfl, Finset.union_comm, ← Finset.insert_eq,
            Finset.insert_val_of_notMem fresh]

theorem Run.committed {keys : Finset String}
    (run : Run hash (Settled hash) initialCapacity config ext disk keys) :
    ∃ epoch info, info.config = config ∧ Committed hash initialCapacity disk epoch info ∧
      (info.logical (view info.config initialCapacity disk epoch)).keys hash info.config =
        keys.val := by
  obtain ⟨epoch, info, conf, committed, keys_eq, _⟩ :=
    run.induction (fun _ => True) (fun _ => trivial) fun _ _ _ _ _ _ => trivial
  exact ⟨epoch, info, conf, committed, keys_eq⟩

theorem Run.short {keys : Finset String}
    (run : Run hash (Settled hash) initialCapacity config ext disk keys) :
    ∀ key ∈ keys, ¬ 256 < key.utf8ByteSize := by
  induction run with
  | start disk created => simp
  | call before called fine ih =>
      rename_i disk disk' keys key flag
      cases flag with
      | false => exact ih
      | true =>
          obtain ⟨epoch, info, conf, committed, keys_eq⟩ := before.committed
          obtain ⟨tx, _, _, _, ready, _⟩ := called.committed committed (fine rfl)
          intro stored member
          rw [if_pos rfl, Finset.mem_union, Finset.mem_singleton] at member
          rcases member with earlier | rfl
          · exact ih stored earlier
          · exact ready.short

/-- After any settled run a lookup finds the keys of the inserts that committed and no others, the
audit is clean, and a further settled commit shows each page as it wrote it or as it was. -/
theorem settled_run_exact {keys : Finset String}
    (run : Run hash (Settled hash) initialCapacity config ext disk keys) :
    (∀ key, ∃ trace, lookup hash (methods hash) key ⟨disk, []⟩ = .ok trace ∧
      (trace.found = true ↔ key ∈ keys)) ∧
    (∃ result, audit (methods hash) ⟨disk, []⟩ = .ok result ∧ result.valid = true) ∧
    (∃ trace, recover hash ⟨disk, []⟩ = .ok trace ∧ trace.auditValid = true) ∧
    ∀ key disk', Call hash disk key true disk' → Settled hash disk key →
      ∃ epoch info active tx prepared file', readSuper disk = .ok (epoch, info, active) ∧
        prepareInsert hash (methods hash) epoch info key ⟨disk, []⟩ = .ok (tx, prepared) file' ∧
        ∀ page, (∀ slots, tx.changes.lookup page = some slots →
            readLogicalPage disk' page (epoch + 1) slots.length = .ok slots) ∧
          (page ∉ tx.changes → ∀ slots, readLogicalPage disk' page (epoch + 1) slots =
            readLogicalPage disk page epoch slots) := by
  obtain ⟨epoch, info, _, committed, keys_eq⟩ := run.committed
  have shown := committed.shown [] fun _ owned => owned
  obtain ⟨active, super⟩ := committed.super
  obtain ⟨result, audited, valid⟩ := shown.audit
  refine ⟨fun key => ?_, ⟨result, audited, valid⟩, ⟨⟨0, epoch, result.valid⟩, ?_, valid⟩,
    fun key disk' called settled => ?_⟩
  · obtain ⟨trace, ran, found⟩ := shown.lookup key
    refine ⟨trace, ran, ?_⟩
    rw [found, keys_eq, Finset.mem_val]
  · simp only [recover, super, audited, bind, Except.bind]
  · obtain ⟨tx, prepared, file', ran, _, _, _, _, pages⟩ := called.committed committed settled
    exact ⟨epoch, info, active, tx, prepared, file', super, ran, pages⟩

/-- A copy that is tagged above the committed epoch is harmless on a page that gets rewritten. -/
theorem Settled.of_planned {active : Bool} (super : readSuper disk = .ok (epoch, info, active))
    (planned : ∀ page, page ∉ plannedChanges hash disk key → ∀ (slot : Bool) tag keys,
      disk.pread (2 + 2 * page + slot.toNat) = .page tag keys → tag ≤ epoch) :
    Settled hash disk key := by
  intro other info' active' found page absent slots
  rw [super] at found
  cases found
  rw [readLogicalPage, readLogicalPage]
  rw [DualCopy.select_epoch (Nat.le_succ epoch)]
  intro slot tagged held _
  unfold copiesAt at held
  cases block : disk.pread (physicalPageIndex page 0 + slot.toNat) with
  | page tag keys =>
      simp only [block, Block.asPage] at held
      split at held
      · cases held
        exact planned page absent slot tag keys block
      · cases held
  | _ =>
      rw [block] at held
      cases held

def settledCheck (hash : Hash) (disk : Disk (Block E)) (key : String) : Bool :=
  match readSuper disk with
  | .ok (epoch, _, _) => (List.range disk.size).all fun index =>
      match disk.pread index with
      | .page tag _ => decide (tag ≤ epoch) ||
          decide ((index - 2) / 2 ∈ (plannedChanges hash disk key).keys)
      | _ => true
  | .error _ => true

theorem Settled.of_check (checked : settledCheck hash disk key = true) :
    Settled hash disk key := by
  intro epoch info active super
  refine Settled.of_planned super (fun page absent slot tag keys held => ?_) epoch info active super
  have inside : 2 + 2 * page + slot.toNat < disk.size := by
    by_contra past
    rw [disk.pread_past (Nat.le_of_not_lt past)] at held
    cases held
  have small := Bool.toNat_le slot
  have here : (2 + 2 * page + slot.toNat - 2) / 2 = page := by omega
  simp only [settledCheck, super, List.all_eq_true] at checked
  have fine := checked _ (List.mem_range.mpr inside)
  simp only [held, here, Bool.or_eq_true, decide_eq_true_eq] at fine
  exact fine.resolve_right absent

def sampleHash : Hash
  | "a", .hashKey1 => 3059935430055306117
  | "a", .hashKey2 => 15472676628792622493
  | "a", .choiceKey => 16650128340032534595
  | "b", .hashKey1 => 3908942801492320648
  | "b", .hashKey2 => 8742451644844510919
  | "b", .choiceKey => 2210445984770649501
  | "c", .hashKey1 => 6621236861530022611
  | "c", .hashKey2 => 8154748018538025621
  | "c", .choiceKey => 9054101243208905128
  | "m", .hashKey1 => 4142779743359236517
  | "m", .hashKey2 => 3005095996382878606
  | "m", .choiceKey => 15133705470713105029
  | "v", .hashKey1 => 14667930045245951422
  | "v", .hashKey2 => 10464009827694464021
  | "v", .choiceKey => 9819227830419970064
  | "z", .hashKey1 => 7857883406876617925
  | "z", .hashKey2 => 8500364937664803134
  | "z", .choiceKey => 11084837437548642498
  | _, _ => 0

def sampleConfig : Config := ⟨3 / 4, "0.75", 1, 4, 1, 2, false⟩

def sampleDisk : Disk (Block Unit) := createdDisk (initialMeta 4 sampleConfig ())

theorem sampleDisk_initialized : initializeStore none 4 sampleConfig () = .ok sampleDisk := by
  have accepted : checkConfig 4 sampleConfig = .ok () := by
    have masked : 4 &&& 3 = 0 := by decide
    norm_num [checkConfig, sampleConfig, masked]
  exact initializeStore_of accepted (by decide +kernel)

def afterInsert (disk : Disk (Block Unit)) (key : String) : File Unit :=
  finalState (insert sampleHash (methods sampleHash) (fun _ => false) key ⟨disk, []⟩)

/-- The insert of `a` killed behind its page write. -/
def abandonedDisk : Disk (Block Unit) := sampleDisk.replay ((afterInsert sampleDisk "a").log.take 1)

theorem abandonedDisk_called : Call sampleHash sampleDisk "a" false abandonedDisk :=
  .killed _ _ _ (List.take_append_drop 1 _).symm (by decide +kernel) (List.Sublist.refl _)

/-- The file when `a` is inserted over the copy that the killed call left, and an insert of `b` has
then raised at a failpoint. -/
def retriedDisk : Disk (Block Unit) := (finalState (insert sampleHash (methods sampleHash)
  (fun label => label == "data_synced") "b" ⟨(afterInsert abandonedDisk "a").disk, []⟩)).disk

theorem settled_run_exact_sample :
    (∀ key, ∃ trace, lookup sampleHash (methods sampleHash) key ⟨retriedDisk, []⟩ = .ok trace ∧
      (trace.found = true ↔ key ∈ (∅ ∪ {"a"} : Finset String))) ∧
    ∃ result, audit (methods sampleHash) ⟨retriedDisk, []⟩ = .ok result ∧ result.valid = true := by
  have start : Run sampleHash (Settled sampleHash) 4 sampleConfig () sampleDisk ∅ :=
    .start sampleDisk sampleDisk_initialized
  have commits : (afterInsert abandonedDisk "a").log.any isSuperblock = true := by decide +kernel
  have retried : Call sampleHash abandonedDisk "a" true (afterInsert abandonedDisk "a").disk :=
    commits ▸ .finished fun _ => false
  have stops : (finalState (insert sampleHash (methods sampleHash)
      (fun label => label == "data_synced") "b"
        ⟨(afterInsert abandonedDisk "a").disk, []⟩)).log.any isSuperblock = false := by
    decide +kernel
  have raised : Call sampleHash (afterInsert abandonedDisk "a").disk "b" false retriedDisk :=
    stops ▸ .finished fun label => label == "data_synced"
  have run := ((start.call abandonedDisk_called nofun).call retried fun _ =>
    .of_check (by decide +kernel)).call raised nofun
  have exactly := settled_run_exact run
  exact ⟨exactly.1, exactly.2.1⟩

/-- A killed insert leaves its page at the next epoch; the insert of another key then commits that
epoch, and the first key is found although its insert never committed. -/
theorem unsettled_run_resurrects :
    ¬ ∀ (disk : Disk (Block Unit)) (keys : Finset String),
      Run sampleHash (fun _ _ => True) 4 sampleConfig () disk keys → ∀ key trace,
        lookup sampleHash (methods sampleHash) key ⟨disk, []⟩ = .ok trace →
          (trace.found = true ↔ key ∈ keys) := by
  intro exact_keys
  have start : Run sampleHash (fun _ _ => True) 4 sampleConfig () sampleDisk ∅ :=
    .start sampleDisk sampleDisk_initialized
  have commits : (afterInsert abandonedDisk "b").log.any isSuperblock = true := by decide +kernel
  have called : Call sampleHash abandonedDisk "b" true (afterInsert abandonedDisk "b").disk :=
    commits ▸ .finished fun _ => false
  have run := (start.call abandonedDisk_called nofun).call called fun _ => trivial
  have found : ((lookup sampleHash (methods sampleHash) "a"
      ⟨(afterInsert abandonedDisk "b").disk, []⟩).toOption.map LookupTrace.found) = some true := by
    decide +kernel
  obtain ⟨trace, ran, held⟩ := Option.map_eq_some_iff.mp found
  have member := (exact_keys _ _ run "a" trace (eq_ok_of_toOption ran)).mp held
  simp at member

end DurableContext.FixedPage
