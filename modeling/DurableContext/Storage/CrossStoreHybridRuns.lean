import DurableContext.Storage.CrossStoreHybridCommit

/-! Runs of inserts on a cross-store hybrid, with calls that raise or are killed and with calls
that are left to finish. -/

namespace DurableContext.CrossStoreHybrid

open BucketTable Program FixedPage

/-- Where one call leaves the stores, and whether it committed. A kill, or an exception out of a
system call, keeps what came before the superblock write; a torn superblock fails its checksum. -/
inductive Call (hash : Hash) (recoveryFirst : Bool) (world : World) (key : String) :
    Bool → World → Prop
  | finished (failpoint : String → Bool) :
      Call hash recoveryFirst world key
        ((finalState (insert hash failpoint recoveryFirst key ⟨world, []⟩)).log.any isSuperblock)
        (finalState (insert hash failpoint recoveryFirst key ⟨world, []⟩)).world
  | cut (before after : List HybridEffect)
      (effects : (finalState (insert hash (fun _ => false) recoveryFirst key ⟨world, []⟩)).log =
        before ++ after)
      (short : before.any isSuperblock = false) :
      Call hash recoveryFirst world key false (world.replay before)
  | torn (before : List HybridEffect) (page tag : Nat) (info : Meta HybridMeta)
      (effects : (finalState (insert hash (fun _ => false) recoveryFirst key ⟨world, []⟩)).log =
        before ++ [.primary (.pwrite page (.superblock tag info))]) :
      Call hash recoveryFirst world key false
        ((world.replay before).apply (.primary (.pwrite page .blank)))

/-- Runs of calls by one process after another; the keys are those whose call is counted. -/
inductive Run (call : World → String → Bool → World → Prop) (initialCapacity : Nat)
    (config : Config) : World → Finset String → Prop
  | start (world : World) (created : initializeStore initialCapacity config = .ok world) :
      Run call initialCapacity config world ∅
  | call {world world' : World} {keys : Finset String} {key : String} {counted : Bool}
      (before : Run call initialCapacity config world keys)
      (called : call world key counted world') :
      Run call initialCapacity config world' (if counted then keys ∪ {key} else keys)
  | reopen {world : World} {keys : Finset String}
      (before : Run call initialCapacity config world keys) :
      Run call initialCapacity config { world with recovered := false } keys

def AnyCall (hash : Hash) (world : World) (key : String) (committed : Bool) (world' : World) :
    Prop :=
  ∃ recoveryFirst, Call hash recoveryFirst world key committed world'

/-- A call that may raise or be killed; if it commits, nothing was left in its way. -/
def FaultyCall (hash : Hash) (world : World) (key : String) (committed : Bool) (world' : World) :
    Prop :=
  ∃ recoveryFirst, Call hash recoveryFirst world key committed world' ∧
    (committed = true → Undisturbed hash (begun recoveryFirst world) key)

variable {hash : Hash} {initialCapacity : Nat} {config : Config} {world world' : World}
  {epoch : Nat} {info : Meta HybridMeta} {primary overflow keys : Finset String} {key : String}

theorem Ending.trail {begun : World} {failpoint : String → Bool}
    {result : EStateM.Result StoreError Session InsertTrace}
    (ending : Ending hash initialCapacity world begun epoch info primary overflow failpoint key
      result) :
    ∃ effects, Quiet hash initialCapacity world epoch info primary overflow effects ∧
      (finalState result = Session.after ⟨world, []⟩ effects ∨
        ∃ active info' primary' overflow', Commit hash initialCapacity world begun epoch info
            primary overflow key effects active info' primary' overflow' ∧
          finalState result =
            Session.after ⟨world, []⟩ (effects ++ [commitEffect epoch active info'])) := by
  cases ending with
  | duplicate _ effects quiet => exact ⟨effects, quiet, Or.inl rfl⟩
  | raised _ effects quiet => exact ⟨effects, quiet, Or.inl rfl⟩
  | committed _ effects _ _ _ _ commit =>
      exact ⟨effects, commit.quiet, Or.inr ⟨_, _, _, _, commit, rfl⟩⟩
  | late _ effects _ _ _ _ commit =>
      exact ⟨effects, commit.quiet, Or.inr ⟨_, _, _, _, commit, rfl⟩⟩

theorem after_log (effects : List HybridEffect) :
    (Session.after ⟨world, []⟩ effects).log = effects := List.nil_append effects

theorem commitEffect_super (epoch : Nat) (active : Bool) (info : Meta HybridMeta) :
    isSuperblock (commitEffect epoch active info) = true := rfl

theorem Quiet.any_super {effects : List HybridEffect}
    (quiet : Quiet hash initialCapacity world epoch info primary overflow effects) :
    effects.any isSuperblock = false :=
  List.any_eq_false.mpr fun effect member => by simp [quiet.plain effect member]

theorem Held.torn (held : Held hash initialCapacity world epoch info primary overflow)
    {active : Bool} (super : readSuper world.disk = .ok (epoch, info, active)) :
    Held hash initialCapacity (world.apply (.primary (.pwrite (!active).toNat .blank))) epoch info
      primary overflow :=
  held.abandoned ((Abandoned.refl world.disk).step held.committed (.torn active super))

/-- A call that does not commit changes nothing that is committed. -/
theorem Call.uncommitted {recoveryFirst : Bool}
    (held : Held hash initialCapacity world epoch info primary overflow)
    (called : Call hash recoveryFirst world key false world') :
    Held hash initialCapacity world' epoch info primary overflow := by
  generalize outcome : false = flag at called
  cases called with
  | finished failpoint =>
      obtain ⟨effects, quiet, plain | ⟨_, _, _, _, _, final⟩⟩ :=
        (insert_run held failpoint recoveryFirst key).trail
      · rw [plain]
        exact quiet.final
      · rw [final, after_log, List.any_append] at outcome
        simp [commitEffect_super] at outcome
  | cut before after effects short =>
      obtain ⟨trail, quiet, plain | ⟨active, info', _, _, _, final⟩⟩ :=
        (insert_run held (fun _ => false) recoveryFirst key).trail
      · rw [plain, after_log] at effects
        exact quiet.cuts before after effects
      · rw [final, after_log] at effects
        rcases List.append_eq_append_iff.mp effects with ⟨more, same, rest⟩ | ⟨more, same, rest⟩
        · cases more with
          | nil =>
              rw [same, List.append_nil]
              exact quiet.final
          | cons first others =>
              have inside : commitEffect epoch active info' = first := by
                simp only [List.cons_append, List.cons.injEq] at rest
                exact rest.1
              rw [same, List.any_append, List.any_cons, ← inside, commitEffect_super] at short
              simp at short
        · exact quiet.cuts before more same
  | torn before page tag held' effects =>
      obtain ⟨trail, quiet, plain | ⟨active, info', _, _, commit, final⟩⟩ :=
        (insert_run held (fun _ => false) recoveryFirst key).trail
      · rw [plain, after_log] at effects
        have last := quiet.plain (.primary (.pwrite page (.superblock tag held'))) (by
          rw [effects]
          simp)
        cases last
      · rw [final, after_log] at effects
        obtain ⟨same, last⟩ := List.append_inj' effects rfl
        subst same
        simp only [commitEffect, List.cons.injEq, and_true, HybridEffect.primary.injEq,
          Effect.pwrite.injEq] at last
        rw [← last.1]
        exact quiet.final.torn commit.super

theorem Call.committed {recoveryFirst : Bool}
    (held : Held hash initialCapacity world epoch info primary overflow)
    (called : Call hash recoveryFirst world key true world')
    (undisturbed : Undisturbed hash (begun recoveryFirst world) key) :
    ∃ info' primary' overflow',
      Held hash initialCapacity world' (epoch + 1) info' primary' overflow' ∧ key ∉ primary ∧
      (primary' = primary ∪ {key} ∧ overflow' = overflow ∧
          Admits hash (begun recoveryFirst world) key ∨
        primary' = primary ∧ overflow' = overflow ∪ {key} ∧ key ∉ overflow) := by
  generalize outcome : true = flag at called
  cases called with
  | cut => cases outcome
  | torn => cases outcome
  | finished failpoint =>
      obtain ⟨effects, quiet, plain | ⟨active, info', primary', overflow', commit, final⟩⟩ :=
        (insert_run held failpoint recoveryFirst key).trail
      · rw [plain, after_log, quiet.any_super] at outcome
        cases outcome
      · rw [final]
        exact ⟨info', primary', overflow', commit.held undisturbed, commit.fresh, commit.added⟩

theorem initializeStore_held (hash : Hash)
    (created : initializeStore initialCapacity config = .ok world) :
    ∃ info, Held hash initialCapacity world 1 info ∅ ∅ := by
  unfold initializeStore at created
  cases made : FixedPage.initializeStore none initialCapacity config (none : HybridMeta) with
  | error error => simp [made, bind, Except.bind] at created
  | ok disk =>
      simp only [made, bind, Except.bind, Except.ok.injEq] at created
      subst created
      obtain ⟨info, conf, ext, committed, fresh⟩ := initializeStore_committed hash made
      have empty : (info.logical (view info.config initialCapacity disk 1)).keys hash info.config =
          0 := by
        rw [fresh, conf]
        exact Logical.fresh_keys initialCapacity
      exact ⟨info, committed, empty, by simp, by simp [overflowRows, ext], by simp, by norm_num⟩

theorem FaultyCall.held (held : Held hash initialCapacity world epoch info primary overflow)
    {committed : Bool} (called : FaultyCall hash world key committed world') :
    ∃ epoch' info' primary' overflow',
      Held hash initialCapacity world' epoch' info' primary' overflow' ∧
      primary' ∪ overflow' =
        if committed then primary ∪ overflow ∪ {key} else primary ∪ overflow := by
  obtain ⟨recoveryFirst, called, undisturbed⟩ := called
  cases committed with
  | false => exact ⟨_, _, _, _, called.uncommitted held, rfl⟩
  | true =>
      obtain ⟨info', primary', overflow', next, _, ⟨rfl, rfl, _⟩ | ⟨rfl, rfl, _⟩⟩ :=
        called.committed held (undisturbed rfl)
      · exact ⟨_, _, _, _, next, Finset.union_right_comm _ _ _⟩
      · exact ⟨_, _, _, _, next, (Finset.union_assoc _ _ _).symm⟩

theorem Run.faulty (run : Run (FaultyCall hash) initialCapacity config world keys) :
    ∃ epoch info primary overflow, Held hash initialCapacity world epoch info primary overflow ∧
      keys = primary ∪ overflow := by
  induction run with
  | start world created =>
      obtain ⟨info, held⟩ := initializeStore_held hash created
      exact ⟨1, info, ∅, ∅, held, rfl⟩
  | call before called ih =>
      obtain ⟨epoch, info, primary, overflow, held, rfl⟩ := ih
      obtain ⟨epoch', info', primary', overflow', next, same⟩ := called.held held
      exact ⟨epoch', info', primary', overflow', next, same.symm⟩
  | reopen before ih =>
      obtain ⟨epoch, info, primary, overflow, held, same⟩ := ih
      exact ⟨epoch, info, primary, overflow, held.recovered false, same⟩

theorem Held.lookupPrimary (held : Held hash initialCapacity world epoch info primary overflow)
    (key : String) :
    ∃ trace, DurableContext.lookup hash (FixedPage.methods hash) key world.primaryFile =
      .ok trace ∧ (trace.found = true ↔ key ∈ primary) := by
  obtain ⟨trace, ran, found⟩ := (held.committed.shown [] fun _ owned => owned).lookup key
  refine ⟨trace, ran, ?_⟩
  rw [found, held.stored, Finset.mem_val]

theorem Held.lookup (held : Held hash initialCapacity world epoch info primary overflow)
    (key : String) :
    ∃ trace, lookup hash key world = .ok trace ∧
      (trace.found = true ↔ key ∈ primary ∪ overflow) := by
  obtain ⟨trace, ran, found⟩ := held.lookupPrimary key
  obtain ⟨active, super⟩ := held.committed.super
  simp only [CrossStoreHybrid.lookup, ran, super, bindInteger_ok held.bounded, bind, Except.bind]
  by_cases here : trace.found = true
  · simp [here, found.mp here]
  · have absent : key ∉ primary := mt found.mpr here
    simp [here, absent, ← held.visible_iff key]

/-- With no failpoint, room to encode and nothing in the way, a new key is admitted. -/
theorem Held.retry (held : Held hash initialCapacity world epoch info primary overflow)
    (recoveryFirst : Bool) (fresh : key ∉ primary ∪ overflow) (size : ¬ 256 < key.utf8ByteSize)
    (undisturbed : Undisturbed hash (begun recoveryFirst world) key)
    (writable : Writable hash (begun recoveryFirst world) key) :
    ∃ trace session, insert hash (fun _ => false) recoveryFirst key ⟨world, []⟩ =
        .ok trace session ∧ trace.duplicate = false ∧
      ∃ found, CrossStoreHybrid.lookup hash key session.world = .ok found ∧
        found.found = true := by
  have ready : NoFuture (begun recoveryFirst world) epoch ∧ epoch + 1 < 2 ^ 63 := by
    obtain ⟨cleanup, first, started, quiet, _⟩ :=
      startup_run ⟨world, []⟩ recoveryFirst held
    have begun_eq : begun recoveryFirst world = world.replay first := by
      rw [begun, started]
      rfl
    obtain ⟨active, super⟩ := quiet.final.committed.super
    refine undisturbed.1 epoch info active ?_
    rw [begun_eq]
    exact super
  have ending := insert_run held (fun _ => false) recoveryFirst key
  generalize insert hash (fun _ => false) recoveryFirst key ⟨world, []⟩ = result at ending
  cases ending with
  | duplicate trace effects quiet unchanged known member => exact absurd member fresh
  | raised error effects quiet reason =>
      rcases reason with long | ⟨_, _, ⟨label, raised⟩ | unfit | future | late⟩
      · exact absurd long size
      · cases raised
      · exact absurd writable unfit
      · exact absurd ready.1 future
      · exact absurd ready.2 (Nat.not_lt.mpr late)
  | committed trace effects active info' primary' overflow' commit new =>
      refine ⟨trace, _, rfl, new, ?_⟩
      obtain ⟨found, ran, visible⟩ := (commit.held undisturbed).lookup key
      refine ⟨found, ran, visible.mpr ?_⟩
      rcases commit.added with ⟨rfl, rfl, _⟩ | ⟨rfl, rfl, _⟩ <;> simp
  | late error effects active info' primary' overflow' commit label =>
      obtain ⟨label, raised⟩ := label
      cases raised

/-- After any run of calls that may raise or be killed, whose commits nothing stood in the way of,
the keys that are found are those whose insert committed, the visible overflow rows are as many as
the superblock says, and a key that is not there can be inserted. -/
theorem faulty_run_exact (run : Run (FaultyCall hash) initialCapacity config world keys) :
    (∀ key, ∃ trace, lookup hash key world = .ok trace ∧ (trace.found = true ↔ key ∈ keys)) ∧
    ∃ epoch info active, readSuper world.disk = .ok (epoch, info, active) ∧
      (world.visible epoch).keys.length = overflowRows info ∧
      ∀ recoveryFirst key, key ∉ keys → ¬ 256 < key.utf8ByteSize →
        Undisturbed hash (begun recoveryFirst world) key →
        Writable hash (begun recoveryFirst world) key →
        ∃ trace session, insert hash (fun _ => false) recoveryFirst key ⟨world, []⟩ =
            .ok trace session ∧ trace.duplicate = false ∧
          ∃ found, lookup hash key session.world = .ok found ∧ found.found = true := by
  obtain ⟨epoch, info, primary, overflow, held, rfl⟩ := run.faulty
  obtain ⟨active, super⟩ := held.committed.super
  exact ⟨held.lookup, epoch, info, active, super, held.visible_count,
    fun recoveryFirst key => held.retry recoveryFirst⟩

def spillConfig : Config := ⟨1 / 2, "0.5", 1, 4, 1, 2, false⟩

def spillWorld : World := ⟨createdDisk (initialMeta 8 spillConfig none), ∅, true⟩

theorem spillWorld_initialized : initializeStore 8 spillConfig = .ok spillWorld := by
  have accepted : checkConfig 8 spillConfig = .ok () := by
    have masked : 8 &&& 7 = 0 := by decide
    norm_num [checkConfig, spillConfig, masked]
  rw [initializeStore, ok_bind (initializeStore_of accepted (by decide +kernel))]
  rfl

def sampleCall (failpoint : String → Bool) (world : World) (key : String) : Session :=
  finalState (insert sampleHash failpoint true key ⟨world, []⟩)

theorem sampleCall_finished (failpoint : String → Bool) (world : World) (key : String)
    (committed : Bool)
    (outcome : (sampleCall failpoint world key).log.any isSuperblock = committed) :
    Call sampleHash true world key committed (sampleCall failpoint world key).world := by
  subst outcome
  exact .finished failpoint

theorem sampleCall_any (failpoint : String → Bool) (world : World) (key : String)
    (committed : Bool)
    (outcome : (sampleCall failpoint world key).log.any isSuperblock = committed) :
    AnyCall sampleHash world key committed (sampleCall failpoint world key).world :=
  ⟨true, sampleCall_finished failpoint world key committed outcome⟩

def sampleInsert (world : World) (key : String) : World :=
  (sampleCall (fun _ => false) world key).world

/-- The primary with three keys of one bucket pair: the fourth has to go to the overflow table. -/
def crowdedWorld : World := sampleInsert (sampleInsert (sampleInsert spillWorld "a") "m") "v"

def overflowCommitted (label : String) : Bool := label == "overflow_committed"

/-- The overflow row of `z` is durable, and the call has raised. -/
def stuckWorld : World := (sampleCall overflowCommitted crowdedWorld "z").world

/-- Nothing is in the way of an insert, as far as a finite file and table can tell. -/
def undisturbedCheck (hash : Hash) (world : World) (key : String) : Bool :=
  settledCheck hash world.disk key &&
    match readSuper world.disk with
    | .ok (epoch, _, _) => world.overflow.entries.all (fun row => decide (row.2 ≤ epoch)) &&
        decide (epoch + 1 < 2 ^ 63)
    | .error _ => true

theorem Undisturbed.of_check (checked : undisturbedCheck hash world key = true) :
    Undisturbed hash world key := by
  rw [undisturbedCheck, Bool.and_eq_true] at checked
  refine ⟨fun epoch info active super => ?_, .of_check checked.1⟩
  have rows := checked.2
  simp only [super, Bool.and_eq_true, List.all_eq_true, decide_eq_true_eq] at rows
  exact ⟨fun row rowEpoch found => rows.1 ⟨row, rowEpoch⟩ (AList.mem_lookup_iff.mp found), rows.2⟩

instance (tx : Txn HybridMeta) : Decidable (PayloadsOf tx) :=
  decidable_of_iff ((∀ entry ∈ tx.changes.entries, pagePayloadLength entry.2 ≤ MAX_PAYLOAD) ∧
      superPayloadLength tx.info ≤ MAX_PAYLOAD)
    ⟨fun fit => ⟨fun page slots changed => fit.1 ⟨page, slots⟩ (AList.mem_lookup_iff.mp changed),
        fit.2⟩,
      fun fit => ⟨fun entry member => fit.pages entry.1 entry.2 (AList.mem_lookup_iff.mpr member),
        fit.superblock⟩⟩

instance (tx : Txn HybridMeta) (newEpoch : Nat) : Decidable (Fits tx newEpoch) :=
  inferInstanceAs (Decidable (_ ∧ _))

def writableCheck (hash : Hash) (world : World) (key : String) : Bool :=
  match readSuper world.disk with
  | .ok (epoch, info, _) =>
      match plannedTx hash world.disk key with
      | some tx => decide (Fits tx (epoch + 1))
      | none => decide
          (superPayloadLength { info with ext := some (overflowRows info + 1) } ≤ MAX_PAYLOAD)
  | .error _ => true

theorem Writable.of_check (checked : writableCheck hash world key = true) :
    Writable hash world key := by
  intro epoch info active super
  simp only [writableCheck, super] at checked
  constructor
  · intro tx planned
    simp only [planned] at checked
    exact of_decide_eq_true checked
  · intro refused
    simp only [refused] at checked
    exact of_decide_eq_true checked

theorem sampleCall_faulty (failpoint : String → Bool) (world : World) (key : String)
    (committed : Bool)
    (outcome : (sampleCall failpoint world key).log.any isSuperblock = committed)
    (settled : committed = true → undisturbedCheck sampleHash (begun true world) key = true) :
    FaultyCall sampleHash world key committed (sampleCall failpoint world key).world :=
  ⟨true, sampleCall_finished failpoint world key committed outcome,
    fun commits => .of_check (settled commits)⟩

/-- The next process recovers and inserts `z` again. -/
def unstuckWorld : World := sampleInsert { stuckWorld with recovered := false } "z"

/-- The insert of `b` killed behind its page write. -/
def cutWorld : World :=
  unstuckWorld.replay ((sampleCall (fun _ => false) unstuckWorld "b").log.take 1)

def mendedWorld : World := sampleInsert { cutWorld with recovered := false } "b"

/-- Before the retry of `b` the theorem promises it, after it the keys are those that committed. -/
theorem faulty_run_exact_sample :
    (∃ trace session, insert sampleHash (fun _ => false) true "b"
        ⟨{ cutWorld with recovered := false }, []⟩ = .ok trace session ∧ trace.duplicate = false ∧
      ∃ found, lookup sampleHash "b" session.world = .ok found ∧ found.found = true) ∧
    (∀ key, ∃ trace, lookup sampleHash key mendedWorld = .ok trace ∧
      (trace.found = true ↔ key ∈ (∅ ∪ {"a"} ∪ {"m"} ∪ {"v"} ∪ {"z"} ∪ {"b"} : Finset String))) ∧
    ∃ epoch info active, readSuper mendedWorld.disk = .ok (epoch, info, active) ∧
      (mendedWorld.visible epoch).keys.length = overflowRows info := by
  have first := (Run.start spillWorld spillWorld_initialized).call
    (sampleCall_faulty (fun _ => false) spillWorld "a" true (by decide +kernel)
      fun _ => by decide +kernel)
  have second := first.call (sampleCall_faulty (fun _ => false) (sampleInsert spillWorld "a") "m"
    true (by decide +kernel) fun _ => by decide +kernel)
  have crowded := second.call (sampleCall_faulty (fun _ => false)
    (sampleInsert (sampleInsert spillWorld "a") "m") "v" true (by decide +kernel)
      fun _ => by decide +kernel)
  have stuck := crowded.call
    (sampleCall_faulty overflowCommitted crowdedWorld "z" false (by decide +kernel) nofun)
  have unstuck := stuck.reopen.call (sampleCall_faulty (fun _ => false)
    { stuckWorld with recovered := false } "z" true (by decide +kernel) fun _ => by decide +kernel)
  have cut : FaultyCall sampleHash unstuckWorld "b" false cutWorld :=
    ⟨true, .cut _ _ (List.take_append_drop 1 _).symm (by decide +kernel), nofun⟩
  have undisturbed : undisturbedCheck sampleHash (begun true { cutWorld with recovered := false })
      "b" = true := by decide +kernel
  have mended := (unstuck.call cut).reopen.call (sampleCall_faulty (fun _ => false)
    { cutWorld with recovered := false } "b" true (by decide +kernel) fun _ => undisturbed)
  obtain ⟨_, _, _, _, _, _, retry⟩ := faulty_run_exact (unstuck.call cut).reopen
  obtain ⟨lookups, epoch, info, active, super, counted, _⟩ := faulty_run_exact mended
  refine ⟨?_, lookups, epoch, info, active, super, counted⟩
  exact retry true "b" (by decide) (by decide) (.of_check undisturbed)
    (.of_check (by decide +kernel))

/-- An insert raises once its overflow row is durable and the process goes on; the insert of another
key then commits the epoch of that row, and the first key is found. -/
theorem interrupted_run_resurrects :
    ¬ ∀ (world : World) (keys : Finset String),
      Run (AnyCall sampleHash) 8 spillConfig world keys → ∀ key trace,
        lookup sampleHash key world = .ok trace → (trace.found = true ↔ key ∈ keys) := by
  intro exact_keys
  have first := (Run.start spillWorld spillWorld_initialized).call
    (sampleCall_any (fun _ => false) spillWorld "a" true (by decide +kernel))
  have second := first.call
    (sampleCall_any (fun _ => false) (sampleInsert spillWorld "a") "m" true (by decide +kernel))
  have crowded := second.call (sampleCall_any (fun _ => false)
    (sampleInsert (sampleInsert spillWorld "a") "m") "v" true (by decide +kernel))
  have stuck := crowded.call (sampleCall_any overflowCommitted crowdedWorld "z" false (by decide +kernel))
  have run := stuck.call (sampleCall_any (fun _ => false) stuckWorld "b" true (by decide +kernel))
  have found : ((lookup sampleHash "z" (sampleInsert stuckWorld "b")).toOption.map
      LookupTrace.found) = some true := by decide +kernel
  obtain ⟨trace, ran, held⟩ := Option.map_eq_some_iff.mp found
  have member := (exact_keys _ _ run "z" trace (eq_ok_of_toOption ran)).mp held
  simp at member

/-- A call left to finish, with no failpoint; whether it returned. -/
def FinishedCall (hash : Hash) (recoveryFirst : Bool) (world : World) (key : String)
    (returned : Bool) (world' : World) : Prop :=
  world' = (finalState (insert hash (fun _ => false) recoveryFirst key ⟨world, []⟩)).world ∧
    (returned = true ↔ ∃ trace session,
      insert hash (fun _ => false) recoveryFirst key ⟨world, []⟩ = .ok trace session)

/-- A call left to finish. If it commits, nothing was left in its way, and a key with an overflow
row is not one the primary has room for. -/
def CrashFreeCall (hash : Hash) (world : World) (key : String) (returned : Bool) (world' : World) :
    Prop :=
  ∃ recoveryFirst, FinishedCall hash recoveryFirst world key returned world' ∧
    ((finalState (insert hash (fun _ => false) recoveryFirst key ⟨world, []⟩)).log.any
        isSuperblock = true → Undisturbed hash (begun recoveryFirst world) key) ∧
    ∀ epoch info active, readSuper world.disk = .ok (epoch, info, active) →
      ((world.visible epoch).lookup key).isSome = true →
        ¬ Admits hash (begun recoveryFirst world) key

theorem CrashFreeCall.held (held : Held hash initialCapacity world epoch info primary overflow)
    (apart : Disjoint primary overflow) {returned : Bool}
    (called : CrashFreeCall hash world key returned world') :
    ∃ epoch' info' primary' overflow',
      Held hash initialCapacity world' epoch' info' primary' overflow' ∧
      Disjoint primary' overflow' ∧
      primary' ∪ overflow' =
        if returned then primary ∪ overflow ∪ {key} else primary ∪ overflow := by
  obtain ⟨recoveryFirst, ⟨rfl, outcome⟩, undisturbed, exclusive⟩ := called
  have ending := insert_run held (fun _ => false) recoveryFirst key
  generalize insert hash (fun _ => false) recoveryFirst key ⟨world, []⟩ = result at *
  cases ending with
  | duplicate trace effects quiet unchanged known member =>
      have counted : returned = true := outcome.mpr ⟨_, _, rfl⟩
      refine ⟨_, _, _, _, quiet.final, apart, ?_⟩
      rw [if_pos counted]
      exact (Finset.union_eq_left.mpr (Finset.singleton_subset_iff.mpr member)).symm
  | raised error effects quiet reason =>
      have dropped : ¬ returned = true := fun counted => by
        obtain ⟨_, _, equal⟩ := outcome.mp counted
        cases equal
      exact ⟨_, _, _, _, quiet.final, apart, (if_neg dropped).symm⟩
  | committed trace effects active info' primary' overflow' commit new =>
      have counted : returned = true := outcome.mpr ⟨_, _, rfl⟩
      have next := commit.held (undisturbed (by
        rw [finalState, after_log, List.any_append]
        simp [commitEffect_super]))
      rw [if_pos counted]
      rcases commit.added with ⟨rfl, rfl, admits⟩ | ⟨rfl, rfl, absent⟩
      · refine ⟨_, _, _, _, next, ?_, Finset.union_right_comm _ _ _⟩
        obtain ⟨active', super⟩ := held.committed.super
        have unspilled : key ∉ overflow' := fun spilled =>
          exclusive epoch info active' super ((held.visible_iff key).mpr spilled) admits
        rw [Finset.disjoint_union_left]
        exact ⟨apart, Finset.disjoint_singleton_left.mpr unspilled⟩
      · refine ⟨_, _, _, _, next, ?_, (Finset.union_assoc _ _ _).symm⟩
        rw [Finset.disjoint_union_right]
        exact ⟨apart, Finset.disjoint_singleton_right.mpr commit.fresh⟩
  | late error effects active info' primary' overflow' commit label =>
      obtain ⟨label, raised⟩ := label
      cases raised

theorem Run.crashFree (run : Run (CrashFreeCall hash) initialCapacity config world keys) :
    ∃ epoch info primary overflow, Held hash initialCapacity world epoch info primary overflow ∧
      Disjoint primary overflow ∧ keys = primary ∪ overflow := by
  induction run with
  | start world created =>
      obtain ⟨info, held⟩ := initializeStore_held hash created
      exact ⟨1, info, ∅, ∅, held, Finset.disjoint_empty_left _, rfl⟩
  | call before called ih =>
      obtain ⟨epoch, info, primary, overflow, held, apart, rfl⟩ := ih
      obtain ⟨epoch', info', primary', overflow', next, apart', same⟩ := called.held held apart
      exact ⟨epoch', info', primary', overflow', next, apart', same.symm⟩
  | reopen before ih =>
      obtain ⟨epoch, info, primary, overflow, held, apart, same⟩ := ih
      exact ⟨epoch, info, primary, overflow, held.recovered false, apart, same⟩

theorem anyM_false {ε α : Type} {test : α → Except ε Bool} (items : List α)
    (passed : ∀ item ∈ items, test item = .ok false) : items.anyM test = .ok false := by
  induction items with
  | nil => rfl
  | cons item rest ih =>
      rw [List.anyM_cons, passed item (by simp)]
      exact ih fun other member => passed other (List.mem_cons_of_mem _ member)

theorem Held.audit (held : Held hash initialCapacity world epoch info primary overflow)
    (apart : Disjoint primary overflow) :
    ∃ result, audit hash world = .ok result ∧ result.valid = true := by
  obtain ⟨active, super⟩ := held.committed.super
  obtain ⟨result, audited, valid⟩ := (held.committed.shown [] fun _ owned => owned).audit
  have audited' : DurableContext.audit (FixedPage.methods hash) world.primaryFile = .ok result :=
    audited
  have single : (world.visible epoch).keys.anyM (fun key => do
      let trace ← DurableContext.lookup hash (FixedPage.methods hash) key world.primaryFile
      .ok trace.found) = .ok false := by
    refine anyM_false _ fun key member => ?_
    obtain ⟨trace, ran, found⟩ := held.lookupPrimary key
    have spilled : key ∈ overflow := by
      rw [← held.visible_iff, AList.lookup_isSome, AList.mem_keys]
      exact member
    have absent : trace.found = false := by
      rw [← Bool.not_eq_true, found]
      exact Finset.disjoint_right.mp apart spilled
    rw [ran]
    exact congrArg Except.ok absent
  refine ⟨⟨true, result.valid, overflowRows info, (world.future epoch).keys.length,
    overflowRows info, false, epoch⟩, ?_, rfl⟩
  have counted := held.visible_count
  simp only [bind, Except.bind] at single
  simp only [CrossStoreHybrid.audit, super, audited', single, bindInteger_ok held.bounded, bind,
    Except.bind, valid, counted]
  simp

/-- In every run of calls left to finish, each key that was inserted is either in the primary or in
a visible overflow row and not in both, the audit is clean, and a key that is there is a duplicate
whose insert changes nothing. -/
theorem crash_free_run_exact (run : Run (CrashFreeCall hash) initialCapacity config world keys) :
    ∃ epoch info active, readSuper world.disk = .ok (epoch, info, active) ∧
      (∀ key, ∃ trace, DurableContext.lookup hash (FixedPage.methods hash) key world.primaryFile =
          .ok trace ∧
        (key ∈ keys ↔ trace.found = true ∨
          ((world.visible epoch).lookup key).isSome = true) ∧
        ¬ (trace.found = true ∧ ((world.visible epoch).lookup key).isSome = true)) ∧
      (∃ result, audit hash world = .ok result ∧ result.valid = true) ∧
      ∀ recoveryFirst key, key ∈ keys →
        (((world.visible epoch).lookup key).isSome = true →
          ¬ Admits hash (begun recoveryFirst world) key) →
        ∃ trace session, insert hash (fun _ => false) recoveryFirst key ⟨world, []⟩ =
            .ok trace session ∧ trace.duplicate = true ∧
          Unchanged world epoch info session.world := by
  obtain ⟨epoch, info, primary, overflow, held, apart, rfl⟩ := run.crashFree
  obtain ⟨active, super⟩ := held.committed.super
  refine ⟨epoch, info, active, super, fun key => ?_, held.audit apart,
    fun recoveryFirst key member exclusive => ?_⟩
  · obtain ⟨trace, ran, found⟩ := held.lookupPrimary key
    have one : ¬ (key ∈ primary ∧ key ∈ overflow) := fun both =>
      Finset.disjoint_left.mp apart both.1 both.2
    refine ⟨trace, ran, ?_, ?_⟩
    · rw [found, held.visible_iff, Finset.mem_union]
    · rwa [found, held.visible_iff]
  · have ending := insert_run held (fun _ => false) recoveryFirst key
    generalize insert hash (fun _ => false) recoveryFirst key ⟨world, []⟩ = result at ending
    cases ending with
    | duplicate trace effects quiet unchanged known _ => exact ⟨trace, _, rfl, known, unchanged⟩
    | raised error effects quiet reason =>
        rcases reason with long | ⟨absent, admits, _⟩
        · exact absurd long (held.short key member)
        · have spilled := (Finset.mem_union.mp member).resolve_left absent
          exact absurd (admits spilled) (exclusive ((held.visible_iff key).mpr spilled))
    | committed trace effects active info' primary' overflow' commit new =>
        have spilled := (Finset.mem_union.mp member).resolve_left commit.fresh
        rcases commit.added with ⟨_, _, admits⟩ | ⟨_, _, absent⟩
        · exact absurd admits (exclusive ((held.visible_iff key).mpr spilled))
        · exact absurd spilled absent
    | late error effects active info' primary' overflow' commit label =>
        obtain ⟨label, raised⟩ := label
        cases raised

theorem sampleInsert_finished (world : World) (key : String)
    (returns : (match insert sampleHash (fun _ => false) true key ⟨world, []⟩ with
      | .ok _ _ => true
      | .error _ _ => false) = true) :
    FinishedCall sampleHash true world key true (sampleInsert world key) := by
  refine ⟨rfl, fun _ => ?_, fun _ => rfl⟩
  revert returns
  cases insert sampleHash (fun _ => false) true key ⟨world, []⟩ with
  | ok trace session => exact fun _ => ⟨trace, session, rfl⟩
  | error error session => exact fun impossible => by cases impossible

theorem Admits.planned (admits : Admits hash world key) :
    (plannedTx hash world.disk key).isSome = true := by
  obtain ⟨epoch, info, active, tx, prepared, file, super, ran, new⟩ := admits
  rw [plannedTx_ok super ran, new]
  rfl

/-- A key with a visible overflow row is not one the primary has room for. -/
def exclusiveCheck (hash : Hash) (world : World) (key : String) : Bool :=
  match readSuper world.disk with
  | .ok (epoch, _, _) => !((world.visible epoch).lookup key).isSome ||
      !(plannedTx hash (begun true world).disk key).isSome
  | .error _ => true

theorem sampleInsert_crashFree (world : World) (key : String)
    (returns : (match insert sampleHash (fun _ => false) true key ⟨world, []⟩ with
      | .ok _ _ => true
      | .error _ _ => false) = true)
    (settled : undisturbedCheck sampleHash (begun true world) key = true)
    (exclusive : exclusiveCheck sampleHash world key = true) :
    CrashFreeCall sampleHash world key true (sampleInsert world key) := by
  refine ⟨true, sampleInsert_finished world key returns, fun _ => .of_check settled,
    fun epoch info active super visible admits => ?_⟩
  simp only [exclusiveCheck, super, visible, admits.planned] at exclusive
  cases exclusive

theorem crash_free_run_exact_sample :
    ∃ epoch info active,
      readSuper (sampleInsert (sampleInsert crowdedWorld "z") "z").disk =
        .ok (epoch, info, active) ∧
      (∀ key, ∃ trace, DurableContext.lookup sampleHash (FixedPage.methods sampleHash) key
          (sampleInsert (sampleInsert crowdedWorld "z") "z").primaryFile = .ok trace ∧
        (key ∈ (∅ ∪ {"a"} ∪ {"m"} ∪ {"v"} ∪ {"z"} ∪ {"z"} : Finset String) ↔ trace.found = true ∨
          (((sampleInsert (sampleInsert crowdedWorld "z") "z").visible epoch).lookup
            key).isSome = true) ∧
        ¬ (trace.found = true ∧
          (((sampleInsert (sampleInsert crowdedWorld "z") "z").visible epoch).lookup
            key).isSome = true)) ∧
      ∃ result, audit sampleHash (sampleInsert (sampleInsert crowdedWorld "z") "z") = .ok result ∧
        result.valid = true := by
  have first := (Run.start spillWorld spillWorld_initialized).call (sampleInsert_crashFree
    spillWorld "a" (by decide +kernel) (by decide +kernel) (by decide +kernel))
  have second := first.call (sampleInsert_crashFree (sampleInsert spillWorld "a") "m"
    (by decide +kernel) (by decide +kernel) (by decide +kernel))
  have crowded := second.call (sampleInsert_crashFree
    (sampleInsert (sampleInsert spillWorld "a") "m") "v"
    (by decide +kernel) (by decide +kernel) (by decide +kernel))
  have spilled := crowded.call (sampleInsert_crashFree crowdedWorld "z"
    (by decide +kernel) (by decide +kernel) (by decide +kernel))
  have repeated := spilled.call (sampleInsert_crashFree (sampleInsert crowdedWorld "z") "z"
    (by decide +kernel) (by decide +kernel) (by decide +kernel))
  obtain ⟨epoch, info, active, super, exactly, audited, _⟩ := crash_free_run_exact repeated
  exact ⟨epoch, info, active, super, exactly, audited⟩

/-- The key `z` has an overflow row; the insert of `b` brings the primary to its threshold. -/
def spilledWorld : World := sampleInsert (sampleInsert crowdedWorld "z") "b"

/-- A key with an overflow row is inserted again once a migration can start: the primary takes it
too, and the audit fails. -/
theorem spilled_key_inserted_twice :
    ¬ ∀ (world : World) (keys : Finset String),
      Run (fun world key returned world' => ∃ recoveryFirst,
        FinishedCall sampleHash recoveryFirst world key returned world') 8 spillConfig world keys →
      ∀ result, audit sampleHash world = .ok result → result.valid = true := by
  intro clean
  have step := fun world key returns =>
    (⟨true, sampleInsert_finished world key returns⟩ : ∃ recoveryFirst,
      FinishedCall sampleHash recoveryFirst world key true (sampleInsert world key))
  have run : Run (fun world key returned world' => ∃ recoveryFirst,
      FinishedCall sampleHash recoveryFirst world key returned world') 8 spillConfig
      (sampleInsert spilledWorld "z") _ :=
    ((((((Run.start spillWorld spillWorld_initialized).call
      (step spillWorld "a" (by decide +kernel))).call
      (step (sampleInsert spillWorld "a") "m" (by decide +kernel))).call
      (step (sampleInsert (sampleInsert spillWorld "a") "m") "v" (by decide +kernel))).call
      (step crowdedWorld "z" (by decide +kernel))).call
      (step (sampleInsert crowdedWorld "z") "b" (by decide +kernel))).call
      (step spilledWorld "z" (by decide +kernel))
  have dirty : ((audit sampleHash (sampleInsert spilledWorld "z")).toOption.map Audit.valid) =
      some false := by decide +kernel
  obtain ⟨result, ran, invalid⟩ := Option.map_eq_some_iff.mp dirty
  rw [clean _ _ run result (eq_ok_of_toOption ran)] at invalid
  cases invalid

end DurableContext.CrossStoreHybrid
