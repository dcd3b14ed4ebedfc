import DurableContext.Storage.CrossStoreHybrid
import DurableContext.Storage.FixedPageRuns

/-! One insert on a cross-store hybrid: what every cut of it leaves visible, and what it adds to
the primary or to the overflow table once it commits. -/

namespace DurableContext.CrossStoreHybrid

open BucketTable Program FixedPage

/-- The committed state of a hybrid: the keys its primary stores and the rows readers see. -/
structure Held (hash : Hash) (initialCapacity : Nat) (world : World) (epoch : Nat)
    (info : Meta HybridMeta) (primary overflow : Finset String) : Prop where
  committed : Committed hash initialCapacity world.disk epoch info
  stored : (info.logical (view info.config initialCapacity world.disk epoch)).keys hash
    info.config = primary.val
  rows : ∀ key, key ∈ overflow ↔ ∃ rowEpoch ≤ epoch, world.overflow.lookup key = some rowEpoch
  counted : overflowRows info = overflow.card
  short : ∀ key ∈ primary ∪ overflow, ¬ 256 < key.utf8ByteSize
  bounded : epoch < 2 ^ 63

variable {hash : Hash} {initialCapacity : Nat} {config : Config} {world world' : World}
  {epoch : Nat} {info : Meta HybridMeta} {primary overflow : Finset String} {key : String}

namespace Held

theorem abandoned (held : Held hash initialCapacity world epoch info primary overflow)
    {disk' : Disk (Block HybridMeta)}
    (harmless : Abandoned initialCapacity world.disk epoch info disk') :
    Held hash initialCapacity { world with disk := disk' } epoch info primary overflow where
  committed := held.committed.abandoned harmless
  stored := by rw [harmless.view held.committed, held.stored]
  rows := held.rows
  counted := held.counted
  short := held.short
  bounded := held.bounded

theorem truncated (held : Held hash initialCapacity world epoch info primary overflow) :
    Held hash initialCapacity (world.apply (.primary (.ftruncate (reachablePages info)))) epoch info
      primary overflow where
  committed := held.committed.truncated.1
  stored := by
    rw [← held.stored, ← held.committed.truncated.2]
    rfl
  rows := held.rows
  counted := held.counted
  short := held.short
  bounded := held.bounded

theorem withOverflow (held : Held hash initialCapacity world epoch info primary overflow)
    {table : Table String Nat}
    (same : ∀ key, (∃ rowEpoch ≤ epoch, table.lookup key = some rowEpoch) ↔
      ∃ rowEpoch ≤ epoch, world.overflow.lookup key = some rowEpoch) (recovered : Bool) :
    Held hash initialCapacity ⟨world.disk, table, recovered⟩ epoch info primary overflow where
  committed := held.committed
  stored := held.stored
  rows := fun key => (held.rows key).trans (same key).symm
  counted := held.counted
  short := held.short
  bounded := held.bounded

theorem futureDeleted (held : Held hash initialCapacity world epoch info primary overflow) :
    Held hash initialCapacity (world.apply (.futureDeleted epoch)) epoch info primary overflow := by
  refine held.withOverflow (fun key => ?_) world.recovered
  simp only [Table.lookup_filter, Option.filter_eq_some_iff, decide_eq_true_eq]
  constructor
  · rintro ⟨rowEpoch, past, found, _⟩
    exact ⟨rowEpoch, past, found⟩
  · rintro ⟨rowEpoch, past, found⟩
    exact ⟨rowEpoch, past, found, past⟩

theorem recovered (held : Held hash initialCapacity world epoch info primary overflow) (flag : Bool) :
    Held hash initialCapacity { world with recovered := flag } epoch info primary overflow :=
  held.withOverflow (fun _ => Iff.rfl) flag

theorem overflowInserted (held : Held hash initialCapacity world epoch info primary overflow)
    (absent : world.overflow.lookup key = none) :
    Held hash initialCapacity (world.apply (.overflowInserted key (epoch + 1))) epoch info primary
      overflow := by
  refine held.withOverflow (fun other => ?_) world.recovered
  by_cases same : other = key
  · subst same
    simp [absent]
  · simp [AList.lookup_insert_ne same]

theorem visible_iff (held : Held hash initialCapacity world epoch info primary overflow) (key : String) :
    ((world.visible epoch).lookup key).isSome = true ↔ key ∈ overflow := by
  rw [held.rows, World.visible, Table.lookup_filter, Option.isSome_iff_exists]
  simp only [Option.filter_eq_some_iff, decide_eq_true_eq, and_comm]

theorem visible_count (held : Held hash initialCapacity world epoch info primary overflow) :
    (world.visible epoch).keys.length = overflowRows info := by
  have same : (world.visible epoch).keys.toFinset = overflow := by
    ext key
    rw [List.mem_toFinset, ← AList.mem_keys, ← AList.lookup_isSome, held.visible_iff]
  rw [held.counted, ← same, List.toFinset_card_of_nodup (world.visible epoch).keys_nodup]

end Held

def isSuperblock : HybridEffect → Bool
  | .primary effect => FixedPage.isSuperblock effect
  | _ => false

theorem World.replay_append (world : World) (first second : List HybridEffect) :
    world.replay (first ++ second) = (world.replay first).replay second :=
  List.foldl_append

theorem World.replay_single (world : World) (effect : HybridEffect) :
    world.replay [effect] = world.apply effect := rfl

theorem World.replay_primary (world : World) (effects : List (Effect (Block HybridMeta))) :
    world.replay (effects.map .primary) = { world with disk := world.disk.replay effects } := by
  induction effects generalizing world with
  | nil => rfl
  | cons effect rest ih => exact ih _

def Session.after (session : Session) (effects : List HybridEffect) : Session :=
  ⟨session.world.replay effects, session.log ++ effects⟩

@[simp] theorem Session.after_world (session : Session) (effects : List HybridEffect) :
    (session.after effects).world = session.world.replay effects := rfl

theorem Session.after_nil (session : Session) : session.after [] = session := by
  simp [Session.after, World.replay]

theorem Session.after_after (session : Session) (first second : List HybridEffect) :
    (session.after first).after second = session.after (first ++ second) := by
  simp [Session.after, World.replay_append]

/-- Effects that commit nothing and leave the committed state alone wherever they are cut. -/
structure Quiet (hash : Hash) (initialCapacity : Nat) (world : World) (epoch : Nat)
    (info : Meta HybridMeta) (primary overflow : Finset String) (effects : List HybridEffect) :
    Prop where
  cuts : ∀ before after, effects = before ++ after →
    Held hash initialCapacity (world.replay before) epoch info primary overflow
  plain : ∀ effect ∈ effects, isSuperblock effect = false

namespace Quiet

theorem nil (held : Held hash initialCapacity world epoch info primary overflow) :
    Quiet hash initialCapacity world epoch info primary overflow [] where
  cuts := by
    intro before after split
    rw [(List.append_eq_nil_iff.mp split.symm).1]
    exact held
  plain := by simp

theorem single {effect : HybridEffect} (plain : isSuperblock effect = false)
    (held : Held hash initialCapacity world epoch info primary overflow)
    (later : Held hash initialCapacity (world.apply effect) epoch info primary overflow) :
    Quiet hash initialCapacity world epoch info primary overflow [effect] where
  cuts := by
    intro before after split
    cases before with
    | nil => exact held
    | cons first rest =>
        simp only [List.cons_append, List.cons.injEq] at split
        rw [← split.1, (List.append_eq_nil_iff.mp split.2.symm).1]
        exact later
  plain := by simpa using plain

theorem append {first second : List HybridEffect}
    (early : Quiet hash initialCapacity world epoch info primary overflow first)
    (late : Quiet hash initialCapacity (world.replay first) epoch info primary overflow second) :
    Quiet hash initialCapacity world epoch info primary overflow (first ++ second) where
  cuts := by
    intro before after split
    rcases List.append_eq_append_iff.mp split with ⟨more, same, rest⟩ | ⟨more, same, rest⟩
    · rw [same, World.replay_append]
      exact late.cuts more after rest
    · exact early.cuts before more same
  plain := by
    intro effect member
    rcases List.mem_append.mp member with early' | late'
    · exact early.plain effect early'
    · exact late.plain effect late'

theorem final {effects : List HybridEffect}
    (quiet : Quiet hash initialCapacity world epoch info primary overflow effects) :
    Held hash initialCapacity (world.replay effects) epoch info primary overflow :=
  quiet.cuts effects [] (List.append_nil _).symm

theorem onPrimary (held : Held hash initialCapacity world epoch info primary overflow)
    {effects : List (Effect (Block HybridMeta))}
    (harmless : ∀ effect ∈ effects, Harmless initialCapacity world.disk epoch info effect) :
    Quiet hash initialCapacity world epoch info primary overflow (effects.map .primary) where
  cuts := by
    intro before after split
    obtain ⟨done, rest, whole, rfl, _⟩ := List.map_eq_append_iff.mp split
    rw [World.replay_primary]
    refine held.abandoned (held.committed.replay fun effect member => harmless effect ?_)
    rw [whole]
    exact List.mem_append_left _ member
  plain := by
    intro effect member
    obtain ⟨inner, inside, rfl⟩ := List.mem_map.mp member
    exact (harmless inner inside).not_super

end Quiet

section Startup

variable {session : Session}

theorem emit_run (effect : HybridEffect) : emit effect session = .ok ⟨⟩ (session.after [effect]) :=
  rfl

theorem emitIf_run (condition : Bool) (effect : HybridEffect) :
    emitIf condition effect session =
      .ok ⟨⟩ (session.after (if condition then [effect] else [])) := by
  cases condition with
  | false => simp [emitIf, Session.after_nil, pure_run]
  | true => rfl

theorem readEpochMeta_run (session : Session) {active : Bool}
    (super : readSuper session.world.disk = .ok (epoch, info, active)) :
    readEpochMeta session = .ok (epoch, info) session := by
  unfold readEpochMeta
  rw [bind_of_ok (get_run _), super, bind_of_ok (ofResult_ok _ _)]
  rfl

structure Unchanged (world : World) (epoch : Nat) (info : Meta HybridMeta) (world' : World) :
    Prop where
  pages : ∀ page < reachablePages info, world'.disk.pread page = world.disk.pread page
  visible : world'.visible epoch = world.visible epoch

theorem Unchanged.trans {world'' : World} (first : Unchanged world epoch info world')
    (second : Unchanged world' epoch info world'') : Unchanged world epoch info world'' :=
  ⟨fun page inside => (second.pages page inside).trans (first.pages page inside),
    second.visible.trans first.visible⟩

theorem Unchanged.refl (world : World) (epoch : Nat) (info : Meta HybridMeta) :
    Unchanged world epoch info world := ⟨fun _ _ => rfl, rfl⟩

theorem recover_effects (session : Session) {active : Bool}
    (super : readSuper session.world.disk = .ok (epoch, info, active)) (small : epoch < 2 ^ 63) :
    ∃ trace, recover session = .ok trace (session.after
      ((if (session.world.future epoch).keys.length ≠ 0 then [.futureDeleted epoch] else []) ++
        (if session.world.disk.size - reachablePages info ≠ 0 then
          [.primary (.ftruncate (reachablePages info))] else []) ++ [.recovered])) := by
  unfold recover
  rw [bind_of_ok (readEpochMeta_run _ super)]
  simp only
  rw [bindInteger_ok small, bind_of_ok (ofResult_ok _ _), bind_of_ok (get_run _),
    bind_of_ok (emitIf_run _ _), bind_of_ok (emitIf_run _ _), bind_of_ok (emit_run _), Session.after_after, Session.after_after, ← List.append_assoc]
  simp only [decide_eq_true_eq]
  exact ⟨_, pure_run _ _⟩

theorem recover_run (session : Session)
    (held : Held hash initialCapacity session.world epoch info primary overflow) :
    ∃ trace effects, recover session = .ok trace (session.after effects) ∧
      Quiet hash initialCapacity session.world epoch info primary overflow effects ∧
      Unchanged session.world epoch info (session.world.replay effects) := by
  obtain ⟨active, super⟩ := held.committed.super
  obtain ⟨trace, ran⟩ := recover_effects session super held.bounded
  set first : List HybridEffect :=
    if (session.world.future epoch).keys.length ≠ 0 then [.futureDeleted epoch] else [] with first_eq
  set second : List HybridEffect :=
    if session.world.disk.size - reachablePages info ≠ 0 then
      [.primary (.ftruncate (reachablePages info))] else [] with second_eq
  have early : Quiet hash initialCapacity session.world epoch info primary overflow first ∧
      Unchanged session.world epoch info (session.world.replay first) := by
    rw [first_eq]
    split
    · refine ⟨.single rfl held held.futureDeleted, fun _ _ => rfl, ?_⟩
      refine Table.filter_eq_self fun key rowEpoch found => ?_
      change (Table.filter _ _).lookup key = _ at found
      rw [Table.lookup_filter, Option.filter_eq_some_iff] at found
      exact found.2
    · exact ⟨.nil held, .refl _ _ _⟩
  have late : Quiet hash initialCapacity (session.world.replay first) epoch info primary overflow
        second ∧
      Unchanged (session.world.replay first) epoch info
        ((session.world.replay first).replay second) := by
    rw [second_eq]
    split
    · refine ⟨.single rfl early.1.final early.1.final.truncated, fun page inside => ?_, rfl⟩
      exact if_pos inside
    · exact ⟨.nil early.1.final, .refl _ _ _⟩
  have last : Quiet hash initialCapacity ((session.world.replay first).replay second) epoch info
      primary overflow [.recovered] :=
    .single rfl late.1.final (late.1.final.recovered true)
  refine ⟨trace, first ++ second ++ [.recovered], ran, (early.1.append late.1).append ?_, ?_⟩
  · rw [World.replay_append]
    exact last
  · rw [World.replay_append, World.replay_append]
    exact early.2.trans (late.2.trans ⟨fun _ _ => rfl, rfl⟩)

theorem startup_run (session : Session) (recoveryFirst : Bool)
    (held : Held hash initialCapacity session.world epoch info primary overflow) :
    ∃ trace effects, startup recoveryFirst session = .ok trace (session.after effects) ∧
      Quiet hash initialCapacity session.world epoch info primary overflow effects ∧
      Unchanged session.world epoch info (session.world.replay effects) := by
  unfold startup
  rw [bind_of_ok (get_run _)]
  simp only
  split
  · exact recover_run session held
  · obtain ⟨active, super⟩ := held.committed.super
    rw [bind_of_ok (readEpochMeta_run _ super)]
    exact ⟨_, [], by rw [Session.after_nil]; rfl, .nil held, .refl _ _ _⟩

end Startup

section Insert

variable {session : Session} {active : Bool}

theorem withPrimary_eq {file : File HybridMeta}
    (replayed : file.disk = session.world.disk.replay file.log) :
    session.withPrimary file = session.after (file.log.map .primary) := by
  rw [Session.withPrimary, Session.after, World.replay_primary, replayed]

theorem onPrimary_ok {α : Type} {program : Op StoreError (File HybridMeta) α} {value : α}
    {file : File HybridMeta} (ran : program ⟨session.world.disk, []⟩ = .ok value file)
    (replayed : file.disk = session.world.disk.replay file.log) :
    onPrimary program session = .ok value (session.after (file.log.map .primary)) := by
  rw [← withPrimary_eq replayed]
  simp only [onPrimary, World.primaryFile, ran]

theorem onPrimary_error {α : Type} {program : Op StoreError (File HybridMeta) α}
    {error : StoreError} {file : File HybridMeta}
    (ran : program ⟨session.world.disk, []⟩ = .error error file)
    (replayed : file.disk = session.world.disk.replay file.log) :
    onPrimary program session = .error error (session.after (file.log.map .primary)) := by
  rw [← withPrimary_eq replayed]
  simp only [onPrimary, World.primaryFile, ran]

def commitEffect (epoch : Nat) (active : Bool) (info : Meta HybridMeta) : HybridEffect :=
  .primary (.pwrite (!active).toNat (.superblock (epoch + 1) info))

theorem commit_replayed {disk : Disk (Block HybridMeta)} {file : File HybridMeta}
    {tx : Txn HybridMeta}
    (replayed : (file.written epoch (epoch + 1) tx.sortedChanges).disk =
      disk.replay (file.written epoch (epoch + 1) tx.sortedChanges).log) :
    (file.commit epoch tx active).disk = disk.replay (file.commit epoch tx active).log := by
  rw [commit_log, Disk.replay_append, ← replayed]
  rfl

def NoFuture (world : World) (epoch : Nat) : Prop :=
  ∀ row rowEpoch, world.overflow.lookup row = some rowEpoch → rowEpoch ≤ epoch

theorem NoFuture.next (settled : NoFuture world epoch) (row : String) :
    (∃ rowEpoch ≤ epoch + 1, world.overflow.lookup row = some rowEpoch) ↔
      ∃ rowEpoch ≤ epoch, world.overflow.lookup row = some rowEpoch := by
  constructor
  · rintro ⟨rowEpoch, _, found⟩
    exact ⟨rowEpoch, settled row rowEpoch found, found⟩
  · rintro ⟨rowEpoch, past, found⟩
    exact ⟨rowEpoch, Nat.le_succ_of_le past, found⟩

/-- The primary has room for the key, which it does not store yet. -/
def Admits (hash : Hash) (world : World) (key : String) : Prop :=
  ∃ epoch info active tx prepared file, readSuper world.disk = .ok (epoch, info, active) ∧
    prepareInsert hash (methods hash) epoch info key ⟨world.disk, []⟩ = .ok (tx, prepared) file ∧
    prepared.duplicate = false

/-- What a call does that commits through the primary. -/
structure PrimaryCommit (hash : Hash) (initialCapacity : Nat) (world : World) (epoch : Nat)
    (info : Meta HybridMeta) (primary overflow : Finset String) (key : String)
    (effects : List HybridEffect) (active : Bool) (info' : Meta HybridMeta) : Prop where
  quiet : Quiet hash initialCapacity world epoch info primary overflow effects
  super : readSuper (world.replay effects).disk = .ok (epoch, info, active)
  fresh : key ∉ primary
  short : ¬ 256 < key.utf8ByteSize
  admits : Admits hash world key
  held : NoFuture world epoch → epoch + 1 < 2 ^ 63 → Settled hash world.disk key →
    Held hash initialCapacity (world.replay (effects ++ [commitEffect epoch active info']))
      (epoch + 1) info' (primary ∪ {key}) overflow

theorem primaryCommit_held (held : Held hash initialCapacity world epoch info primary overflow)
    (failpoint : String → Bool) {tx : Txn HybridMeta} {prepared : Prepared} {file : File HybridMeta}
    (ran : prepareInsert hash (methods hash) epoch info key ⟨world.disk, []⟩ =
      .ok (tx, prepared) file)
    (final : finalState (DurableContext.insert hash (methods hash) failpoint key
      ⟨world.disk, []⟩) = file.commit epoch tx active)
    (noFuture : NoFuture world epoch) (early : epoch + 1 < 2 ^ 63)
    (settled : Settled hash world.disk key) :
    Held hash initialCapacity { world with disk := (file.commit epoch tx active).disk } (epoch + 1)
      tx.info (primary ∪ {key}) overflow := by
  have called : FixedPage.Call hash world.disk key _ _ := .finished failpoint
  rw [final] at called
  have commits : (file.commit epoch tx active).log.any FixedPage.isSuperblock = true := by
    rw [commit_log, List.any_append]
    simp [FixedPage.isSuperblock]
  rw [commits] at called
  obtain ⟨tx', prepared', file', ran', ready, _, next, keys, _⟩ := called.committed held.committed
    settled
  rw [ran] at ran'
  cases ran'
  have fresh : key ∉ primary := by
    have absent := ready.fresh
    rwa [held.stored] at absent
  refine ⟨next, ?_, fun row => ?_, ?_, ?_, early⟩
  · rw [keys, held.stored, Finset.union_comm, ← Finset.insert_eq,
      Finset.insert_val_of_notMem fresh]
  · rw [held.rows row]
    exact (noFuture.next row).symm
  · rw [overflowRows, ready.ext]
    exact held.counted
  · intro row member
    simp only [Finset.mem_union, Finset.mem_singleton] at member
    rcases member with (known | rfl) | spilled
    · exact held.short row (Finset.mem_union_left _ known)
    · exact ready.short
    · exact held.short row (Finset.mem_union_right _ spilled)

section TryPrimary

variable {failpoint : String → Bool} {file : File HybridMeta} {error : StoreError}

theorem tryPrimary_returned {trace : DurableContext.InsertTrace}
    (ran : DurableContext.insert hash (methods hash) (fun stage => failpoint ("primary_" ++ stage))
      key ⟨session.world.disk, []⟩ = .ok trace file)
    (replayed : file.disk = session.world.disk.replay file.log) :
    tryPrimary hash failpoint key session =
      .ok (some trace) (session.after (file.log.map .primary)) := by
  unfold tryPrimary
  rw [tryCatch_of_ok (by rw [bind_of_ok (onPrimary_ok ran replayed)]; exact pure_run _ _)]

theorem tryPrimary_refused
    (ran : DurableContext.insert hash (methods hash) (fun stage => failpoint ("primary_" ++ stage))
      key ⟨session.world.disk, []⟩ = .error error file)
    (replayed : file.disk = session.world.disk.replay file.log)
    (exhausted : error.isExhausted = true) :
    tryPrimary hash failpoint key session = .ok none (session.after (file.log.map .primary)) := by
  unfold tryPrimary
  rw [tryCatch_of_error (bind_of_error (onPrimary_error ran replayed))]
  simp only [exhausted, if_true]
  exact pure_run _ _

theorem tryPrimary_raised
    (ran : DurableContext.insert hash (methods hash) (fun stage => failpoint ("primary_" ++ stage))
      key ⟨session.world.disk, []⟩ = .error error file)
    (replayed : file.disk = session.world.disk.replay file.log)
    (kind : error.isExhausted = false) :
    tryPrimary hash failpoint key session =
      .error error (session.after (file.log.map .primary)) := by
  unfold tryPrimary
  rw [tryCatch_of_error (bind_of_error (onPrimary_error ran replayed))]
  simp only [kind, Bool.false_eq_true, if_false]
  exact throw_run _ _

end TryPrimary

/-- The primary's part of an insert: a duplicate, a refusal, an exception, or a commit. -/
theorem tryPrimary_run (session : Session)
    (held : Held hash initialCapacity session.world epoch info primary overflow)
    (super : readSuper session.world.disk = .ok (epoch, info, active))
    (failpoint : String → Bool) (key : String) :
    (∃ trace, tryPrimary hash failpoint key session = .ok (some trace) session ∧
      trace.duplicate = true ∧ key ∈ primary) ∨
    (∃ effects, tryPrimary hash failpoint key session = .ok none (session.after effects) ∧
      Quiet hash initialCapacity session.world epoch info primary overflow effects ∧
      (session.world.replay effects).overflow = session.world.overflow ∧
      (∀ page, (session.world.replay effects).disk.pread page = session.world.disk.pread page) ∧
      key ∉ primary ∧ ¬ 256 < key.utf8ByteSize ∧
      plannedChanges hash session.world.disk key = ∅ ∧
      plannedTx hash session.world.disk key = none) ∨
    (∃ error effects, tryPrimary hash failpoint key session = .error error (session.after effects) ∧
      Quiet hash initialCapacity session.world epoch info primary overflow effects ∧
      (256 < key.utf8ByteSize ∨ key ∉ primary ∧ Admits hash session.world key ∧
        ((∃ label, failpoint label = true) ∨
          ∃ tx, plannedTx hash session.world.disk key = some tx ∧ ¬ Fits tx (epoch + 1)))) ∨
    (∃ effects info', PrimaryCommit hash initialCapacity session.world epoch info primary overflow
        key effects active info' ∧
      ((∃ trace, tryPrimary hash failpoint key session =
          .ok (some trace) (session.after (effects ++ [commitEffect epoch active info'])) ∧
          trace.duplicate = false) ∨
        (∃ error, tryPrimary hash failpoint key session =
          .error error (session.after (effects ++ [commitEffect epoch active info']))) ∧
          ∃ label, failpoint label = true)) := by
  rcases insert_run held.committed super [] (fun stage => failpoint ("primary_" ++ stage)) key with ⟨trace, ran, duplicate, member, _⟩ |
    ⟨error, file, ran, extended, refused, refusal⟩ |
    ⟨tx, prepared, file, planned, new, extended, ready, outcome⟩
  · left
    refine ⟨trace, ?_, duplicate, by rwa [held.stored] at member⟩
    rw [tryPrimary_returned ran rfl, List.map_nil, Session.after_nil]
  · obtain ⟨replayed, harmless⟩ := extended.harmless initialCapacity epoch
    have quiet := Quiet.onPrimary held harmless
    rcases refusal with ⟨long, kind⟩ | ⟨size, exhausted, fresh⟩
    · right; right; left
      exact ⟨error, _, tryPrimary_raised ran replayed kind, quiet, Or.inl long⟩
    · right; left
      rw [held.stored] at fresh
      refine ⟨_, tryPrimary_refused ran replayed exhausted.isExhausted, quiet, ?_, ?_, fresh, size,
        plannedChanges_error super refused, plannedTx_error super refused⟩
      · rw [World.replay_primary]
      · intro page
        rw [World.replay_primary, ← replayed]
        exact extended.unread held.committed page
  · have planned' := plannedTx_ok super planned
    rw [new, if_neg Bool.false_ne_true] at planned'
    have fresh : key ∉ primary := by
      have absent := ready.fresh
      rwa [held.stored] at absent
    have admits : Admits hash session.world key :=
      ⟨epoch, info, active, tx, prepared, file, super, planned, new⟩
    rcases outcome with ⟨done, rest, error, split, ran, kind, reason⟩ | committing
    · right; right; left
      obtain ⟨replayed, harmless⟩ := written_harmless held.committed extended ready split
      refine ⟨error, _, tryPrimary_raised ran replayed kind, Quiet.onPrimary held harmless,
        Or.inr ⟨fresh, admits, ?_⟩⟩
      exact reason.imp (fun ⟨label, raised⟩ => ⟨_, raised⟩) fun unfit => ⟨tx, planned', unfit⟩
    · right; right; right
      obtain ⟨replayed, harmless⟩ := written_harmless held.committed extended ready
        (List.append_nil _).symm
      have quiet := Quiet.onPrimary held harmless
      have whole : (file.commit epoch tx active).disk =
          session.world.disk.replay (file.commit epoch tx active).log := commit_replayed replayed
      have moved : (file.commit epoch tx active).log.map HybridEffect.primary =
          (file.written epoch (epoch + 1) tx.sortedChanges).log.map .primary ++
            [commitEffect epoch active tx.info] := by
        rw [commit_log, List.map_append]
        rfl
      have final : finalState (DurableContext.insert hash (methods hash)
          (fun stage => failpoint ("primary_" ++ stage)) key ⟨session.world.disk, []⟩) =
            file.commit epoch tx active := by
        rcases committing with ⟨trace, ran, _⟩ | ⟨ran, _⟩ <;> rw [ran] <;> rfl
      refine ⟨_, tx.info, ⟨quiet, ?_, fresh, ready.short, admits,
        fun noFuture early settled => ?_⟩, ?_⟩
      · rw [World.replay_primary]
        exact (held.committed.replay harmless).readSuper super
      · rw [← moved, World.replay_primary, ← whole]
        exact primaryCommit_held held _ planned final noFuture early settled
      · rw [← moved]
        rcases committing with ⟨trace, ran, duplicate, _⟩ | ⟨ran, raised⟩
        · exact Or.inl ⟨trace, tryPrimary_returned ran whole, duplicate⟩
        · exact Or.inr ⟨⟨.interrupted "committed", tryPrimary_raised ran whole rfl⟩, _, raised⟩

theorem advanceSuperblock_run (session : Session)
    (super : readSuper session.world.disk = .ok (epoch, info, active))
    (count : Nat) :
    (advanceSuperblock epoch count session = .ok (epoch + 1)
      (session.after [commitEffect epoch active { info with ext := some count }])) ∨
    (∃ error, advanceSuperblock epoch count session = .error error session) ∧
      (MAX_PAYLOAD < superPayloadLength { info with ext := some count } ∨ 2 ^ 64 ≤ epoch + 1) := by
  set info' : Meta HybridMeta := { info with ext := some count } with info'_eq
  unfold advanceSuperblock
  rw [bind_of_ok (readEpochMeta_run _ super)]
  simp only [ne_eq, not_true_eq_false, if_false]
  cases packed : (packSuper (epoch + 1) info' : Except StoreError (Block HybridMeta)) with
  | ok block =>
      left
      have ran : FixedPage.writeSuper epoch (epoch + 1) info' ⟨session.world.disk, []⟩ =
          .ok ⟨⟩ ⟨session.world.disk.apply (.pwrite (!active).toNat (.superblock (epoch + 1) info')),
            [.pwrite (!active).toNat (.superblock (epoch + 1) info')]⟩ := by
        unfold FixedPage.writeSuper
        rw [bind_of_ok (get_run _), super, bind_of_ok (ofResult_ok _ _)]
        simp only [packed]
        rw [bind_of_ok (ofResult_ok _ _), (packSuper_ok packed).1]
        rfl
      rw [bind_of_ok (onPrimary_ok ran rfl)]
      rfl
  | error error =>
      right
      have ran : FixedPage.writeSuper epoch (epoch + 1) info' ⟨session.world.disk, []⟩ =
          .error error ⟨session.world.disk, []⟩ := by
        unfold FixedPage.writeSuper
        rw [bind_of_ok (get_run _), super, bind_of_ok (ofResult_ok _ _)]
        simp only [packed]
        rw [bind_of_error (ofResult_error _ _)]
      constructor
      · refine ⟨error, ?_⟩
        rw [bind_of_error (onPrimary_error ran rfl), List.map_nil, Session.after_nil]
      · exact (packSuper_error packed).1.imp_right And.right

/-- The epoch moves on and nothing else does: every page must already show what it will. -/
theorem Held.advanced (held : Held hash initialCapacity world epoch info primary overflow)
    (super : readSuper world.disk = .ok (epoch, info, active)) (count : Nat)
    (settled : ∀ page slots, readLogicalPage world.disk page (epoch + 1) slots =
      readLogicalPage world.disk page epoch slots) :
    ∃ disk', world.apply (commitEffect epoch active { info with ext := some count }) =
        { world with disk := disk' } ∧
      Committed hash initialCapacity disk' (epoch + 1) { info with ext := some count } ∧
      view info.config initialCapacity disk' (epoch + 1) =
        view info.config initialCapacity world.disk epoch := by
  set tx : Txn HybridMeta := Txn.start epoch { info with ext := some count } with tx_eq
  have empty : ∀ page, tx.changes.lookup page = none := fun _ => rfl
  have unwritten : committedDisk world.disk epoch tx active =
      world.disk.apply (.pwrite (!active).toNat (.superblock (epoch + 1) tx.info)) := by
    have nothing : tx.sortedChanges = [] := rfl
    rw [committedDisk, nothing]
    rfl
  have shape : ∀ page keys, tx.changes.lookup page = some keys → page < tx.info.nextPageId ∧
      keys.length = (layout info.config initialCapacity).role info.config page := by
    intro page keys changed
    rw [empty] at changed
    cases changed
  obtain ⟨next, shown⟩ := held.committed.commit super shape
    ⟨held.committed.laid.base, held.committed.laid.capacity, held.committed.laid.next,
      held.committed.laid.old⟩ le_rfl rfl held.committed.wf
    (fun page _ slots => by
      have same := settled page slots
      rwa [readLogicalPage_eq, readLogicalPage_eq, Except.ok.injEq] at same)
  exact ⟨_, by rw [unwritten]; rfl, next, shown⟩

/-- What a call does that commits through the overflow table. -/
structure OverflowCommit (hash : Hash) (initialCapacity : Nat) (world : World) (epoch : Nat)
    (info : Meta HybridMeta) (primary overflow : Finset String) (key : String)
    (effects : List HybridEffect) (active : Bool) (info' : Meta HybridMeta) : Prop where
  quiet : Quiet hash initialCapacity world epoch info primary overflow effects
  super : readSuper (world.replay effects).disk = .ok (epoch, info, active)
  fresh : key ∉ overflow
  held : NoFuture world epoch → (∀ page slots, readLogicalPage world.disk page (epoch + 1) slots =
      readLogicalPage world.disk page epoch slots) →
    Held hash initialCapacity (world.replay (effects ++ [commitEffect epoch active info']))
      (epoch + 1) info' primary (overflow ∪ {key})

theorem overflowCommit (held : Held hash initialCapacity world epoch info primary overflow)
    (super : readSuper world.disk = .ok (epoch, info, active)) (fresh : key ∉ overflow)
    (absent : world.overflow.lookup key = none) (size : ¬ 256 < key.utf8ByteSize)
    (early : epoch + 1 < 2 ^ 63) :
    OverflowCommit hash initialCapacity world epoch info primary overflow key
      [.overflowInserted key (epoch + 1)] active
      { info with ext := some (overflowRows info + 1) } where
  quiet := .single rfl held (held.overflowInserted absent)
  super := super
  fresh := fresh
  held := by
    intro noFuture settled
    obtain ⟨disk', moved, next, shown⟩ := (held.overflowInserted absent).advanced super
      (overflowRows info + 1) settled
    rw [World.replay_append, World.replay_single, World.replay_single, moved]
    refine ⟨next, ?_, fun row => ?_, ?_, ?_, early⟩
    · rw [← held.stored]
      show (Meta.logical _ (view info.config initialCapacity disk' (epoch + 1))).keys hash _ = _
      rw [shown]
      rfl
    · have rows : row ∈ overflow ↔ ∃ rowEpoch ≤ epoch + 1, world.overflow.lookup row =
          some rowEpoch := (held.rows row).trans (noFuture.next row).symm
      show row ∈ overflow ∪ {key} ↔ ∃ rowEpoch ≤ epoch + 1,
        (world.overflow.insert key (epoch + 1)).lookup row = some rowEpoch
      by_cases same : row = key
      · subst same
        simp
      · rw [AList.lookup_insert_ne same, ← rows]
        simp [same]
    · show overflowRows info + 1 = _
      rw [Finset.union_comm, ← Finset.insert_eq, Finset.card_insert_of_notMem fresh, held.counted]
    · intro row member
      simp only [Finset.mem_union, Finset.mem_singleton] at member
      rcases member with known | spilled | rfl
      · exact held.short row (Finset.mem_union_left _ known)
      · exact held.short row (Finset.mem_union_right _ spilled)
      · exact size

theorem addOverflowRow_run (session : Session) (failpoint : String → Bool) (key : String) (futureEpoch : Nat) :
    (∃ error, addOverflowRow failpoint key futureEpoch session = .error error session ∧
      ((session.world.overflow.lookup key).isSome = true ∨ (∃ label, failpoint label = true) ∨
        2 ^ 63 ≤ futureEpoch)) ∨
    (session.world.overflow.lookup key = none ∧ futureEpoch < 2 ^ 63 ∧
      (addOverflowRow failpoint key futureEpoch session =
          .ok ⟨⟩ (session.after [.overflowInserted key futureEpoch]) ∨
        (∃ error, addOverflowRow failpoint key futureEpoch session =
          .error error (session.after [.overflowInserted key futureEpoch])) ∧
          ∃ label, failpoint label = true)) := by
  unfold addOverflowRow
  by_cases small : futureEpoch < 2 ^ 63
  rotate_left
  · left
    have refused : bindInteger futureEpoch = .error (.overflowError
        "Python int too large to convert to SQLite INTEGER") := if_neg small
    rw [refused, bind_of_error (ofResult_error _ _)]
    exact ⟨_, rfl, Or.inr (Or.inr (Nat.le_of_not_lt small))⟩
  rw [bindInteger_ok small, bind_of_ok (ofResult_ok _ _), bind_of_ok (get_run _)]
  simp only
  by_cases present : (session.world.overflow.lookup key).isSome = true
  · left
    rw [if_pos present]
    exact ⟨_, throw_run _ _, Or.inl present⟩
  · rw [if_neg present]
    by_cases first : failpoint "overflow_uncommitted" = true
    · left
      rw [bind_of_error (by rw [reach_run, if_pos first])]
      exact ⟨_, rfl, Or.inr (Or.inl ⟨_, first⟩)⟩
    · right
      refine ⟨by simpa using present, small, ?_⟩
      rw [bind_of_ok (by rw [reach_run, if_neg first]), bind_of_ok (emit_run _), reach_run]
      by_cases second : failpoint "overflow_committed" = true
      · rw [if_pos second]
        exact Or.inr ⟨⟨_, rfl⟩, _, second⟩
      · rw [if_neg second]
        exact Or.inl rfl

theorem insertOverflow_run (session : Session)
    (held : Held hash initialCapacity session.world epoch info primary overflow)
    (super : readSuper session.world.disk = .ok (epoch, info, active))
    (failpoint : String → Bool) (size : ¬ 256 < key.utf8ByteSize) (cleanup : RecoveryTrace) :
    (∃ trace, insertOverflow failpoint key cleanup session = .ok trace session ∧
      trace.duplicate = true ∧ key ∈ overflow) ∨
    (∃ error effects, insertOverflow failpoint key cleanup session =
        .error error (session.after effects) ∧ key ∉ overflow ∧
      Quiet hash initialCapacity session.world epoch info primary overflow effects ∧
      ((∃ label, failpoint label = true) ∨ 2 ^ 63 ≤ epoch + 1 ∨
        MAX_PAYLOAD < superPayloadLength { info with ext := some (overflowRows info + 1) } ∨
        ¬ NoFuture session.world epoch)) ∨
    (∃ effects info', OverflowCommit hash initialCapacity session.world epoch info primary overflow
        key effects active info' ∧
      ((∃ trace, insertOverflow failpoint key cleanup session =
          .ok trace (session.after (effects ++ [commitEffect epoch active info'])) ∧
          trace.duplicate = false) ∨
        (∃ error, insertOverflow failpoint key cleanup session =
          .error error (session.after (effects ++ [commitEffect epoch active info']))) ∧
          ∃ label, failpoint label = true)) := by
  unfold insertOverflow
  rw [bind_of_ok (readEpochMeta_run _ super)]
  simp only
  rw [bindInteger_ok held.bounded, bind_of_ok (ofResult_ok _ _), bind_of_ok (get_run _)]
  by_cases visible : ((session.world.visible epoch).lookup key).isSome = true
  · left
    rw [if_pos visible]
    exact ⟨_, pure_run _ _, rfl, (held.visible_iff key).mp visible⟩
  right
  rw [if_neg visible]
  have fresh : key ∉ overflow := mt (held.visible_iff key).mpr visible
  rcases addOverflowRow_run session failpoint key (epoch + 1) with
    ⟨error, ran, reason⟩ | ⟨absent, early, outcome⟩
  · left
    refine ⟨error, [], ?_, fresh, .nil held, ?_⟩
    · rw [bind_of_error ran, Session.after_nil]
    · rcases reason with present | raised | large
      · obtain ⟨rowEpoch, found⟩ := Option.isSome_iff_exists.mp present
        refine Or.inr (Or.inr (Or.inr fun noFuture => fresh ?_))
        exact (held.rows key).mpr ⟨rowEpoch, noFuture key rowEpoch found, found⟩
      · exact Or.inl raised
      · exact Or.inr (Or.inl large)
  · have committing := overflowCommit held super fresh absent size early
    rcases outcome with ran | ⟨⟨error, ran⟩, raised⟩
    · rw [bind_of_ok ran]
      rcases advanceSuperblock_run (session.after [.overflowInserted key (epoch + 1)])
        super (overflowRows info + 1) with advanced | ⟨⟨error, stuck⟩, reason⟩
      · right
        refine ⟨_, _, committing, ?_⟩
        rw [bind_of_ok advanced, Session.after_after]
        by_cases third : failpoint "committed" = true
        · right
          rw [bind_of_error (by rw [reach_run, if_pos third])]
          exact ⟨⟨_, rfl⟩, _, third⟩
        · left
          rw [bind_of_ok (by rw [reach_run, if_neg third])]
          exact ⟨_, pure_run _ _, rfl⟩
      · left
        rw [bind_of_error stuck]
        refine ⟨error, _, rfl, fresh, committing.quiet, Or.inr (Or.inr (Or.inl ?_))⟩
        exact reason.resolve_right (by omega)
    · left
      rw [bind_of_error ran]
      exact ⟨error, _, rfl, fresh, committing.quiet, Or.inl raised⟩

/-- The world that an insert works on, its startup recovery done. -/
def begun (recoveryFirst : Bool) (world : World) : World :=
  (finalState (startup recoveryFirst ⟨world, []⟩)).world

/-- Nothing that an insert finds, its startup recovery done, was left for the epoch it would
commit: no overflow row, and no copy of a page that it leaves alone. SQLite can store the epoch. -/
def Undisturbed (hash : Hash) (world : World) (key : String) : Prop :=
  (∀ epoch info active, readSuper world.disk = .ok (epoch, info, active) →
    NoFuture world epoch ∧ epoch + 1 < 2 ^ 63) ∧ Settled hash world.disk key

/-- What an insert would write can be encoded: the transaction of the primary, or else the
superblock that counts one overflow row more. -/
def Writable (hash : Hash) (world : World) (key : String) : Prop :=
  ∀ epoch info active, readSuper world.disk = .ok (epoch, info, active) →
    (∀ tx, plannedTx hash world.disk key = some tx → Fits tx (epoch + 1)) ∧
    (plannedTx hash world.disk key = none →
      superPayloadLength { info with ext := some (overflowRows info + 1) } ≤ MAX_PAYLOAD)

structure Commit (hash : Hash) (initialCapacity : Nat) (world begun : World) (epoch : Nat)
    (info : Meta HybridMeta) (primary overflow : Finset String) (key : String)
    (effects : List HybridEffect) (active : Bool) (info' : Meta HybridMeta)
    (primary' overflow' : Finset String) : Prop where
  quiet : Quiet hash initialCapacity world epoch info primary overflow effects
  super : readSuper (world.replay effects).disk = .ok (epoch, info, active)
  held : Undisturbed hash begun key →
    Held hash initialCapacity (world.replay (effects ++ [commitEffect epoch active info']))
      (epoch + 1) info' primary' overflow'
  fresh : key ∉ primary
  added : primary' = primary ∪ {key} ∧ overflow' = overflow ∧ Admits hash begun key ∨
    primary' = primary ∧ overflow' = overflow ∪ {key} ∧ key ∉ overflow

def Reason (hash : Hash) (begun : World) (epoch : Nat) (primary overflow : Finset String)
    (failpoint : String → Bool) (key : String) : Prop :=
  256 < key.utf8ByteSize ∨ key ∉ primary ∧ (key ∈ overflow → Admits hash begun key) ∧
    ((∃ label, failpoint label = true) ∨ ¬ Writable hash begun key ∨ ¬ NoFuture begun epoch ∨
      2 ^ 63 ≤ epoch + 1)

inductive Ending (hash : Hash) (initialCapacity : Nat) (world begun : World) (epoch : Nat)
    (info : Meta HybridMeta) (primary overflow : Finset String) (failpoint : String → Bool)
    (key : String) : EStateM.Result StoreError Session InsertTrace → Prop
  | duplicate (trace : InsertTrace) (effects : List HybridEffect)
      (quiet : Quiet hash initialCapacity world epoch info primary overflow effects)
      (unchanged : Unchanged world epoch info (world.replay effects))
      (known : trace.duplicate = true) (member : key ∈ primary ∪ overflow) :
      Ending hash initialCapacity world begun epoch info primary overflow failpoint key
        (.ok trace (Session.after ⟨world, []⟩ effects))
  | raised (error : StoreError) (effects : List HybridEffect)
      (quiet : Quiet hash initialCapacity world epoch info primary overflow effects)
      (reason : Reason hash begun epoch primary overflow failpoint key) :
      Ending hash initialCapacity world begun epoch info primary overflow failpoint key
        (.error error (Session.after ⟨world, []⟩ effects))
  | committed (trace : InsertTrace) (effects : List HybridEffect) (active : Bool)
      (info' : Meta HybridMeta) (primary' overflow' : Finset String)
      (commit : Commit hash initialCapacity world begun epoch info primary overflow key effects
        active info' primary' overflow') (new : trace.duplicate = false) :
      Ending hash initialCapacity world begun epoch info primary overflow failpoint key
        (.ok trace (Session.after ⟨world, []⟩ (effects ++ [commitEffect epoch active info'])))
  | late (error : StoreError) (effects : List HybridEffect) (active : Bool)
      (info' : Meta HybridMeta) (primary' overflow' : Finset String)
      (commit : Commit hash initialCapacity world begun epoch info primary overflow key effects
        active info' primary' overflow') (label : ∃ label, failpoint label = true) :
      Ending hash initialCapacity world begun epoch info primary overflow failpoint key
        (.error error (Session.after ⟨world, []⟩ (effects ++ [commitEffect epoch active info'])))

section Committing

variable {first second third : List HybridEffect} {info' : Meta HybridMeta}

theorem PrimaryCommit.committing
    (commit : PrimaryCommit hash initialCapacity (world.replay first) epoch info primary overflow
      key second active info')
    (quiet : Quiet hash initialCapacity world epoch info primary overflow first)
    (super : readSuper (world.replay first).disk = .ok (epoch, info, active)) :
    Commit hash initialCapacity world (world.replay first) epoch info primary overflow key
      (first ++ second) active info' (primary ∪ {key}) overflow := by
  refine ⟨quiet.append commit.quiet, ?_, fun undisturbed => ?_, commit.fresh,
    Or.inl ⟨rfl, rfl, commit.admits⟩⟩
  · rw [World.replay_append]
    exact commit.super
  · rw [List.append_assoc, World.replay_append]
    obtain ⟨noFuture, early⟩ := undisturbed.1 epoch info active super
    exact commit.held noFuture early undisturbed.2

/-- The refusal of the primary before it has left the pages and the rows as they were. -/
theorem OverflowCommit.committing
    (commit : OverflowCommit hash initialCapacity (world.replay (first ++ second)) epoch info
      primary overflow key third active info')
    (quiet : Quiet hash initialCapacity world epoch info primary overflow (first ++ second))
    (super : readSuper (world.replay first).disk = .ok (epoch, info, active))
    (rows : (world.replay (first ++ second)).overflow = (world.replay first).overflow)
    (pages : ∀ page, (world.replay (first ++ second)).disk.pread page =
      (world.replay first).disk.pread page)
    (planned : plannedChanges hash (world.replay first).disk key = ∅) (fresh : key ∉ primary) :
    Commit hash initialCapacity world (world.replay first) epoch info primary overflow key
      (first ++ second ++ third) active info' primary (overflow ∪ {key}) := by
  refine ⟨quiet.append commit.quiet, ?_, fun undisturbed => ?_, fresh,
    Or.inr ⟨rfl, rfl, commit.fresh⟩⟩
  · rw [World.replay_append]
    exact commit.super
  · rw [List.append_assoc, World.replay_append]
    have noFuture := (undisturbed.1 epoch info active super).1
    rw [NoFuture, ← rows] at noFuture
    refine commit.held noFuture fun page slots => ?_
    have settled := undisturbed.2 epoch info active super page (by rw [planned]; simp) slots
    rw [readLogicalPage_eq, readLogicalPage_eq] at settled ⊢
    show Except.ok (pageAt (world.replay (first ++ second)).disk _ _ _) =
      Except.ok (pageAt (world.replay (first ++ second)).disk _ _ _)
    rw [pageAt_congr fun slot => pages _, pageAt_congr fun slot => pages _]
    exact settled

end Committing

theorem insert_run (held : Held hash initialCapacity world epoch info primary overflow)
    (failpoint : String → Bool) (recoveryFirst : Bool) (key : String) :
    Ending hash initialCapacity world (begun recoveryFirst world) epoch info primary overflow
      failpoint key (insert hash failpoint recoveryFirst key ⟨world, []⟩) := by
  obtain ⟨cleanup, first, started, quiet₁, same₁⟩ :=
    startup_run ⟨world, []⟩ recoveryFirst held
  have begun_eq : begun recoveryFirst world = world.replay first := by
    rw [begun, started]
    rfl
  have held₁ := quiet₁.final
  obtain ⟨active, super₁⟩ := held₁.committed.super
  rw [begun_eq]
  unfold insert
  rw [bind_of_ok started]
  rcases tryPrimary_run (Session.after ⟨world, []⟩ first) held₁ super₁ failpoint key with
    ⟨trace, ran, duplicate, member⟩ |
    ⟨second, ran, quiet₂, rows₂, pages₂, fresh, size, planned, none⟩ |
    ⟨error, second, ran, quiet₂, reason⟩ |
    ⟨second, info', commit, outcome⟩
  · rw [bind_of_ok ran]
    simp only
    rw [bind_of_ok (readEpochMeta_run _ super₁)]
    exact .duplicate _ _ quiet₁ same₁ duplicate (Finset.mem_union_left _ member)
  · rw [bind_of_ok ran, Session.after_after]
    simp only [Session.after_world] at quiet₂ rows₂ pages₂ planned none ⊢
    have quiet₁₂ := quiet₁.append quiet₂
    have held₂ := quiet₁₂.final
    have super₂ : readSuper (world.replay (first ++ second)).disk = .ok (epoch, info, active) := by
      rw [World.replay_append, readSuper_ok, ← readSuper_ok.mp super₁]
      congr 1
      funext slot
      rw [copiesAt_zero, copiesAt_zero, pages₂]
    have same₁₂ : Unchanged world epoch info (world.replay (first ++ second)) := by
      rw [World.replay_append]
      exact same₁.trans ⟨fun page _ => pages₂ page, by rw [World.visible, rows₂]; rfl⟩
    have future : NoFuture (world.replay first) epoch ↔
        NoFuture (world.replay (first ++ second)) epoch := by
      rw [World.replay_append, NoFuture, NoFuture, rows₂]
    rcases insertOverflow_run (Session.after ⟨world, []⟩ (first ++ second)) held₂ super₂
      failpoint size cleanup with ⟨trace, ran', duplicate, member⟩ |
      ⟨error, third, ran', absent, quiet₃, reason⟩ | ⟨third, info', commit, outcome⟩
    · rw [ran']
      exact .duplicate _ _ quiet₁₂ same₁₂ duplicate (Finset.mem_union_right _ member)
    · rw [ran', Session.after_after]
      refine .raised _ _ (quiet₁₂.append quiet₃) (Or.inr ⟨fresh, fun member =>
        absurd member absent, ?_⟩)
      rcases reason with raised | late | large | future'
      · exact Or.inl raised
      · exact Or.inr (Or.inr (Or.inr late))
      · refine Or.inr (Or.inl fun writable => ?_)
        exact absurd ((writable epoch info active super₁).2 none) (Nat.not_le.mpr large)
      · exact Or.inr (Or.inr (Or.inl (mt future.mp future')))
    · have committing := commit.committing quiet₁₂ super₁
        (by rw [World.replay_append]; exact rows₂)
        (fun page => by rw [World.replay_append]; exact pages₂ page) planned fresh
      rcases outcome with ⟨trace, ran', new⟩ | ⟨⟨error, ran'⟩, label⟩
      · rw [ran', Session.after_after, ← List.append_assoc]
        exact .committed _ _ _ _ _ _ committing new
      · rw [ran', Session.after_after, ← List.append_assoc]
        exact .late _ _ _ _ _ _ committing label
  · rw [bind_of_error ran, Session.after_after]
    refine .raised _ _ (quiet₁.append quiet₂) ?_
    rcases reason with long | ⟨absent, admits, raised | ⟨tx, planned, unfit⟩⟩
    · exact Or.inl long
    · exact Or.inr ⟨absent, fun _ => admits, Or.inl raised⟩
    · exact Or.inr ⟨absent, fun _ => admits, Or.inr (Or.inl fun writable =>
        unfit ((writable epoch info active super₁).1 tx planned))⟩
  · have committing := commit.committing quiet₁ super₁
    rcases outcome with ⟨trace, ran', new⟩ | ⟨⟨error, ran'⟩, label⟩
    · rw [bind_of_ok ran', Session.after_after, ← List.append_assoc]
      simp only
      have reread := readEpochMeta_run
        (Session.after ⟨world, []⟩ (first ++ second ++ [commitEffect epoch active info']))
        (by
          rw [Session.after_world, World.replay_append]
          exact readSuper_advance committing.super info')
      rw [bind_of_ok reread]
      exact .committed _ _ _ _ _ _ committing new
    · rw [bind_of_error ran', Session.after_after, ← List.append_assoc]
      exact .late _ _ _ _ _ _ committing label

end Insert

end DurableContext.CrossStoreHybrid
