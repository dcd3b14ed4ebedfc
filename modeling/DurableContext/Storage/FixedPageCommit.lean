import DurableContext.Storage.Committed

/-! The flat store: its inserts follow `Logical.insert`, and what they write to the file. -/

namespace DurableContext

open BucketTable Program

variable {E : Type} [SuperFields E]

namespace Txn

variable {read : Reader} {role : Nat → Nat} {live : Nat → Prop} {stored : Nat → Slots} {tx : Txn E}

omit [SuperFields E] in
theorem Coherent.narrow (coherent : Coherent read role live stored tx) (untouched : tx.changes = ∅)
    {narrower : Nat → Prop} (inside : ∀ page, narrower page → live page) :
    Coherent read role narrower stored tx where
  readable := fun page bound => coherent.readable page (inside page bound)
  lengths := fun page bound => coherent.lengths page (inside page bound)
  cached := coherent.cached
  changed := by
    intro page keys held
    simp [untouched] at held

omit [SuperFields E] in
theorem Coherent.reread (coherent : Coherent read role live stored tx) {read' : Reader}
    (readable : ∀ page, live page → read' page tx.epoch (role page) = .ok (stored page)) :
    Coherent read' role live stored tx :=
  ⟨readable, coherent.lengths, coherent.cached, coherent.changed⟩

end Txn

namespace FixedPage

/-- What a page shows at an epoch to a reader that expects so many slots. -/
def pageAt (disk : Disk (Block E)) (epoch slots page : Nat) : Slots :=
  match DualCopy.select epoch (copiesAt (Block.asPage slots) disk (2 + 2 * page)) with
  | some (_, _, keys) => keys
  | none => List.replicate slots none

omit [SuperFields E] in
theorem readLogicalPage_eq (disk : Disk (Block E)) (page epoch slots : Nat) :
    readLogicalPage disk page epoch slots = .ok (pageAt disk epoch slots page) := by
  unfold readLogicalPage pageAt physicalPageIndex
  split <;> simp_all

omit [SuperFields E] in
theorem length_pageAt (disk : Disk (Block E)) (epoch slots page : Nat) :
    (pageAt disk epoch slots page).length = slots := by
  unfold pageAt
  split
  · rename_i slot tag keys selected
    have held := (DualCopy.select_mem selected).1
    unfold copiesAt Block.asPage at held
    split at held
    · split at held
      · rename_i right
        simp only [Option.some.injEq, Prod.mk.injEq] at held
        rw [← held.2, right]
      · cases held
    · cases held
  · exact List.length_replicate

omit [SuperFields E] in
theorem pageAt_blank {disk : Disk (Block E)} {page : Nat}
    (blank : ∀ slot : Bool, disk.pread (2 + 2 * page + slot.toNat) = .blank) (epoch slots : Nat) :
    pageAt disk epoch slots page = List.replicate slots none := by
  have nothing : DualCopy.select epoch (copiesAt (Block.asPage slots) disk (2 + 2 * page)) =
      none := by
    rw [DualCopy.select_eq_none]
    intro slot tagged held
    simp [copiesAt, blank, Block.asPage] at held
  unfold pageAt
  rw [nothing]

omit [SuperFields E] in
theorem pageAt_congr {disk disk' : Disk (Block E)} {epoch slots page : Nat}
    (same : ∀ slot : Bool, disk'.pread (2 + 2 * page + slot.toNat) =
      disk.pread (2 + 2 * page + slot.toNat)) :
    pageAt disk' epoch slots page = pageAt disk epoch slots page := by
  have copies : copiesAt (Block.asPage slots) disk' (2 + 2 * page) =
      copiesAt (Block.asPage slots) disk (2 + 2 * page) := by
    funext slot
    simp only [copiesAt, same]
  unfold pageAt
  rw [copies]

/-- The layout of a flat primary: each generation starts where the one before it ends. -/
def base (config : Config) (initialCapacity : Nat) : Nat → Nat
  | 0 => 0
  | generation + 1 => base config initialCapacity generation +
      initialCapacity * 2 ^ generation / config.bucketSize + 1

def layout (config : Config) (initialCapacity : Nat) : Layout where
  base := base config initialCapacity
  capacity := fun generation => initialCapacity * 2 ^ generation

theorem layout_apart (config : Config) (initialCapacity : Nat) :
    (layout config initialCapacity).Apart config where
  apart := fun _ => le_rfl
  double := by
    intro generation
    simp only [layout, pow_succ, Nat.mul_assoc]

/-- The committed state of a flat primary at `epoch`, every page read with the slots of its
role. -/
def view (config : Config) (initialCapacity : Nat) (disk : Disk (Block E)) (epoch page : Nat) :
    Slots :=
  pageAt disk epoch ((layout config initialCapacity).role config page) page

structure Committed (hash : Hash) (initialCapacity : Nat) (disk : Disk (Block E)) (epoch : Nat)
    (info : Meta E) : Prop where
  super : ∃ slot, readSuper disk = .ok (epoch, info, slot)
  laid : Laid (layout info.config initialCapacity) info
  roles : ∀ page (slot : Bool) tag keys, disk.pread (2 + 2 * page + slot.toNat) = .page tag keys →
    keys.length = (layout info.config initialCapacity).role info.config page
  unborn : ∀ page, info.nextPageId ≤ page → view info.config initialCapacity disk epoch page =
    List.replicate ((layout info.config initialCapacity).role info.config page) none
  beyond : ∀ page, info.startMigration.nextPageId ≤ page →
    ∀ slot : Bool, disk.pread (2 + 2 * page + slot.toNat) = .blank
  wf : (info.logical (view info.config initialCapacity disk epoch)).Wf hash info.config

variable {hash : Hash} {initialCapacity : Nat} {disk : Disk (Block E)} {epoch : Nat}
  {info : Meta E} {log : List (Effect (Block E))} {key : String}

theorem Committed.shown (committed : Committed hash initialCapacity disk epoch info)
    (log : List (Effect (Block E))) {live : Nat → Prop} (inside : ∀ page, info.owns page → live page) :
    Shown hash (methods hash) ((layout info.config initialCapacity).role info.config) live
      (⟨disk, log⟩ : File E) epoch info (view info.config initialCapacity disk epoch) where
  super := committed.super
  readable := fun page _ => readLogicalPage_eq disk page epoch _
  lengths := fun page _ => length_pageAt disk epoch _ page
  placed := committed.laid.placed (layout_apart _ _) inside
  wf := committed.wf

/-- A file as the effects of an insert leave it before its first page write: at most extended. -/
inductive Extended (disk : Disk (Block E)) (log : List (Effect (Block E))) (pages : Nat) :
    File E → Prop
  | same : Extended disk log pages ⟨disk, log⟩
  | grown : Extended disk log pages
      ⟨disk.ftruncate (2 + 2 * pages), log ++ [.ftruncate (2 + 2 * pages)]⟩

omit [SuperFields E] in
theorem Extended.pread {pages : Nat} {file : File E} (extended : Extended disk log pages file)
    (beyond : ∀ page, pages ≤ page → ∀ slot : Bool,
      disk.pread (2 + 2 * page + slot.toNat) = .blank) (page : Nat) (slot : Bool) :
    file.disk.pread (2 + 2 * page + slot.toNat) = disk.pread (2 + 2 * page + slot.toNat) := by
  cases extended with
  | same => rfl
  | grown =>
      have small : slot.toNat ≤ 1 := by cases slot <;> simp
      by_cases inside : page < pages
      · have bound : 2 + 2 * page + slot.toNat < 2 + 2 * pages := by omega
        simp [bound]
      · have past : ¬ 2 + 2 * page + slot.toNat < 2 + 2 * pages := by omega
        simp [past, beyond page (by omega) slot]

omit [SuperFields E] in
theorem startMigration_laid (laid : Laid (layout info.config initialCapacity) info)
    (succ : info.nextGeneration = info.currentGeneration + 1) :
    Laid (layout info.config initialCapacity) info.startMigration := by
  have capacity : info.startMigration.currentCapacity =
      (layout info.config initialCapacity).capacity (info.currentGeneration + 1) := by
    rw [(layout_apart info.config initialCapacity).double, ← laid.capacity]
    rfl
  have base : info.startMigration.currentBasePage =
      (layout info.config initialCapacity).base (info.currentGeneration + 1) := by
    show info.nextPageId = _
    rw [laid.next]
    rfl
  refine ⟨by rw [base, ← succ]; rfl, by rw [capacity, ← succ]; rfl, ?_, ?_⟩
  · show info.startMigration.currentBasePage +
      (info.startMigration.currentCapacity / info.config.bucketSize + 1) = _
    rw [capacity, base, ← succ]
    rfl
  · intro old held
    cases held
    exact ⟨succ.symm, laid.base, laid.capacity⟩

omit [SuperFields E] in
theorem startMigration_next (laid : Laid (layout info.config initialCapacity) info)
    (succ : info.nextGeneration = info.currentGeneration + 1) :
    info.startMigration.nextPageId =
      (layout info.config initialCapacity).finish info.config (info.currentGeneration + 1) := by
  rw [(startMigration_laid laid succ).next, ← succ]
  rfl

omit [SuperFields E] in
theorem startMigration_logical (committed : Committed hash initialCapacity disk epoch info)
    (succ : info.nextGeneration = info.currentGeneration + 1) :
    info.startMigration.logical (view info.config initialCapacity disk epoch) =
      (info.logical (view info.config initialCapacity disk epoch)).startMigration hash
        info.config := by
  have laid := startMigration_laid committed.laid succ
  have placed : Placed _ info.startMigration.owns info.startMigration :=
    laid.placed (layout_apart _ _) fun _ owned => owned
  have table : tableAt (view info.config initialCapacity disk epoch) info.nextPageId
      (info.currentCapacity * 2 / info.config.bucketSize) =
      blank (scheme hash info.config (info.currentCapacity * 2)) := by
    have count : (scheme hash info.config (info.currentCapacity * 2)).buckets =
        info.currentCapacity * 2 / info.config.bucketSize := rfl
    funext bucket
    simp only [tableAt, blank, count]
    split
    · rename_i bound
      rw [committed.unborn _ (by omega)]
      congr 1
      exact placed.current.slotsAt bound
    · rfl
  simp only [Meta.logical, Meta.startMigration, Logical.startMigration, table, Option.map_some]
  rfl

theorem makeRoomTx_ok (log : List (Effect (Block E)))
    (committed : Committed hash initialCapacity disk epoch info) {live : Nat → Prop}
    {tx : Txn E} (same : Txn.Same (Txn.start epoch info) tx)
    (coherent : Txn.Coherent (readLogicalPage disk)
      ((layout info.config initialCapacity).role info.config) live
      (view info.config initialCapacity disk epoch) tx)
    (room : ∀ page, info.owns page ∨ info.startMigration.owns page → live page) :
    match (info.logical (view info.config initialCapacity disk epoch)).makeRoom hash
        info.config with
    | .ok roomy => ∃ tx' started file',
        makeRoomTx (methods hash) tx ⟨disk, log⟩ = .ok (tx', started) file' ∧
        (started = true → info.old = none ∧ threshold info < info.currentRows + 1) ∧
        Extended disk log info.startMigration.nextPageId file' ∧
        Txn.Coherent (readLogicalPage file'.disk)
          ((layout info.config initialCapacity).role info.config) tx'.info.owns
          (view info.config initialCapacity disk epoch) tx' ∧
        tx'.epoch = epoch ∧ Laid (layout info.config initialCapacity) tx'.info ∧
        info.nextPageId ≤ tx'.info.nextPageId ∧
        tx'.info.nextPageId ≤ info.startMigration.nextPageId ∧ tx'.info.config = info.config ∧
        tx'.info.ext = info.ext ∧
        tx'.logical (view info.config initialCapacity disk epoch) = roomy
    | .error error => makeRoomTx (methods hash) tx ⟨disk, log⟩ = .error error ⟨disk, log⟩ := by
  have untouched : tx.changes = ∅ := same.changes
  have info_eq : tx.info = info := same.info
  have view_eq : tx.view (view info.config initialCapacity disk epoch) =
      view info.config initialCapacity disk epoch := by rw [same.view, Txn.start_view]
  have grows : info.nextPageId ≤ info.startMigration.nextPageId := Nat.le_add_right _ _
  have succ : info.nextGeneration = info.currentGeneration + 1 := committed.wf.next
  have full : (info.logical (view info.config initialCapacity disk epoch)).full info.config ↔
      threshold info < info.currentRows + 1 := Iff.rfl
  unfold Logical.makeRoom makeRoomTx
  rw [info_eq]
  by_cases crowded : threshold info < info.currentRows + 1
  · rw [if_pos crowded, if_pos (full.mpr crowded)]
    cases held : info.old with
    | some old => simp [Meta.logical, held, throw_run]
    | none =>
        have idle : (info.logical (view info.config initialCapacity disk epoch)).old = none := by
          simp [Meta.logical, held]
        have extended : Extended disk log info.startMigration.nextPageId
            ⟨disk.ftruncate (2 + 2 * info.startMigration.nextPageId),
              log ++ [.ftruncate (2 + 2 * info.startMigration.nextPageId)]⟩ := .grown
        simp only [idle]
        refine ⟨{ tx with info := info.startMigration }, true, _, by rw [← info_eq]; rfl,
          fun _ => ⟨trivial, crowded⟩, extended, ?_, same.epoch, startMigration_laid committed.laid succ, grows, le_rfl, rfl, rfl, ?_⟩
        · have narrowed := coherent.narrow untouched fun page owned => room page (Or.inr owned)
          refine (narrowed.withInfo info.startMigration).reread ?_
          intro page owned
          have readable := narrowed.readable page owned
          rw [readLogicalPage_eq] at readable ⊢
          rw [← readable]
          exact congrArg _ (pageAt_congr (extended.pread committed.beyond page))
        · show info.startMigration.logical (tx.view _) = _
          rw [view_eq, startMigration_logical committed succ]
  · rw [if_neg crowded, if_neg (mt full.mp crowded)]
    refine ⟨tx, false, ⟨disk, log⟩, rfl, fun started => (by cases started), .same, ?_, same.epoch, ?_, ?_, ?_, ?_, ?_, ?_⟩
    · refine coherent.narrow untouched fun page owned => room page (Or.inl ?_)
      rw [info_eq] at owned
      exact owned
    · rw [info_eq]
      exact committed.laid
    · rw [info_eq]
    · rw [info_eq]
      exact grows
    · rw [info_eq]
    · rw [info_eq]
    · rw [Txn.logical, info_eq, view_eq]

theorem makeRoomTx_changes {tx tx' : Txn E} {started : Bool} {file file' : File E}
    (ran : makeRoomTx (methods hash) tx file = .ok (tx', started) file') :
    tx'.changes = tx.changes := by
  unfold makeRoomTx at ran
  by_cases full : threshold tx.info < tx.info.currentRows + 1
  · rw [if_pos full] at ran
    cases held : tx.info.old with
    | none =>
        simp only [held] at ran
        cases ran
        rfl
    | some old =>
        simp only [held] at ran
        cases ran
  · rw [if_neg full] at ran
    cases ran
    rfl

/-- The generations a transaction worked on: those of its metadata and `older`, which it may have
drained. Their tables hold `keys`, and all it changed lies in them. -/
structure Worked (hash : Hash) (stored : Nat → Slots) (keys : Multiset String) (tx : Txn E)
    (older : Option OldGeneration) : Prop where
  tables : (({ tx.info with old := older } : Meta E).logical (tx.view stored)).Tables hash
    tx.info.config
  keys : (({ tx.info with old := older } : Meta E).logical (tx.view stored)).keys hash
    tx.info.config = keys
  changed : ∀ page slots, tx.changes.lookup page = some slots →
    ({ tx.info with old := older } : Meta E).owns page
  running : tx.info.old = none ∨ tx.info.old = older
  drained : tx.info.old = none → ∀ old, older = some old →
    contents (scheme hash tx.info.config old.capacity)
      (old.table tx.info.config (tx.view stored)).table = 0
  touched : tx.changes ≠ ∅

theorem methods_migrateTx {tx : Txn E} {file : File E}
    {result : Except StoreError (Txn E × Migrated)}
    (migrated : migrateTx hash (readLogicalPage file.disk) tx = result) :
    (methods hash).migrateTx tx file =
      (ofResult result : Op StoreError (File E) _) file := by
  rw [← migrated]
  rfl

/-- Admitting a key and migrating keep where the generations of a transaction lie. -/
structure Keeps (info info' : Meta E) : Prop where
  config : info'.config = info.config
  base : info'.currentBasePage = info.currentBasePage
  capacity : info'.currentCapacity = info.currentCapacity
  next : info'.nextPageId = info.nextPageId
  ext : info'.ext = info.ext

omit [SuperFields E] in
theorem keeps_of_migrates {tx tx₂ : Txn E} {info' : Meta E}
    (migrates : Migrates tx₂.admitted.info info') (placed : tx₂.info = tx.info) :
    Keeps tx.info info' := by
  rw [Txn.admitted, placed] at migrates
  constructor <;> rw [migrates]

omit [SuperFields E] in
theorem Keeps.owns {info info' : Meta E} (keeps : Keeps info info') (page : Nat) :
    ({ info' with old := info.old } : Meta E).owns page ↔ info.owns page := by
  simp only [Meta.owns, keeps.base, keeps.capacity, keeps.config]

omit [SuperFields E] in
/-- A transaction that shows one key more than the one it goes on from changed a page: with no
change its tables would be those the key is missing from. -/
theorem Keeps.touched {stored : Nat → Slots} {config : Config} {tx tx' : Txn E}
    (keeps : Keeps tx.info tx'.info) (untouched : tx.changes = ∅) (conf : tx.info.config = config)
    (held : (({ tx'.info with old := tx.info.old } : Meta E).logical (tx'.view stored)).keys hash
      config = key ::ₘ (tx.logical stored).keys hash config) :
    tx'.changes ≠ ∅ := by
  intro unchanged
  have seen : tx'.view stored = tx.view stored := by
    funext page
    rw [Txn.view, Txn.view, unchanged, untouched]
  have stale : (({ tx'.info with old := tx.info.old } : Meta E).logical (tx'.view stored)).keys
      hash config = (tx.logical stored).keys hash config := by
    simp only [Logical.keys, Logical.currentKeys, Logical.oldKeys, Meta.logical, Txn.logical, seen,
      keeps.base, keeps.capacity, keeps.config, conf]
  rw [held] at stale
  have counted := congrArg Multiset.card stale
  rw [Multiset.card_cons] at counted
  omega

omit [SuperFields E] in
theorem Keeps.worked {stored : Nat → Slots} {config : Config} {role : Nat → Nat} {read : Reader}
    {tx tx' : Txn E} (keeps : Keeps tx.info tx'.info) (untouched : tx.changes = ∅)
    (conf : tx.info.config = config) (coherent : Txn.Coherent read role tx.info.owns stored tx')
    (tables : (({ tx'.info with old := tx.info.old } : Meta E).logical (tx'.view stored)).Tables
      hash config)
    (held : (({ tx'.info with old := tx.info.old } : Meta E).logical (tx'.view stored)).keys hash
      config = key ::ₘ (tx.logical stored).keys hash config)
    (older : tx'.info.old = none ∨ tx'.info.old = tx.info.old)
    (drained : tx'.info.old = none → ∀ old, tx.info.old = some old →
      contents (scheme hash config old.capacity) (old.table config (tx'.view stored)).table = 0) :
    Worked hash stored (key ::ₘ (tx.logical stored).keys hash config) tx' tx.info.old := by
  have conf' : tx'.info.config = config := keeps.config.trans conf
  refine ⟨?_, ?_, fun page slots changed => (keeps.owns page).mpr
    (coherent.changed page slots changed).1, older, ?_, keeps.touched untouched conf held⟩
  · rw [conf']
    exact tables
  · rw [conf']
    exact held
  · rw [conf']
    exact drained

omit [SuperFields E] in
theorem laid_admitted {layout : Layout} {tx tx₂ : Txn E} (laid : Laid layout tx.info)
    (placed : tx₂.info = tx.info) : Laid layout tx₂.admitted.info := by
  rw [Txn.admitted, placed]
  exact ⟨laid.base, laid.capacity, laid.next, laid.old⟩

/-- An admission follows the abstract one. It leaves the file as it was, or extended. -/
theorem admitTx_ok (log : List (Effect (Block E)))
    (committed : Committed hash initialCapacity disk epoch info) {live : Nat → Prop}
    {tx : Txn E} (same : Txn.Same (Txn.start epoch info) tx)
    (coherent : Txn.Coherent (readLogicalPage disk)
      ((layout info.config initialCapacity).role info.config) live
      (view info.config initialCapacity disk epoch) tx)
    (room : ∀ page, info.owns page ∨ info.startMigration.owns page → live page)
    (fresh : key ∉ (info.logical (view info.config initialCapacity disk epoch)).keys hash
      info.config) :
    match (info.logical (view info.config initialCapacity disk epoch)).admitKey hash info.config
        key with
    | .ok state => ∃ tx' prepared file',
        admitTx hash (methods hash) tx key ⟨disk, log⟩ = .ok (tx', prepared) file' ∧
        prepared.duplicate = false ∧
        (prepared.migrationStarted = true →
          info.old = none ∧ threshold info < info.currentRows + 1) ∧
        Extended disk log info.startMigration.nextPageId file' ∧
        (∀ page keys, tx'.changes.lookup page = some keys → page < tx'.info.nextPageId ∧
          keys.length = (layout info.config initialCapacity).role info.config page) ∧
        (∃ older, Worked hash (view info.config initialCapacity disk epoch)
          (key ::ₘ (info.logical (view info.config initialCapacity disk epoch)).keys hash
            info.config) tx' older) ∧
        Laid (layout info.config initialCapacity) tx'.info ∧
        info.nextPageId ≤ tx'.info.nextPageId ∧
        tx'.info.nextPageId ≤ info.startMigration.nextPageId ∧ tx'.info.config = info.config ∧
        tx'.info.ext = info.ext ∧
        tx'.logical (view info.config initialCapacity disk epoch) = state
    | .error error => ∃ file', Extended disk log info.startMigration.nextPageId file' ∧
        admitTx hash (methods hash) tx key ⟨disk, log⟩ = .error error file' := by
  have made := makeRoomTx_ok log committed same coherent room
  unfold Logical.admitKey
  cases abstractly : (info.logical (view info.config initialCapacity disk epoch)).makeRoom hash
      info.config with
  | error error =>
      simp only [abstractly] at made
      exact ⟨_, .same, by rw [admitTx, bind_of_error made]⟩
  | ok roomy =>
      simp only [abstractly] at made
      obtain ⟨tx₁, started, file₁, ran₁, start₁, extended₁, coherent₁, epoch₁, laid₁, grows₁, room₁, conf₁,
        ext₁, logical₁⟩ := made
      obtain ⟨roomy_spec, live⟩ := Logical.makeRoom_spec committed.wf abstractly
      have placed₁ : Placed ((layout info.config initialCapacity).role info.config)
          tx₁.info.owns tx₁.info := by
        rw [← conf₁] at laid₁ ⊢
        exact laid₁.placed (layout_apart _ _) fun _ owned => owned
      have fresh₁ : key ∉ roomy.keys hash info.config := by
        rw [roomy_spec.keys, zero_add]
        exact fresh
      obtain ⟨work, tx₂, ran₂, after⟩ := placeNew_ok conf₁ coherent₁ placed₁
        (by rw [logical₁]; exact roomy_spec.mid) (by rw [logical₁]; exact fresh₁)
      rw [logical₁] at ran₂ after
      have ran := admitTx_run ran₁ ran₂
      simp only [bind, Except.bind]
      cases roomLeft : place (scheme hash info.config roomy.capacity) roomy.table key with
      | none =>
          exact ⟨file₁, extended₁, by simpa [roomLeft] using ran⟩
      | some table =>
          obtain ⟨coherent₂, epoch₂, info₂, logical₂, mid₂, placed₂⟩ := after table roomLeft
          have migrated := migrateTx_ok (by rw [Txn.admitted, info₂]; exact conf₁) coherent₂
            placed₂ mid₂
          rw [logical₂] at migrated
          simp only [roomLeft, Option.isSome_some, if_true] at ran
          simp only
          cases finished : Logical.migrate hash info.config { roomy with
              table, rows := roomy.rows + 1, live := roomy.live + 1 } with
          | error error =>
              simp only [finished] at migrated
              rw [bind_of_error (methods_migrateTx migrated)] at ran
              exact ⟨file₁, extended₁, ran⟩
          | ok state =>
              simp only [finished] at migrated
              obtain ⟨tx₃, done, ran₃, coherent₃, _, migrates, logical₃, older, tables,
                keys, drained⟩ := migrated
              have keeps := keeps_of_migrates migrates info₂
              have grown := Logical.place_grown roomy_spec.mid fresh₁ (roomy.live + 1) roomLeft
              have untouched : tx₁.changes = ∅ := (makeRoomTx_changes ran₁).trans same.changes
              have older₂ : tx₂.admitted.info.old = tx₁.info.old := by rw [Txn.admitted, info₂]
              rw [older₂] at older tables keys drained
              have held : (({ tx₃.info with old := tx₁.info.old } : Meta E).logical
                  (tx₃.view (view info.config initialCapacity disk epoch))).keys hash
                    info.config = key ::ₘ (tx₁.logical
                      (view info.config initialCapacity disk epoch)).keys hash info.config := by
                rw [keys, grown.keys, logical₁, Multiset.singleton_add]
              rw [bind_of_ok (methods_migrateTx ran₃)] at ran
              have worked := keeps.worked untouched conf₁ coherent₃ tables held
                (older.imp (fun finished => finished.2.2) And.right) drained
              rw [logical₁, roomy_spec.keys, zero_add] at worked
              refine ⟨tx₃, _, file₁, ran, rfl, start₁, extended₁, ?_, ⟨_, worked⟩, ?_,
                by rw [keeps.next]; exact grows₁, by rw [keeps.next]; exact room₁,
                keeps.config.trans conf₁, keeps.ext.trans ext₁, logical₃⟩
              · intro page slots changed
                obtain ⟨owned, shape⟩ := coherent₃.changed page slots changed
                rw [← conf₁] at laid₁
                rw [keeps.next]
                exact ⟨laid₁.owns_lt (layout_apart _ _) owned, shape⟩
              · refine (laid_admitted laid₁ info₂).migrates migrates ?_
                rw [older₂]
                exact older.imp (fun finished => finished.2.2) And.right

/-- The block an insert at `epoch` overwrites to write a page. -/
def target (disk : Disk (Block E)) (epoch page : Nat) : Nat :=
  2 + 2 * page + (DualCopy.writeTarget epoch (copiesAt Block.asAnyPage disk (2 + 2 * page))).toNat

def pageWrite (disk : Disk (Block E)) (epoch newEpoch : Nat) (change : Nat × Slots) :
    Effect (Block E) :=
  .pwrite (target disk epoch change.1) (.page newEpoch change.2)

omit [SuperFields E] in
theorem target_congr {disk disk' : Disk (Block E)} {page : Nat}
    (same : ∀ slot : Bool, disk'.pread (2 + 2 * page + slot.toNat) =
      disk.pread (2 + 2 * page + slot.toNat)) (epoch : Nat) :
    target disk' epoch page = target disk epoch page := by
  have copies : copiesAt Block.asAnyPage disk' (2 + 2 * page) =
      copiesAt Block.asAnyPage disk (2 + 2 * page) := by
    funext slot
    simp only [copiesAt, same]
  unfold target
  rw [copies]

omit [SuperFields E] in
theorem target_ne {disk : Disk (Block E)} {epoch page other : Nat} (different : other ≠ page)
    (slot : Bool) : target disk epoch page ≠ 2 + 2 * other + slot.toNat := by
  unfold target
  have small : ∀ flag : Bool, flag.toNat ≤ 1 := fun flag => by cases flag <;> simp
  have first := small slot
  have second := small (DualCopy.writeTarget epoch (copiesAt Block.asAnyPage disk (2 + 2 * page)))
  omega

def File.written (file : File E) (epoch newEpoch : Nat) (done : List (Nat × Slots)) : File E :=
  ⟨file.disk.replay (done.map (pageWrite file.disk epoch newEpoch)),
    file.log ++ done.map (pageWrite file.disk epoch newEpoch)⟩

omit [SuperFields E] in
theorem pageWrite_congr {disk disk' : Disk (Block E)} {epoch newEpoch : Nat}
    {changes : List (Nat × Slots)}
    (same : ∀ page ∈ changes.map Prod.fst, ∀ slot : Bool,
      disk'.pread (2 + 2 * page + slot.toNat) = disk.pread (2 + 2 * page + slot.toNat)) :
    changes.map (pageWrite disk' epoch newEpoch) = changes.map (pageWrite disk epoch newEpoch) := by
  refine List.map_congr_left fun change member => ?_
  rw [pageWrite, pageWrite, target_congr (same _ (List.mem_map_of_mem member))]

omit [SuperFields E] in
theorem writeLogicalPage_run (page epoch newEpoch : Nat) (keys : Slots) (file : File E) :
    writeLogicalPage page epoch newEpoch keys file =
      match (packPage newEpoch keys : Except StoreError (Block E)) with
      | .ok _ => .ok ⟨⟩ (file.written epoch newEpoch [(page, keys)])
      | .error error => .error error file := by
  unfold writeLogicalPage
  rw [bind_of_ok (get_run file)]
  cases packed : (packPage newEpoch keys : Except StoreError (Block E)) with
  | error error => rw [bind_of_error (ofResult_error error file)]
  | ok block =>
      have same : block = .page newEpoch keys := by
        unfold packPage at packed
        split at packed
        · cases packed
        · split at packed <;> cases packed
          rfl
      rw [bind_of_ok (ofResult_ok block file), same]
      rfl

omit [SuperFields E] in
theorem packPage_error {newEpoch : Nat} {keys : Slots} {error : StoreError}
    (packed : (packPage newEpoch keys : Except StoreError (Block E)) = .error error) :
    (MAX_PAYLOAD < pagePayloadLength keys ∨ 2 ^ 64 ≤ newEpoch) ∧ error.isExhausted = false := by
  unfold packPage at packed
  split at packed
  · rename_i large
    cases packed
    exact ⟨Or.inl large, rfl⟩
  · split at packed
    · rename_i late
      cases packed
      exact ⟨Or.inr late, rfl⟩
    · cases packed

theorem writePages_run (hash : Hash) (epoch newEpoch : Nat) (changes : List (Nat × Slots))
    (file : File E) (distinct : (changes.map Prod.fst).Nodup) :
    ∃ done rest, changes = done ++ rest ∧
      (writePages (methods hash) epoch newEpoch changes file =
          .ok ⟨⟩ (file.written epoch newEpoch done) ∧ rest = [] ∨
        ∃ error, writePages (methods hash) epoch newEpoch changes file =
            .error error (file.written epoch newEpoch done) ∧
          ∃ page keys, (page, keys) ∈ changes ∧
            (packPage newEpoch keys : Except StoreError (Block E)) = .error error) := by
  induction changes generalizing file with
  | nil => exact ⟨[], [], rfl, Or.inl ⟨by simp [writePages, File.written, pure_run], rfl⟩⟩
  | cons change changes ih =>
      obtain ⟨page, keys⟩ := change
      have head := writeLogicalPage_run page epoch newEpoch keys file
      have unfolded : writePages (methods hash) epoch newEpoch ((page, keys) :: changes) =
          (writeLogicalPage page epoch newEpoch keys >>= fun _ =>
            writePages (methods hash) epoch newEpoch changes : Op StoreError (File E) Unit) :=
        List.forM_cons
      cases packed : (packPage newEpoch keys : Except StoreError (Block E)) with
      | error error =>
          simp only [packed] at head
          refine ⟨[], (page, keys) :: changes, rfl, Or.inr ⟨error, ?_, page, keys,
            List.mem_cons_self, packed⟩⟩
          rw [unfolded, bind_of_error head]
          simp [File.written]
      | ok block =>
          simp only [packed] at head
          simp only [List.map_cons, List.nodup_cons] at distinct
          obtain ⟨done, rest, split, outcome⟩ := ih (file.written epoch newEpoch [(page, keys)])
            distinct.2
          have others : ∀ other ∈ done.map Prod.fst, other ≠ page := by
            rintro other member rfl
            refine distinct.1 ?_
            rw [split, List.map_append]
            exact List.mem_append_left _ member
          have joined : (file.written epoch newEpoch [(page, keys)]).written epoch newEpoch done =
              file.written epoch newEpoch ((page, keys) :: done) := by
            have same : done.map (pageWrite (file.written epoch newEpoch [(page, keys)]).disk epoch
                newEpoch) = done.map (pageWrite file.disk epoch newEpoch) := by
              refine pageWrite_congr fun other member slot => ?_
              refine Disk.pread_replay_other fun effect inside => ?_
              simp only [List.map_cons, List.map_nil, List.mem_singleton] at inside
              exact ⟨_, _, inside, target_ne (others other member) slot⟩
            simp only [File.written, List.map_cons, List.map_nil, List.append_assoc,
              List.singleton_append, Disk.replay_cons, Disk.replay_nil] at same ⊢
            rw [same]
          rw [joined] at outcome
          refine ⟨(page, keys) :: done, rest, by rw [split]; rfl, ?_⟩
          rw [unfolded, bind_of_ok head]
          refine outcome.imp_right ?_
          rintro ⟨error, failed, page', keys', member, packed'⟩
          exact ⟨error, failed, page', keys', List.mem_cons_of_mem _ member, packed'⟩

def PagesFit (tx : Txn E) : Prop :=
  ∀ page keys, tx.changes.lookup page = some keys → pagePayloadLength keys ≤ MAX_PAYLOAD

/-- The pages of a transaction and its superblock can be encoded. -/
structure PayloadsOf (tx : Txn E) : Prop where
  pages : PagesFit tx
  superblock : superPayloadLength tx.info ≤ MAX_PAYLOAD

/-- So can the epoch it is to commit. -/
def Fits (tx : Txn E) (newEpoch : Nat) : Prop := newEpoch < 2 ^ 64 ∧ PayloadsOf tx

theorem packSuper_ok {newEpoch : Nat} {new : Meta E} {block : Block E}
    (packed : packSuper newEpoch new = .ok block) : block = .superblock newEpoch new ∧
      superPayloadLength new ≤ MAX_PAYLOAD ∧ newEpoch < 2 ^ 64 := by
  unfold packSuper at packed
  split at packed
  · cases packed
  · rename_i small
    split at packed
    · cases packed
    · rename_i early
      cases packed
      exact ⟨rfl, Nat.le_of_not_lt small, Nat.lt_of_not_le early⟩

theorem packSuper_error {newEpoch : Nat} {new : Meta E} {error : StoreError}
    (packed : (packSuper newEpoch new : Except StoreError (Block E)) = .error error) :
    (MAX_PAYLOAD < superPayloadLength new ∨ error = .structError ∧ 2 ^ 64 ≤ newEpoch) ∧
      error.isExhausted = false := by
  unfold packSuper at packed
  split at packed
  · rename_i large
    cases packed
    exact ⟨Or.inl large, rfl⟩
  · split at packed
    · rename_i late
      cases packed
      exact ⟨Or.inr ⟨rfl, late⟩, rfl⟩
    · cases packed

/-- What a transaction ready to be written is known to be. -/
structure Ready (hash : Hash) (initialCapacity : Nat) (disk : Disk (Block E)) (epoch : Nat)
    (info : Meta E) (key : String) (tx : Txn E) : Prop where
  shape : ∀ page keys, tx.changes.lookup page = some keys → page < tx.info.nextPageId ∧
    keys.length = (layout info.config initialCapacity).role info.config page
  laid : Laid (layout info.config initialCapacity) tx.info
  grows : info.nextPageId ≤ tx.info.nextPageId
  room : tx.info.nextPageId ≤ info.startMigration.nextPageId
  config : tx.info.config = info.config
  ext : tx.info.ext = info.ext
  wf : (tx.logical (view info.config initialCapacity disk epoch)).Wf hash info.config
  short : ¬ 256 < key.utf8ByteSize
  fresh : key ∉ (info.logical (view info.config initialCapacity disk epoch)).keys hash info.config
  keys : (tx.logical (view info.config initialCapacity disk epoch)).keys hash info.config =
    key ::ₘ (info.logical (view info.config initialCapacity disk epoch)).keys hash info.config

/-- Why `_prepare_insert` refuses a key: it is too long, or it is new and has nowhere to go. -/
def Refusal (hash : Hash) (initialCapacity : Nat) (disk : Disk (Block E)) (epoch : Nat)
    (info : Meta E) (key : String) (error : StoreError) : Prop :=
  256 < key.utf8ByteSize ∧ error.isExhausted = false ∨
    ¬ 256 < key.utf8ByteSize ∧ Logical.Exhausted error ∧
      key ∉ (info.logical (view info.config initialCapacity disk epoch)).keys hash info.config

/-- `_prepare_insert` follows the abstract insert. -/
theorem prepareInsert_follows (committed : Committed hash initialCapacity disk epoch info)
    (log : List (Effect (Block E))) (key : String) :
    match (info.logical (view info.config initialCapacity disk epoch)).insert hash info.config
        key with
    | .ok (true, _) => ∃ tx, tx.changes = ∅ ∧
        prepareInsert hash (methods hash) epoch info key ⟨disk, log⟩ =
          .ok (tx, .ofDuplicate) ⟨disk, log⟩
    | .ok (false, state) => ∃ tx prepared file',
        prepareInsert hash (methods hash) epoch info key ⟨disk, log⟩ = .ok (tx, prepared) file' ∧
        prepared.duplicate = false ∧
        (prepared.migrationStarted = true →
          info.old = none ∧ threshold info < info.currentRows + 1) ∧
        Extended disk log info.startMigration.nextPageId file' ∧
        Ready hash initialCapacity disk epoch info key tx ∧
        (∃ older, Worked hash (view info.config initialCapacity disk epoch)
          (key ::ₘ (info.logical (view info.config initialCapacity disk epoch)).keys hash
            info.config) tx older) ∧
        tx.logical (view info.config initialCapacity disk epoch) = state
    | .error error => ∃ file',
        prepareInsert hash (methods hash) epoch info key ⟨disk, log⟩ = .error error file' ∧
        Extended disk log info.startMigration.nextPageId file' := by
  have shown := committed.shown log
    (fun page owned => (Or.inl owned : info.owns page ∨ info.startMigration.owns page))
  obtain ⟨long, known, unknown⟩ := shown.prepareInsert key
  unfold Logical.insert
  by_cases size : 256 < key.utf8ByteSize
  · rw [if_pos size]
    exact ⟨_, long size, .same⟩
  rw [if_neg size]
  by_cases found : (info.logical (view info.config initialCapacity disk epoch)).found hash
      info.config key
  · rw [if_pos found]
    exact known size found
  rw [if_neg found]
  have fresh : key ∉ (info.logical (view info.config initialCapacity disk epoch)).keys hash
      info.config := mt (Logical.found_iff committed.wf.toMid).mpr found
  obtain ⟨tx, same, coherent, ran⟩ := unknown size found
  have admitted := admitTx_ok log committed same coherent (fun _ owned => owned) fresh
  rw [ran]
  cases abstractly : (info.logical (view info.config initialCapacity disk epoch)).admitKey hash
      info.config key with
  | error error =>
      simp only [abstractly] at admitted
      obtain ⟨file', extended, refused⟩ := admitted
      exact ⟨file', refused, extended⟩
  | ok state =>
      simp only [abstractly] at admitted
      obtain ⟨tx', prepared, file', ran', new, start, extended, shape, worked, laid, grows, room, conf, ext,
        logical⟩ := admitted
      obtain ⟨wf, keys⟩ := Logical.admitKey_spec committed.wf fresh abstractly
      refine ⟨tx', prepared, file', ran', new, start, extended, ?_, worked, logical⟩
      exact ⟨shape, laid, grows, room, conf, ext, by rw [logical]; exact wf, size,
        fresh, by rw [logical]; exact keys⟩

theorem prepareInsert_new (committed : Committed hash initialCapacity disk epoch info)
    {tx : Txn E} {prepared : Prepared} {file' : File E}
    (ran : prepareInsert hash (methods hash) epoch info key ⟨disk, log⟩ = .ok (tx, prepared) file')
    (new : prepared.duplicate = false) :
    (info.logical (view info.config initialCapacity disk epoch)).insert hash info.config key =
        .ok (false, tx.logical (view info.config initialCapacity disk epoch)) ∧
      ∃ older, Worked hash (view info.config initialCapacity disk epoch)
        (key ::ₘ (info.logical (view info.config initialCapacity disk epoch)).keys hash
          info.config) tx older := by
  have follows := prepareInsert_follows committed log key
  cases abstractly : (info.logical (view info.config initialCapacity disk epoch)).insert hash
      info.config key with
  | error error =>
      rw [abstractly] at follows
      obtain ⟨_, refused, _⟩ := follows
      rw [ran] at refused
      cases refused
  | ok result =>
      obtain ⟨duplicate, state⟩ := result
      rw [abstractly] at follows
      cases duplicate with
      | true =>
          obtain ⟨_, _, again⟩ := follows
          rw [ran] at again
          cases again
          cases new
      | false =>
          obtain ⟨_, _, _, again, _, _, _, _, worked, logical⟩ := follows
          rw [ran] at again
          cases again
          rw [logical]
          exact ⟨rfl, worked⟩

/-- What `_prepare_insert` comes to on a committed file. -/
theorem prepareInsert_ok (committed : Committed hash initialCapacity disk epoch info)
    (log : List (Effect (Block E))) (key : String) :
    (∃ tx, prepareInsert hash (methods hash) epoch info key ⟨disk, log⟩ =
        .ok (tx, .ofDuplicate) ⟨disk, log⟩ ∧ tx.changes = ∅ ∧
      key ∈ (info.logical (view info.config initialCapacity disk epoch)).keys hash info.config) ∨
    (∃ tx prepared file', prepareInsert hash (methods hash) epoch info key ⟨disk, log⟩ =
        .ok (tx, prepared) file' ∧ prepared.duplicate = false ∧
      Extended disk log info.startMigration.nextPageId file' ∧
      Ready hash initialCapacity disk epoch info key tx) ∨
    (∃ error file', prepareInsert hash (methods hash) epoch info key ⟨disk, log⟩ =
        .error error file' ∧ Extended disk log info.startMigration.nextPageId file' ∧
      Refusal hash initialCapacity disk epoch info key error) := by
  have follows := prepareInsert_follows committed log key
  cases abstractly : (info.logical (view info.config initialCapacity disk epoch)).insert hash
      info.config key with
  | error error =>
      rw [abstractly] at follows
      obtain ⟨file', refused, extended⟩ := follows
      refine Or.inr (Or.inr ⟨error, file', refused, extended, ?_⟩)
      rcases Logical.insert_error committed.wf abstractly with ⟨long, same⟩ |
        ⟨short, exhausted, fresh, _⟩
      · exact Or.inl ⟨long, by rw [same]; rfl⟩
      · exact Or.inr ⟨short, exhausted, fresh⟩
  | ok result =>
      obtain ⟨duplicate, state⟩ := result
      rw [abstractly] at follows
      cases duplicate with
      | true =>
          obtain ⟨tx, untouched, ran⟩ := follows
          rcases (Logical.insert_spec committed.wf abstractly).2 with ⟨_, _, member⟩ | ⟨new, _⟩
          · exact Or.inl ⟨tx, ran, untouched, member⟩
          · cases new
      | false =>
          obtain ⟨tx, prepared, file', ran, new, _, extended, ready, _, _⟩ := follows
          exact Or.inr (Or.inl ⟨tx, prepared, file', ran, new, extended, ready⟩)

omit [SuperFields E] in
theorem mem_sortedChanges {tx : Txn E} {page : Nat} {keys : Slots} :
    (page, keys) ∈ tx.sortedChanges ↔ tx.changes.lookup page = some keys := by
  simp only [Txn.sortedChanges, List.mem_filterMap, Option.map_eq_some_iff, Prod.mk.injEq]
  constructor
  · rintro ⟨other, _, held, found, rfl, rfl⟩
    exact found
  · intro found
    refine ⟨page, ?_, keys, found, rfl, rfl⟩
    rw [(List.perm_insertionSort _ _).mem_iff]
    exact AList.mem_keys.mp (AList.lookup_isSome.mp (by rw [found]; rfl))

omit [SuperFields E] in
theorem sortedChanges_nodup (tx : Txn E) : (tx.sortedChanges.map Prod.fst).Nodup := by
  have sorted : (tx.changes.keys.insertionSort (· ≤ ·)).Nodup :=
    (List.perm_insertionSort _ _).nodup_iff.mpr tx.changes.keys_nodup
  have pages : tx.sortedChanges.map Prod.fst = (tx.changes.keys.insertionSort (· ≤ ·)).filter
      fun page => (tx.changes.lookup page).isSome := by
    unfold Txn.sortedChanges
    generalize tx.changes.keys.insertionSort (· ≤ ·) = order
    induction order with
    | nil => rfl
    | cons page rest ih =>
        cases held : tx.changes.lookup page <;> simp [held, ih]
  rw [pages]
  exact sorted.filter _

omit [SuperFields E] in
theorem pread_written (disk disk₀ : Disk (Block E)) (epoch newEpoch : Nat)
    {changes : List (Nat × Slots)} (distinct : (changes.map Prod.fst).Nodup) (page : Nat)
    (slot : Bool) :
    (∀ keys, (page, keys) ∈ changes → 2 + 2 * page + slot.toNat = target disk₀ epoch page →
      (disk.replay (changes.map (pageWrite disk₀ epoch newEpoch))).pread
        (2 + 2 * page + slot.toNat) = .page newEpoch keys) ∧
    (page ∉ changes.map Prod.fst ∨ 2 + 2 * page + slot.toNat ≠ target disk₀ epoch page →
      (disk.replay (changes.map (pageWrite disk₀ epoch newEpoch))).pread
        (2 + 2 * page + slot.toNat) = disk.pread (2 + 2 * page + slot.toNat)) := by
  constructor
  · intro keys member here
    induction changes generalizing disk with
    | nil => simp at member
    | cons change rest ih =>
        simp only [List.map_cons, List.nodup_cons] at distinct
        rcases List.mem_cons.mp member with same | later
        · subst same
          rw [List.map_cons, Disk.replay_cons, Disk.pread_replay_other]
          · simp [Disk.apply, pageWrite, here]
          · intro effect inside
            obtain ⟨other, mem, rfl⟩ := List.mem_map.mp inside
            refine ⟨_, _, rfl, target_ne ?_ slot⟩
            rintro rfl
            exact distinct.1 (List.mem_map.mpr ⟨other, mem, rfl⟩)
        · rw [List.map_cons, Disk.replay_cons]
          exact ih _ distinct.2 later
  · intro apart
    refine Disk.pread_replay_other fun effect inside => ?_
    obtain ⟨change, member, rfl⟩ := List.mem_map.mp inside
    refine ⟨_, _, rfl, ?_⟩
    by_cases same : change.1 = page
    · rcases apart with absent | elsewhere
      · exact absurd (same ▸ List.mem_map_of_mem member) absent
      · rw [same]
        exact elsewhere.symm
    · exact target_ne (Ne.symm same) slot

end FixedPage
end DurableContext
