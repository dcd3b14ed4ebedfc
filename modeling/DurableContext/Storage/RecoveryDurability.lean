import DurableContext.Storage.CrossStoreHybridRuns
import Mathlib.Logic.Relation

/-! Recovery of a hybrid whose primary file has two views, the one a process sees and the one on
the durable medium, cut by kills and power losses any number of times.

Only `fsync` brings the durable view in line, and recovery reaches it behind a truncation alone. -/

namespace DurableContext

section Reread

variable {E : Type} {read read' : Reader} {tx : Txn E}

namespace Txn

theorem readPage_congr {page slots : Nat}
    (agree : read' page tx.epoch slots = read page tx.epoch slots) :
    tx.readPage read' page slots = tx.readPage read page slots := by
  unfold readPage
  rw [agree]

theorem readPage_same {page slots : Nat} {keys : Slots} {tx' : Txn E}
    (ran : tx.readPage read page slots = .ok (keys, tx')) : Same tx tx' := by
  unfold readPage at ran
  split at ran
  · cases ran
    exact .refl tx
  · split at ran
    · cases ran
      exact .refl tx
    · cases got : read page tx.epoch slots with
      | error error => simp [got, bind, Except.bind] at ran
      | ok found =>
          simp only [got, bind, Except.bind] at ran
          cases ran
          exact ⟨rfl, rfl, rfl⟩

end Txn

variable {config : Config} {generation base capacity limit : Nat}

theorem lookupGenerationTx_congr (hash : Hash) (key : String) (sized : Sized config capacity)
    (named : Named config generation base capacity tx)
    (inside : base + capacity / config.bucketSize < limit)
    (agree : ∀ page < limit, ∀ slots, read' page tx.epoch slots = read page tx.epoch slots) :
    lookupGenerationTx hash read' tx generation capacity key =
        lookupGenerationTx hash read tx generation capacity key ∧
      ∀ found pages tx', lookupGenerationTx hash read tx generation capacity key =
        .ok (found, pages, tx') → Txn.Same tx tx' := by
  have valid := scheme_valid hash sized
  have firstLt := valid.first_lt key
  have secondLt := valid.second_lt key
  simp only [scheme] at firstLt secondLt
  have alike : ∀ other : Txn E, Txn.Same tx other → ∀ bucket ≤ capacity / config.bucketSize,
      ∀ slots, other.readPage read' (base + bucket) slots =
        other.readPage read (base + bucket) slots := by
    intro other same bucket bound slots
    refine Txn.readPage_congr ?_
    rw [same.epoch]
    exact agree _ (by omega) slots
  unfold lookupGenerationTx
  simp only [named.config, named.bucketPageId, bind, Except.bind]
  rw [alike tx (.refl tx) _ firstLt.le]
  cases first : tx.readPage read (base + (bucketPair hash config key capacity).1)
      config.bucketSize with
  | error error => exact ⟨rfl, by simp⟩
  | ok read₁ =>
      obtain ⟨keys₁, tx₁⟩ := read₁
      have same₁ := Txn.readPage_same first
      have named₁ := named.transfer same₁.info
      simp only [named₁.config, named₁.bucketPageId]
      by_cases hit : some key ∈ keys₁
      · simp only [hit, if_true, true_and]
        intro found pages tx' ran
        cases ran
        exact same₁
      simp only [hit, if_false]
      rw [alike tx₁ same₁ _ secondLt.le]
      cases second : tx₁.readPage read (base + (bucketPair hash config key capacity).2)
          config.bucketSize with
      | error error => exact ⟨rfl, by simp⟩
      | ok read₂ =>
          obtain ⟨keys₂, tx₂⟩ := read₂
          have same₂ := same₁.trans (Txn.readPage_same second)
          have named₂ := named.transfer same₂.info
          simp only [named₂.config, named₂.stashPageId]
          by_cases hit₂ : some key ∈ keys₂
          · simp only [hit₂, if_true, true_and]
            intro found pages tx' ran
            cases ran
            exact same₂
          simp only [hit₂, if_false]
          rw [alike tx₂ same₂ _ le_rfl]
          cases third : tx₂.readPage read (base + capacity / config.bucketSize)
              config.stashCapacity with
          | error error => exact ⟨rfl, by simp⟩
          | ok read₃ =>
              refine ⟨rfl, ?_⟩
              intro found pages tx' ran
              cases ran
              exact same₂.trans (Txn.readPage_same third)

/-- Every page of the generations in use lies in the file's pages, and both are of a size the
store makes. -/
structure Fitted (info : Meta E) : Prop where
  owned : ∀ page, info.owns page → page < info.nextPageId
  current : Sized info.config info.currentCapacity
  old : ∀ old, info.old = some old → Sized info.config old.capacity ∧
    info.currentGeneration = old.generation + 1

theorem lookup_congr {σ : Type} {hash : Hash} {store : Methods σ E} {world world' : σ} {epoch : Nat}
    {info : Meta E} {active : Bool} (fitted : Fitted info) (key : String)
    (super : store.readSuper world = .ok (epoch, info, active))
    (super' : store.readSuper world' = .ok (epoch, info, active))
    (agree : ∀ page < info.nextPageId, ∀ slots, store.readLogicalPage world' page epoch slots =
      store.readLogicalPage world page epoch slots) :
    lookup hash store key world' = lookup hash store key world := by
  have bound : info.currentBasePage + info.currentCapacity / info.config.bucketSize <
      info.nextPageId := fitted.owned _ (Or.inl ⟨_, le_rfl, rfl⟩)
  have current := lookupGenerationTx_congr hash key fitted.current
    (start_named epoch info) bound agree
  unfold lookup
  simp only [super, super', bind, Except.bind]
  rw [current.1]
  cases first : lookupGenerationTx hash (store.readLogicalPage world) (Txn.start epoch info)
      info.currentGeneration info.currentCapacity key with
  | error error => rfl
  | ok result =>
      obtain ⟨found, pages, tx⟩ := result
      have same := current.2 _ _ _ first
      cases found with
      | true => rfl
      | false =>
          cases held : info.old with
          | none => rfl
          | some old =>
              obtain ⟨sized, succ⟩ := fitted.old old held
              have named : Named info.config old.generation old.basePage old.capacity tx := by
                refine (named_old (Txn.start epoch info) rfl held succ).transfer ?_
                exact same.info
              have oldBound : old.basePage + old.capacity / info.config.bucketSize <
                  info.nextPageId := fitted.owned _ (Or.inr ⟨old, held, _, le_rfl, rfl⟩)
              have alike : ∀ page < info.nextPageId, ∀ slots,
                  store.readLogicalPage world' page tx.epoch slots =
                    store.readLogicalPage world page tx.epoch slots := by
                rw [same.epoch]
                exact agree
              have older := (lookupGenerationTx_congr hash key sized named oldBound alike).1
              simp only [Bool.false_eq_true, if_false, older]

end Reread

namespace CrossStoreHybrid

open Program FixedPage

/-- The stores as a process sees them, the durable view of the primary file, and what the
overflow table will be once an open transaction commits. -/
structure Media where
  world : World
  durable : Disk (Block HybridMeta)
  pending : Option (Table String Nat)

/-- What `recover` asks of SQLite and of the operating system; `finish` sets its own flag. -/
inductive RecoveryCall where
  | beginImmediate
  | deleteFuture (epoch : Nat)
  | commit
  | ftruncate (pages : Nat)
  | fsync
  | finish
  deriving DecidableEq, Repr

def recoverCalls (world : World) : Except StoreError (List RecoveryCall) := do
  let (epoch, info, _) ← readSuper world.disk
  bindInteger epoch
  let futureExists := (world.future epoch).keys.length ≠ 0
  let reclaimed := world.disk.size - reachablePages info
  .ok ((if futureExists then [.beginImmediate, .deleteFuture epoch, .commit] else []) ++
    (if reclaimed ≠ 0 then [.ftruncate (reachablePages info), .fsync] else []) ++ [.finish])

namespace Media

def apply (media : Media) : RecoveryCall → Media
  | .beginImmediate => { media with pending := some media.world.overflow }
  | .deleteFuture epoch =>
      { media with pending := media.pending.map fun table =>
          table.filter fun _ rowEpoch => decide (rowEpoch ≤ epoch) }
  | .commit =>
      { media with
        world := { media.world with overflow := media.pending.getD media.world.overflow }
        pending := none }
  | .ftruncate pages =>
      { media with world := { media.world with disk := media.world.disk.ftruncate pages } }
  | .fsync => { media with durable := media.world.disk }
  | .finish => { media with world := { media.world with recovered := true } }

def run (media : Media) (calls : List RecoveryCall) : Media := calls.foldl apply media

/-- What the next process finds when this one is killed. -/
def killed (media : Media) : Media :=
  { media with world := { media.world with recovered := false }, pending := none }

/-- What the next process finds after a power loss, which what was not synced may survive. -/
def powerLost (media : Media) (survived : Bool) : Media :=
  let disk := if survived then media.world.disk else media.durable
  ⟨⟨disk, media.world.overflow, false⟩, disk, none⟩

end Media

/-- A `recover` cut off between two of its calls. -/
inductive Interrupted : Media → Media → Prop
  | killed (media : Media) (before after : List RecoveryCall)
      (calls : recoverCalls media.world = .ok (before ++ after)) :
      Interrupted media (media.run before).killed
  | powerLost (media : Media) (survived : Bool) (before after : List RecoveryCall)
      (calls : recoverCalls media.world = .ok (before ++ after)) :
      Interrupted media ((media.run before).powerLost survived)

def Recovered (media final : Media) : Prop :=
  ∃ calls, recoverCalls media.world = .ok calls ∧ final = media.run calls

/-- One interrupted attempt after another. -/
def Attempts : Media → Media → Prop := Relation.ReflTransGen Interrupted

/-- Any number of later calls of `recover`, left to finish or not. -/
def Later : Media → Media → Prop :=
  Relation.ReflTransGen fun media next => Interrupted media next ∨ Recovered media next

/-- A file in which readers find the committed state of another file, all of it in place. -/
structure Shows (disk : Disk (Block HybridMeta)) (epoch : Nat) (info : Meta HybridMeta)
    (active : Bool) (disk' : Disk (Block HybridMeta)) : Prop where
  super : readSuper disk' = .ok (epoch, info, active)
  pages : ∀ page < info.nextPageId, ∀ slots,
    pageAt disk' epoch slots page = pageAt disk epoch slots page
  covered : reachablePages info ≤ disk'.size

/-- The stores before a recovery: both views of the file show one committed state. -/
structure StoreFile (media : Media) (epoch : Nat) (info : Meta HybridMeta) (active : Bool) :
    Prop where
  visible : Shows media.world.disk epoch info active media.world.disk
  durable : Shows media.world.disk epoch info active media.durable
  fitted : Fitted info
  idle : media.pending = none

/-- What recovery is for: readers find what they found at the start, neither view of the file nor
the table holds anything of a later epoch, and no later recovery has anything to do. -/
structure Converged (hash : Hash) (start final : Media) (epoch : Nat) (info : Meta HybridMeta)
    (active : Bool) : Prop where
  noFuture : NoFuture final.world epoch
  visible : final.world.disk.size = reachablePages info
  durable : final.durable.size = reachablePages info
  super : readSuper final.world.disk = .ok (epoch, info, active)
  lookups : ∀ key, lookup hash key final.world = lookup hash key start.world
  idempotent : ∀ later, Later final later → recoverCalls later.world = .ok [.finish]

variable {hash : Hash} {start media next final : Media} {disk disk' : Disk (Block HybridMeta)}
  {world : World} {epoch : Nat} {info : Meta HybridMeta} {active : Bool}
  {calls : List RecoveryCall}

theorem Shows.truncated (shows : Shows disk epoch info active disk') :
    Shows disk epoch info active (disk'.ftruncate (reachablePages info)) where
  super := by
    have same : copiesAt Block.asSuperblock (disk'.ftruncate (reachablePages info)) 0 =
        copiesAt Block.asSuperblock disk' 0 := by
      funext slot
      have small : slot.toNat < reachablePages info := by
        have := Bool.toNat_le slot
        unfold reachablePages
        omega
      simp [copiesAt, small]
    have super := shows.super
    unfold readSuper at super ⊢
    rw [same]
    exact super
  pages := by
    intro page bound slots
    rw [← shows.pages page bound slots]
    refine pageAt_congr fun slot => ?_
    have inside : 2 + 2 * page + slot.toNat < reachablePages info := by
      have := Bool.toNat_le slot
      unfold reachablePages
      omega
    simp [inside]
  covered := le_rfl

theorem future_empty : (world.future epoch).keys.length = 0 ↔ NoFuture world epoch := by
  rw [List.length_eq_zero_iff, List.eq_nil_iff_forall_not_mem]
  have member : ∀ key, key ∈ (world.future epoch).keys ↔
      ∃ rowEpoch, world.overflow.lookup key = some rowEpoch ∧ epoch < rowEpoch := by
    intro key
    rw [← AList.mem_keys, ← AList.lookup_isSome, World.future, Table.lookup_filter,
      Option.isSome_iff_exists]
    simp only [Option.filter_eq_some_iff, decide_eq_true_eq]
  constructor
  · intro none key rowEpoch found
    by_contra late
    exact none key ((member key).mpr ⟨rowEpoch, found, by omega⟩)
  · intro noFuture key inside
    obtain ⟨rowEpoch, found, late⟩ := (member key).mp inside
    have := noFuture key rowEpoch found
    omega

/-- What every interrupted recovery keeps of the stores it started from. -/
structure Kept (start : Media) (epoch : Nat) (info : Meta HybridMeta) (active : Bool)
    (media : Media) : Prop where
  visible : Shows start.world.disk epoch info active media.world.disk
  durable : Shows start.world.disk epoch info active media.durable
  rows : media.world.visible epoch = start.world.visible epoch
  pending : ∀ table, media.pending = some table →
    (table.filter fun _ rowEpoch => decide (rowEpoch ≤ epoch)) = start.world.visible epoch

/-- The calls that a recovery of this committed state makes. -/
def RecoveryCall.Aimed (epoch : Nat) (info : Meta HybridMeta) : RecoveryCall → Prop
  | .deleteFuture other => other = epoch
  | .ftruncate pages => pages = reachablePages info
  | _ => True

theorem recoverCalls_eq (super : readSuper world.disk = .ok (epoch, info, active))
    (small : epoch < 2 ^ 63) :
    recoverCalls world =
      .ok ((if (world.future epoch).keys.length ≠ 0 then
          [.beginImmediate, .deleteFuture epoch, .commit] else []) ++
        (if world.disk.size - reachablePages info ≠ 0 then
          [.ftruncate (reachablePages info), .fsync] else []) ++ [.finish]) := by
  rw [recoverCalls, ok_bind super]
  simp only
  rw [ok_bind (bindInteger_ok small)]

theorem recoverCalls_small (super : readSuper world.disk = .ok (epoch, info, active))
    (planned : recoverCalls world = .ok calls) : epoch < 2 ^ 63 := by
  rw [recoverCalls, ok_bind super] at planned
  obtain ⟨_, bound, _⟩ := of_bind_ok planned
  by_contra large
  rw [bindInteger, if_neg large] at bound
  cases bound

theorem recoverCalls_aimed (super : readSuper world.disk = .ok (epoch, info, active))
    (planned : recoverCalls world = .ok calls) : ∀ call ∈ calls, call.Aimed epoch info := by
  rw [recoverCalls_eq super (recoverCalls_small super planned)] at planned
  cases planned
  intro call member
  rcases List.mem_append.mp member with early | last
  · rcases List.mem_append.mp early with cleanup | truncation
    · split at cleanup
      · simp only [List.mem_cons, List.not_mem_nil, or_false] at cleanup
        rcases cleanup with same | same | same <;> rw [same] <;> trivial
      · cases cleanup
    · split at truncation
      · simp only [List.mem_cons, List.not_mem_nil, or_false] at truncation
        rcases truncation with same | same <;> rw [same] <;> trivial
      · cases truncation
  · rw [List.mem_singleton.mp last]
    trivial

theorem StoreFile.kept (file : StoreFile media epoch info active) :
    Kept media epoch info active media where
  visible := file.visible
  durable := file.durable
  rows := rfl
  pending := by
    intro table held
    rw [file.idle] at held
    cases held

namespace Kept

theorem filter_filter (table : Table String Nat) (epoch : Nat) :
    ((table.filter fun _ rowEpoch => decide (rowEpoch ≤ epoch)).filter
        fun _ rowEpoch => decide (rowEpoch ≤ epoch)) =
      table.filter fun _ rowEpoch => decide (rowEpoch ≤ epoch) := by
  refine Table.filter_eq_self fun key rowEpoch found => ?_
  rw [Table.lookup_filter, Option.filter_eq_some_iff] at found
  exact found.2

theorem apply (kept : Kept start epoch info active media) {call : RecoveryCall}
    (aimed : call.Aimed epoch info) : Kept start epoch info active (media.apply call) := by
  cases call with
  | beginImmediate =>
      refine ⟨kept.visible, kept.durable, kept.rows, ?_⟩
      intro table held
      cases held
      exact kept.rows
  | deleteFuture other =>
      refine ⟨kept.visible, kept.durable, kept.rows, ?_⟩
      intro table held
      obtain ⟨before, opened, same⟩ := Option.map_eq_some_iff.mp held
      have here : other = epoch := aimed
      rw [← same, here, filter_filter]
      exact kept.pending before opened
  | commit =>
      refine ⟨kept.visible, kept.durable, ?_, ?_⟩
      · cases opened : media.pending with
        | none =>
            simp only [Media.apply, opened, Option.getD_none]
            exact kept.rows
        | some table =>
            simp only [Media.apply, opened, Option.getD_some]
            exact kept.pending table opened
      · intro table held
        cases held
  | ftruncate pages =>
      have here : pages = reachablePages info := aimed
      subst here
      exact ⟨kept.visible.truncated, kept.durable, kept.rows, kept.pending⟩
  | fsync => exact ⟨kept.visible, kept.visible, kept.rows, kept.pending⟩
  | finish => exact ⟨kept.visible, kept.durable, kept.rows, kept.pending⟩

theorem run (kept : Kept start epoch info active media)
    (aimed : ∀ call ∈ calls, call.Aimed epoch info) :
    Kept start epoch info active (media.run calls) := by
  induction calls generalizing media with
  | nil => exact kept
  | cons call rest ih =>
      have first := kept.apply (aimed call List.mem_cons_self)
      exact ih first fun later member => aimed later (List.mem_cons_of_mem _ member)

theorem killed (kept : Kept start epoch info active media) :
    Kept start epoch info active media.killed where
  visible := kept.visible
  durable := kept.durable
  rows := kept.rows
  pending := by
    intro table held
    cases held

theorem powerLost (kept : Kept start epoch info active media) (survived : Bool) :
    Kept start epoch info active (media.powerLost survived) := by
  have seen : Shows start.world.disk epoch info active
      (if survived then media.world.disk else media.durable) := by
    cases survived with
    | false => exact kept.durable
    | true => exact kept.visible
  refine ⟨seen, seen, kept.rows, ?_⟩
  intro table held
  cases held

theorem interrupted (kept : Kept start epoch info active media)
    (interrupted : Interrupted media next) : Kept start epoch info active next := by
  cases interrupted with
  | killed before after planned =>
      have aimed := recoverCalls_aimed kept.visible.super planned
      exact (kept.run fun call member => aimed call (List.mem_append_left _ member)).killed
  | powerLost survived before after planned =>
      have aimed := recoverCalls_aimed kept.visible.super planned
      exact (kept.run fun call member =>
        aimed call (List.mem_append_left _ member)).powerLost survived

theorem attempts (kept : Kept start epoch info active media) (attempts : Attempts media next) :
    Kept start epoch info active next := by
  induction attempts with
  | refl => exact kept
  | tail _ last ih => exact ih.interrupted last

theorem recovered (kept : Kept start epoch info active media) (recovered : Recovered media final) :
    Kept start epoch info active final := by
  obtain ⟨calls, planned, same⟩ := recovered
  rw [same]
  exact kept.run (recoverCalls_aimed kept.visible.super planned)

end Kept

/-- Where a recovery left to finish ends. The durable view follows only behind a truncation. -/
theorem Recovered.ends (super : readSuper media.world.disk = .ok (epoch, info, active))
    (covered : reachablePages info ≤ media.world.disk.size) (recovered : Recovered media final) :
    NoFuture final.world epoch ∧ final.world.disk.size = reachablePages info ∧
      final.durable.size = if media.world.disk.size = reachablePages info then media.durable.size
        else reachablePages info := by
  obtain ⟨calls, planned, same⟩ := recovered
  rw [recoverCalls_eq super (recoverCalls_small super planned)] at planned
  cases planned
  subst same
  by_cases future : (media.world.future epoch).keys.length = 0
  · have noFuture := future_empty.mp future
    by_cases whole : media.world.disk.size = reachablePages info
    · simp [future, whole, Media.run, Media.apply]
      exact noFuture
    · have some : media.world.disk.size - reachablePages info ≠ 0 := by omega
      simp [future, some, whole, Media.run, Media.apply]
      exact noFuture
  · have deleted : NoFuture { media.world with
        overflow := media.world.overflow.filter fun _ rowEpoch => decide (rowEpoch ≤ epoch) }
        epoch := by
      intro key rowEpoch found
      rw [Table.lookup_filter, Option.filter_eq_some_iff] at found
      simpa using found.2
    by_cases whole : media.world.disk.size = reachablePages info
    · simp [future, whole, Media.run, Media.apply]
      exact deleted
    · have some : media.world.disk.size - reachablePages info ≠ 0 := by omega
      simp [future, some, whole, Media.run, Media.apply]
      exact deleted

/-- Stores that hold nothing but what is committed, in both views of the file. -/
structure Clean (media : Media) (epoch : Nat) (info : Meta HybridMeta) (active : Bool) : Prop where
  small : epoch < 2 ^ 63
  super : readSuper media.world.disk = .ok (epoch, info, active)
  durableSuper : readSuper media.durable = .ok (epoch, info, active)
  noFuture : NoFuture media.world epoch
  visible : media.world.disk.size = reachablePages info
  durable : media.durable.size = reachablePages info

namespace Clean

theorem planned (clean : Clean media epoch info active) :
    recoverCalls media.world = .ok [.finish] := by
  rw [recoverCalls_eq clean.super clean.small]
  simp [future_empty.mpr clean.noFuture, clean.visible]

theorem run (clean : Clean media epoch info active) {before after : List RecoveryCall}
    (planned : recoverCalls media.world = .ok (before ++ after)) :
    Clean (media.run before) epoch info active := by
  rw [clean.planned] at planned
  have split : before ++ after = [.finish] := (Except.ok.inj planned).symm
  rcases List.append_eq_singleton_iff.mp split with ⟨none, _⟩ | ⟨all, _⟩
  · rw [none]
    exact clean
  · rw [all]
    exact ⟨clean.small, clean.super, clean.durableSuper, clean.noFuture, clean.visible, clean.durable⟩

theorem step (clean : Clean media epoch info active)
    (stepped : Interrupted media next ∨ Recovered media next) : Clean next epoch info active := by
  rcases stepped with interrupted | ⟨calls, planned, same⟩
  · cases interrupted with
    | killed before after planned =>
        have cut := clean.run planned
        exact ⟨cut.small, cut.super, cut.durableSuper, cut.noFuture, cut.visible, cut.durable⟩
    | powerLost survived before after planned =>
        have cut := clean.run planned
        cases survived with
        | false =>
            exact ⟨cut.small, cut.durableSuper, cut.durableSuper, cut.noFuture, cut.durable,
              cut.durable⟩
        | true => exact ⟨cut.small, cut.super, cut.super, cut.noFuture, cut.visible, cut.visible⟩
  · rw [same]
    have whole : recoverCalls media.world = .ok (calls ++ []) := by
      rw [List.append_nil]
      exact planned
    exact clean.run whole

theorem later (clean : Clean media epoch info active) (later : Later media next) :
    Clean next epoch info active := by
  induction later with
  | refl => exact clean
  | tail _ last ih => exact ih.step last

end Clean

theorem Kept.lookup (kept : Kept start epoch info active media)
    (file : StoreFile start epoch info active) (key : String) :
    lookup hash key media.world = lookup hash key start.world := by
  have same : DurableContext.lookup hash (FixedPage.methods hash) key media.world.primaryFile =
      DurableContext.lookup hash (FixedPage.methods hash) key start.world.primaryFile := by
    refine lookup_congr file.fitted key file.visible.super kept.visible.super ?_
    intro page bound slots
    show readLogicalPage _ _ _ _ = readLogicalPage _ _ _ _
    rw [readLogicalPage_eq, readLogicalPage_eq]
    exact congrArg Except.ok (kept.visible.pages page bound slots)
  unfold CrossStoreHybrid.lookup
  rw [same, kept.visible.super, file.visible.super]
  simp only [bind, Except.bind, kept.rows]

theorem Recovered.total (super : readSuper media.world.disk = .ok (epoch, info, active))
    (small : epoch < 2 ^ 63) : ∃ final, Recovered media final :=
  ⟨_, _, recoverCalls_eq super small, rfl⟩

/-- The calls do to the world what `recover` does to it. -/
theorem Recovered.same_world (super : readSuper media.world.disk = .ok (epoch, info, active))
    (recovered : Recovered media final) :
    final.world = (finalState (recover ⟨media.world, []⟩)).world := by
  obtain ⟨calls, planned, same⟩ := recovered
  have small := recoverCalls_small super planned
  rw [recoverCalls_eq super small] at planned
  cases planned
  obtain ⟨trace, ran⟩ := recover_effects ⟨media.world, []⟩ super small
  rw [same, ran]
  by_cases future : (media.world.future epoch).keys.length = 0 <;>
    by_cases whole : media.world.disk.size - reachablePages info = 0 <;>
      simp [future, whole, Media.run, Media.apply, World.replay, World.apply, Disk.apply, finalState]

/-- Any committed state a run of the store can reach, its tail still there or not. -/
theorem Held.storeFile {initialCapacity : Nat} {primary overflow : Finset String}
    (held : Held hash initialCapacity world epoch info primary overflow)
    (super : readSuper world.disk = .ok (epoch, info, active))
    (covered : reachablePages info ≤ world.disk.size)
    (durable : Shows world.disk epoch info active disk) :
    StoreFile ⟨world, disk, none⟩ epoch info active where
  visible := ⟨super, fun _ _ _ => rfl, covered⟩
  durable := durable
  fitted := by
    have shown := held.committed.shown [] fun _ owned => owned
    refine ⟨fun page owned => held.committed.laid.owns_lt (layout_apart _ _) owned, shown.wf.sized,
      fun old migrating => ?_⟩
    have older := shown.old_wf migrating
    exact ⟨older.sized, older.succ⟩
  idle := rfl

/-- After any interrupted attempts, a recovery left to finish does to the stores what `recover`
does, and all that it is for just when it finds a file that is not cut off yet, or one whose durable
view is cut off too. Only an epoch that SQLite cannot hold keeps it from finishing. -/
theorem recovery_converges_iff (file : StoreFile start epoch info active)
    (attempts : Attempts start media) :
    (epoch < 2 ^ 63 → ∃ final, Recovered media final ∧
      final.world = (finalState (recover ⟨media.world, []⟩)).world ∧
      (Converged hash start final epoch info active ↔
        media.world.disk.size ≠ reachablePages info ∨
          media.durable.size = reachablePages info)) ∧
    (2 ^ 63 ≤ epoch → ∀ final, ¬ Recovered media final) := by
  have kept := file.kept.attempts attempts
  refine ⟨fun small => ?_, fun large final recovered => ?_⟩
  rotate_left
  · obtain ⟨calls, planned, _⟩ := recovered
    exact absurd (recoverCalls_small kept.visible.super planned) (Nat.not_lt.mpr large)
  obtain ⟨final, recovered⟩ := Recovered.total kept.visible.super small
  refine ⟨final, recovered, recovered.same_world kept.visible.super, ?_⟩
  obtain ⟨noFuture, visible, durable⟩ :=
    recovered.ends kept.visible.super kept.visible.covered
  have after := kept.recovered recovered
  constructor
  · intro converged
    by_cases whole : media.world.disk.size = reachablePages info
    · right
      rw [if_pos whole] at durable
      exact durable.symm.trans converged.durable
    · exact Or.inl whole
  · intro condition
    have synced : final.durable.size = reachablePages info := by
      rw [durable]
      split
      · rename_i whole
        exact condition.resolve_left fun other => other whole
      · rfl
    have clean : Clean final epoch info active :=
      ⟨small, after.visible.super, after.durable.super, noFuture, visible, synced⟩
    exact ⟨noFuture, visible, synced, after.visible.super, fun key => after.lookup file key,
      fun later steps => (clean.later steps).planned⟩

/-- So small a load that the first insert starts a migration. -/
def earlyConfig : Config := ⟨1 / 10, "0.1", 1, 4, 1, 2, false⟩

def earlyMeta : Meta HybridMeta := initialMeta 8 earlyConfig none

def earlyWorld : World := ⟨createdDisk earlyMeta, ∅, true⟩

theorem earlyWorld_initialized : initializeStore 8 earlyConfig = .ok earlyWorld := by
  have accepted : checkConfig 8 earlyConfig = .ok () := by
    have masked : 8 &&& 7 = 0 := by decide
    norm_num [checkConfig, earlyConfig, masked]
  rw [initializeStore, ok_bind (initializeStore_of accepted (by decide +kernel))]
  rfl

def dataSynced (label : String) : Bool := label == "primary_data_synced"

/-- The first insert has extended the file and written to it, and raises before it commits. -/
def tailWorld : World := (sampleCall dataSynced earlyWorld "a").world

def tailMedia : Media := ⟨tailWorld, tailWorld.disk, none⟩

theorem tailMedia_file : StoreFile tailMedia 1 earlyMeta false := by
  obtain ⟨info, created⟩ := initializeStore_held sampleHash earlyWorld_initialized
  obtain ⟨slot, super⟩ := created.committed.super
  have same : info = earlyMeta := by
    have read := (createdDisk_super earlyMeta).symm.trans super
    exact (congrArg (fun found => found.2.1) (Except.ok.inj read)).symm
  rw [same] at created
  have called : Call sampleHash true earlyWorld "a" false tailWorld :=
    sampleCall_finished dataSynced earlyWorld "a" false (by decide +kernel)
  have tailSuper : readSuper tailWorld.disk = .ok (1, earlyMeta, false) :=
    eq_ok_of_toOption (by decide +kernel)
  have covered : reachablePages earlyMeta ≤ tailWorld.disk.size := by decide +kernel
  exact (called.uncommitted created).storeFile tailSuper covered
    ⟨tailSuper, fun _ _ _ => rfl, covered⟩

/-- Recovery has cut the tail off and is killed before it syncs the file. -/
def cutMedia : Media := (tailMedia.run [.ftruncate 20]).killed

theorem cutMedia_attempts : Attempts tailMedia cutMedia := by
  have planned : recoverCalls tailMedia.world =
      .ok ([.ftruncate 20] ++ [.fsync, .finish]) := eq_ok_of_toOption (by decide +kernel)
  exact .single (.killed tailMedia _ _ planned)

/-- After such a kill the power fails before the next recovery begins, which is left to finish. -/
theorem recovery_converges_iff_sample : ∃ media final, Attempts tailMedia media ∧
    Recovered media final ∧ final.world = (finalState (recover ⟨media.world, []⟩)).world ∧
    Converged sampleHash tailMedia final 1 earlyMeta false := by
  have planned : recoverCalls cutMedia.world = .ok ([] ++ [.finish]) :=
    eq_ok_of_toOption (by decide +kernel)
  have attempts : Attempts tailMedia ((cutMedia.run []).powerLost false) :=
    cutMedia_attempts.tail (.powerLost cutMedia false [] _ planned)
  obtain ⟨final, recovered, same, converged⟩ :=
    (recovery_converges_iff tailMedia_file attempts).1 (by decide)
  exact ⟨_, final, attempts, recovered, same, converged.mpr (Or.inl (by decide +kernel))⟩

/-- Killed between `ftruncate` and `fsync`, recovery never syncs the file again: its durable view
keeps the tail. -/
theorem killed_recovery_leaves_tail :
    ¬ ∀ (start media final : Media) (epoch : Nat) (info : Meta HybridMeta) (active : Bool),
      StoreFile start epoch info active → Attempts start media → Recovered media final →
        Converged sampleHash start final epoch info active := by
  intro converges
  have kept := tailMedia_file.kept.attempts cutMedia_attempts
  obtain ⟨final, recovered⟩ := Recovered.total kept.visible.super (by decide)
  have converged := converges tailMedia cutMedia final 1 earlyMeta false tailMedia_file
    cutMedia_attempts recovered
  obtain ⟨_, _, durable⟩ := recovered.ends kept.visible.super kept.visible.covered
  have cut : cutMedia.world.disk.size = reachablePages earlyMeta := rfl
  have long : cutMedia.durable.size ≠ reachablePages earlyMeta := by decide +kernel
  rw [if_pos cut] at durable
  exact long (durable.symm.trans converged.durable)

end CrossStoreHybrid

end DurableContext
