import DurableContext.Storage.FaultFree

/-! What a refused placement leaves of a transaction: the changes are given back, the cache keeps
the pages that the evictions have written. -/

namespace DurableContext

open BucketTable

variable {E : Type} [SuperFields E]

namespace Txn

/-- What the transaction reads from a page, asked for so many slots. -/
def shows (disk : Disk (Block E)) (tx : Txn E) (slots page : Nat) : Slots :=
  (tx.changes.lookup page).getD
    ((tx.cache.lookup page).getD (FixedPage.pageAt disk tx.epoch slots page))

/-- A later read of the page, without what it does to the transaction. -/
def reads (disk : Disk (Block E)) (tx : Txn E) (page slots : Nat) : Except StoreError Slots :=
  (tx.readPage (FixedPage.readLogicalPage disk) page slots).map Prod.fst

/-- The table that the transaction reads from the pages of a generation. -/
def tableShown (disk : Disk (Block E)) (hash : Hash) (capacity base : Nat) (tx : Txn E) :
    Buckets String := fun bucket =>
  tx.shows disk ((scheme hash tx.info.config capacity).slotsAt bucket) (base + bucket)

omit [SuperFields E] in
theorem reads_eq (disk : Disk (Block E)) (tx : Txn E) (page slots : Nat) :
    tx.reads disk page slots = .ok (tx.shows disk slots page) := by
  unfold reads readPage shows
  cases tx.changes.lookup page with
  | some keys => rfl
  | none =>
      cases tx.cache.lookup page with
      | some keys => rfl
      | none =>
          simp only [FixedPage.readLogicalPage_eq]
          rfl

end Txn

/-- A placement at work on the pages from `base` on: the transaction shows the table, and what it
has written of the pages is in its changes and in its cache. -/
structure Evicting (disk : Disk (Block E)) (scheme : Scheme String) (base : Nat) (start tx : Txn E)
    (table : Buckets String) : Prop where
  info : tx.info = start.info
  epoch : tx.epoch = start.epoch
  shown : ∀ bucket ≤ scheme.buckets,
    tx.shows disk (scheme.slotsAt bucket) (base + bucket) = table bucket
  changes : ∀ page, tx.changes.lookup page = start.changes.lookup page ∨
    ∃ keys, tx.changes.lookup page = some keys ∧ tx.cache.lookup page = some keys
  outside : ∀ page, (∀ bucket ≤ scheme.buckets, page ≠ base + bucket) →
    tx.changes.lookup page = start.changes.lookup page ∧
      tx.cache.lookup page = start.cache.lookup page

section Steps

variable {disk : Disk (Block E)} {hash : Hash} {scheme : Scheme String} {base bucket : Nat}
  {start tx : Txn E} {table : Buckets String}

omit [SuperFields E] in
theorem Evicting.read (evicting : Evicting disk scheme base start tx table)
    (inside : bucket ≤ scheme.buckets) {slots : Nat} (size : scheme.slotsAt bucket = slots) :
    ∃ tx', tx.readPage (FixedPage.readLogicalPage disk) (base + bucket) slots =
        .ok (table bucket, tx') ∧ Evicting disk scheme base start tx' table := by
  have shown := evicting.shown bucket inside
  rw [size] at shown
  cases changed : tx.changes.lookup (base + bucket) with
  | some keys =>
      refine ⟨tx, ?_, evicting⟩
      rw [Txn.shows, changed, Option.getD_some] at shown
      simp [Txn.readPage, changed, shown]
  | none =>
      cases cached : tx.cache.lookup (base + bucket) with
      | some keys =>
          refine ⟨tx, ?_, evicting⟩
          rw [Txn.shows, changed, cached, Option.getD_none, Option.getD_some] at shown
          simp [Txn.readPage, changed, cached, shown]
      | none =>
          have here := shown
          rw [Txn.shows, changed, cached, Option.getD_none, Option.getD_none] at here
          refine ⟨{ tx with cache := tx.cache.insert (base + bucket) (table bucket) }, ?_,
            evicting.info, evicting.epoch, ?_, ?_, ?_⟩
          · simp only [Txn.readPage, changed, cached, FixedPage.readLogicalPage_eq, here]
            rfl
          · intro other bound
            by_cases same : other = bucket
            · rw [same, Txn.shows, changed, Option.getD_none, AList.lookup_insert]
              rfl
            · have apart : base + other ≠ base + bucket := by omega
              rw [← evicting.shown other bound, Txn.shows, Txn.shows, AList.lookup_insert_ne apart]
          · intro page
            rcases evicting.changes page with kept | ⟨keys, written, held⟩
            · exact Or.inl kept
            · have apart : page ≠ base + bucket := by
                intro same
                rw [same, changed] at written
                cases written
              exact Or.inr ⟨keys, written, by rw [AList.lookup_insert_ne apart, held]⟩
          · intro page away
            rw [AList.lookup_insert_ne (away bucket inside)]
            exact evicting.outside page away

omit [SuperFields E] in
theorem Evicting.write (evicting : Evicting disk scheme base start tx table)
    (inside : bucket ≤ scheme.buckets) (slot : Nat) (entry : Option String) :
    Evicting disk scheme base start
      (tx.writePage (base + bucket) ((table bucket).set slot entry))
      (put table bucket slot entry) where
  info := evicting.info
  epoch := evicting.epoch
  shown := by
    intro other bound
    by_cases same : other = bucket
    · rw [same, put_self, Txn.shows, Txn.writePage, AList.lookup_insert, Option.getD_some]
    · have apart : base + other ≠ base + bucket := by omega
      rw [put_other table same, ← evicting.shown other bound, Txn.shows, Txn.shows, Txn.writePage,
        AList.lookup_insert_ne apart, AList.lookup_insert_ne apart]
  changes := by
    intro page
    by_cases here : page = base + bucket
    · rw [here]
      exact Or.inr ⟨_, AList.lookup_insert _, AList.lookup_insert _⟩
    · rw [Txn.writePage, AList.lookup_insert_ne here, AList.lookup_insert_ne here]
      exact evicting.changes page
  outside := by
    intro page away
    rw [Txn.writePage, AList.lookup_insert_ne (away bucket inside),
      AList.lookup_insert_ne (away bucket inside)]
    exact evicting.outside page away

omit [SuperFields E] in
theorem Evicting.full (evicting : Evicting disk scheme base start tx table)
    (inside : bucket ≤ scheme.buckets) {slots : Nat} (size : scheme.slotsAt bucket = slots)
    {key : String} {placed : Bool} {work : Nat} {tx' : Txn E}
    (ran : fillPage (FixedPage.readLogicalPage disk) tx (base + bucket) slots key =
      .ok (placed, work, tx')) :
    placed = true ∨ Evicting disk scheme base start tx' table := by
  obtain ⟨tx₁, read, kept⟩ := evicting.read inside size
  rw [fillPage, Program.ok_bind read] at ran
  cases empty : firstEmpty (table bucket) with
  | some slot =>
      simp only [empty] at ran
      cases ran
      exact Or.inl rfl
  | none =>
      simp only [empty] at ran
      cases ran
      exact Or.inr kept

end Steps

omit [SuperFields E] in
theorem Evicting.kick {disk : Disk (Block E)} {hash : Hash} {start : Txn E}
    {generation base capacity : Nat} (sized : Sized start.info.config capacity)
    (named : descriptor start.info generation = .ok (base, capacity)) (left kick : Nat)
    {tx tx' : Txn E} {table : Buckets String} {current : String} {target work work' : Nat}
    {homeless : Option String}
    (evicting : Evicting disk (scheme hash start.info.config capacity) base start tx table)
    (inside : target < capacity / start.info.config.bucketSize)
    (ran : kickTx hash (FixedPage.readLogicalPage disk) generation capacity left kick tx current
      target work = .ok (homeless, work', tx')) :
    (walk (scheme hash start.info.config capacity) left kick table current target).2 = homeless ∧
      Evicting disk (scheme hash start.info.config capacity) base start tx'
        (walk (scheme hash start.info.config capacity) left kick table current target).1 := by
  induction left generalizing kick tx table current target work with
  | zero =>
      cases ran
      exact ⟨rfl, evicting⟩
  | succ left ih =>
      have size : (scheme hash start.info.config capacity).slotsAt target =
          tx.info.config.bucketSize := by
        rw [evicting.info, Scheme.slotsAt, if_neg]
        · rfl
        · exact inside.ne
      have page : bucketPageId tx.info generation capacity target = .ok (base + target) := by
        rw [bucketPageId, evicting.info, Program.ok_bind named]
        exact if_neg (not_not.mpr rfl)
      obtain ⟨tx₁, read, kept⟩ := evicting.read inside.le size
      have wrote := kept.write inside.le
        (victimSlot hash current kick tx₁.info.config.bucketSize) (some current)
      rw [kickTx, Program.ok_bind page, Program.ok_bind read] at ran
      have slot : (scheme hash start.info.config capacity).victim current kick =
          victimSlot hash current kick tx₁.info.config.bucketSize := by
        rw [kept.info]
        rfl
      rw [walk, slot]
      cases evicted : (table target)[victimSlot hash current kick
          tx₁.info.config.bucketSize]?.join with
      | none =>
          simp only [evicted] at ran
          cases ran
          exact ⟨rfl, wrote⟩
      | some victim =>
          simp only [evicted] at ran
          have valid := scheme_valid hash sized
          have first : (bucketPair hash (tx₁.writePage (base + target) ((table target).set
              (victimSlot hash current kick tx₁.info.config.bucketSize)
              (some current))).info.config victim capacity).1 =
              (scheme hash start.info.config capacity).first victim := by
            rw [wrote.info]
            rfl
          have second : (bucketPair hash (tx₁.writePage (base + target) ((table target).set
              (victimSlot hash current kick tx₁.info.config.bucketSize)
              (some current))).info.config victim capacity).2 =
              (scheme hash start.info.config capacity).second victim := by
            rw [wrote.info]
            rfl
          rw [first, second] at ran
          by_cases atFirst : (scheme hash start.info.config capacity).first victim = target
          · rw [if_pos atFirst] at ran
            simp only [Scheme.other, if_pos atFirst]
            exact ih (kick + 1) wrote (valid.second_lt victim) ran
          · rw [if_neg atFirst] at ran
            simp only [Scheme.other, if_neg atFirst]
            by_cases atSecond : (scheme hash start.info.config capacity).second victim = target
            · rw [if_pos atSecond] at ran
              exact ih (kick + 1) wrote (valid.first_lt victim) ran
            · rw [if_neg atSecond] at ran
              cases ran

/-- The buckets of the generation after the eviction chain of a key, from what the pages show to
the transaction before the chain starts. -/
def evictedTable (disk : Disk (Block E)) (hash : Hash) (capacity base : Nat) (tx : Txn E)
    (key : String) : Buckets String :=
  (walk (scheme hash tx.info.config capacity) tx.info.config.maxKicks 0
    (tx.tableShown disk hash capacity base) key
    ((scheme hash tx.info.config capacity).start key)).1

omit [SuperFields E] in
theorem Evicting.begin (disk : Disk (Block E)) (hash : Hash) (capacity base : Nat) (tx : Txn E) :
    Evicting disk (scheme hash tx.info.config capacity) base tx tx
      (tx.tableShown disk hash capacity base) where
  info := rfl
  epoch := rfl
  shown _ _ := rfl
  changes _ := Or.inl rfl
  outside _ _ := ⟨rfl, rfl⟩

omit [SuperFields E] in
/-- A refused placement has run the whole eviction chain, and gives back the changes only. -/
theorem placePrimaryTx_refused {disk : Disk (Block E)} {hash : Hash} {tx tx' : Txn E}
    {generation base capacity work : Nat} {key : String} (sized : Sized tx.info.config capacity)
    (named : descriptor tx.info generation = .ok (base, capacity))
    (refused : placePrimaryTx hash (FixedPage.readLogicalPage disk) tx generation capacity key =
      .ok (false, work, tx')) :
    ∃ evicted, tx' = { evicted with changes := tx.changes } ∧
      Evicting disk (scheme hash tx.info.config capacity) base tx evicted
        (evictedTable disk hash capacity base tx key) := by
  have valid := scheme_valid hash sized
  have page : ∀ {other : Txn E} {bucket : Nat}, other.info = tx.info →
      bucketPageId other.info generation capacity bucket = .ok (base + bucket) := by
    intro other bucket same
    rw [bucketPageId, same, Program.ok_bind named]
    exact if_neg (not_not.mpr rfl)
  have size : ∀ {other : Txn E} {bucket : Nat}, other.info = tx.info →
      bucket < capacity / tx.info.config.bucketSize →
      (scheme hash tx.info.config capacity).slotsAt bucket = other.info.config.bucketSize := by
    intro other bucket same inside
    rw [same, Scheme.slotsAt, if_neg]
    · rfl
    · exact inside.ne
  simp only [placePrimaryTx] at refused
  rw [Program.ok_bind (page rfl)] at refused
  obtain ⟨⟨placed, firstWork, tx₁⟩, first, refused⟩ := Program.of_bind_ok refused
  cases placed with
  | true => cases refused
  | false =>
      rcases (Evicting.begin disk hash capacity base tx).full (valid.first_lt key).le
        (size rfl (valid.first_lt key)) first with taken | full₁
      · cases taken
      simp only [Bool.false_eq_true, if_false] at refused
      rw [Program.ok_bind (page full₁.info)] at refused
      obtain ⟨⟨placed, secondWork, tx₂⟩, second, refused⟩ := Program.of_bind_ok refused
      cases placed with
      | true => cases refused
      | false =>
          rcases full₁.full (valid.second_lt key).le (size full₁.info (valid.second_lt key))
            second with taken | full₂
          · cases taken
          simp only [Bool.false_eq_true, if_false] at refused
          obtain ⟨⟨homeless, work₃, tx₃⟩, kicked, refused⟩ := Program.of_bind_ok refused
          have target : (if hash key .choiceKey &&& 1 = 0
              then (bucketPair hash tx.info.config key capacity).1
              else (bucketPair hash tx.info.config key capacity).2) =
              (scheme hash tx.info.config capacity).start key := by
            simp only [Scheme.start, scheme, decide_eq_true_eq]
          rw [target, full₂.info] at kicked
          obtain ⟨leftOver, walked⟩ := full₂.kick sized named tx.info.config.maxKicks 0
            (start_lt valid key) kicked
          cases homeless with
          | none => cases refused
          | some current =>
              have stashPage : stashPageId tx₃.info generation capacity =
                  .ok (base + capacity / tx.info.config.bucketSize) := by
                rw [stashPageId, walked.info, Program.ok_bind named]
                exact if_neg (not_not.mpr rfl)
              have stashSize : (scheme hash tx.info.config capacity).slotsAt
                  (capacity / tx.info.config.bucketSize) = tx₃.info.config.stashCapacity := by
                rw [walked.info, Scheme.slotsAt]
                exact if_pos rfl
              simp only at refused
              rw [Program.ok_bind stashPage] at refused
              obtain ⟨⟨placed, stashWork, tx₄⟩, stashed, refused⟩ := Program.of_bind_ok refused
              cases placed with
              | true => cases refused
              | false =>
                  rcases walked.full le_rfl stashSize stashed with taken | kept
                  · cases taken
                  cases refused
                  exact ⟨tx₄, rfl, kept⟩

omit [SuperFields E] in
/-- A page that was clean when the chain started still reads as the chain has left it. -/
theorem Evicting.restored_clean {disk : Disk (Block E)} {scheme : Scheme String} {base : Nat}
    {start tx : Txn E} {table : Buckets String}
    (evicting : Evicting disk scheme base start tx table) {bucket : Nat}
    (inside : bucket ≤ scheme.buckets) (clean : start.changes.lookup (base + bucket) = none) :
    ({ tx with changes := start.changes } : Txn E).shows disk (scheme.slotsAt bucket)
      (base + bucket) = table bucket := by
  have shown := evicting.shown bucket inside
  rw [Txn.shows] at shown ⊢
  rw [clean, Option.getD_none]
  rcases evicting.changes (base + bucket) with same | ⟨keys, written, held⟩
  · rwa [same, clean, Option.getD_none] at shown
  · rwa [written, Option.getD_some, ← Option.getD_some (a := keys), ← held] at shown

omit [SuperFields E] in
theorem Evicting.restored_dirty {disk : Disk (Block E)} {start tx : Txn E} {slots page : Nat}
    {keys : Slots} (dirty : start.changes.lookup page = some keys) :
    ({ tx with changes := start.changes } : Txn E).shows disk slots page =
      start.shows disk slots page := by
  rw [Txn.shows, Txn.shows, dirty]
  rfl

/-- The transactions read the same from every page, each page asked for the slots it has. -/
def SameView (disk : Disk (Block E)) (scheme : Scheme String) (base : Nat) (before after : Txn E) :
    Prop :=
  ∀ page slots, (∀ bucket ≤ scheme.buckets, page = base + bucket → slots = scheme.slotsAt bucket) →
    after.reads disk page slots = before.reads disk page slots

omit [SuperFields E] in
/-- A refused placement goes unseen exactly when the eviction chain changes no page that was clean
before. -/
theorem refused_unseen_iff (disk : Disk (Block E)) (hash : Hash) (tx tx' : Txn E)
    (generation base capacity work : Nat) (key : String) (sized : Sized tx.info.config capacity)
    (named : descriptor tx.info generation = .ok (base, capacity))
    (refused : placePrimaryTx hash (FixedPage.readLogicalPage disk) tx generation capacity key =
      .ok (false, work, tx')) :
    SameView disk (scheme hash tx.info.config capacity) base tx tx' ↔
      ∀ bucket < capacity / tx.info.config.bucketSize, tx.changes.lookup (base + bucket) = none →
        evictedTable disk hash capacity base tx key bucket =
          tx.tableShown disk hash capacity base bucket := by
  obtain ⟨evicted, rfl, evicting⟩ := placePrimaryTx_refused sized named refused
  constructor
  · intro same bucket inside clean
    have within : bucket ≤ (scheme hash tx.info.config capacity).buckets := inside.le
    have sized : ∀ other ≤ (scheme hash tx.info.config capacity).buckets,
        base + bucket = base + other → (scheme hash tx.info.config capacity).slotsAt bucket =
          (scheme hash tx.info.config capacity).slotsAt other := by
      intro other _ equal
      rw [Nat.add_left_cancel equal]
    have read := same (base + bucket) _ sized
    rw [Txn.reads_eq, Txn.reads_eq, Except.ok.injEq, evicting.restored_clean within clean] at read
    exact read
  · intro kept page slots expected
    rw [Txn.reads_eq, Txn.reads_eq, Except.ok.injEq]
    cases changed : tx.changes.lookup page with
    | some keys => exact Evicting.restored_dirty changed
    | none =>
        by_cases away : ∀ bucket ≤ (scheme hash tx.info.config capacity).buckets,
            page ≠ base + bucket
        · rw [Txn.shows, Txn.shows, (evicting.outside page away).2, evicting.epoch]
        · push Not at away
          obtain ⟨bucket, within, rfl⟩ := away
          rw [expected bucket within rfl, evicting.restored_clean within changed]
          rcases Nat.lt_or_eq_of_le within with inside | atStash
          · exact kept bucket inside changed
          · have valid := scheme_valid hash sized
            rw [atStash]
            exact walk_stash valid _ _ _ _ (start_lt valid key)

/-! The hash of these four keys puts them all into the same two buckets. -/

def crampedConfig : Config := ⟨3 / 4, "0.75", 1, 1, 1, 1, true⟩

def crampedDisk : Disk (Block Unit) :=
  FixedPage.afterCalls (fun _ _ => 0)
    (FixedPage.createdDisk (FixedPage.initialMeta 8 crampedConfig ())) ["a", "b", "c"]

def crampedTxn : Txn Unit := .start 4 { FixedPage.initialMeta 8 crampedConfig () with
  currentRows := 3, liveSize := 3 }

def refusedTxn : Txn Unit :=
  ((placePrimaryTx (fun _ _ => 0) (FixedPage.readLogicalPage crampedDisk) crampedTxn 0 8 "e").map
    fun result => result.2.2).toOption.getD crampedTxn

theorem crampedTxn_refused :
    placePrimaryTx (fun _ _ => 0) (FixedPage.readLogicalPage crampedDisk) crampedTxn 0 8 "e" =
      .ok (false, 5, refusedTxn) := by
  have answer : ((placePrimaryTx (fun _ _ => 0) (FixedPage.readLogicalPage crampedDisk) crampedTxn
      0 8 "e").map fun result => (result.1, result.2.1)).toOption = some (false, 5) := by
    decide +kernel
  unfold refusedTxn
  generalize placePrimaryTx (fun _ _ => 0) (FixedPage.readLogicalPage crampedDisk) crampedTxn
    0 8 "e" = result at answer ⊢
  cases result with
  | error error => cases answer
  | ok value =>
      obtain ⟨placed, work, tx'⟩ := value
      cases answer
      rfl

theorem crampedConfig_sized : Sized crampedConfig 8 := ⟨by decide, 2, rfl⟩

/-- Page 0 holds "c" before the refused placement of "e" and shows "e" after it. -/
theorem refused_seen : ¬ ∀ (disk : Disk (Block Unit)) (hash : Hash) (tx tx' : Txn Unit)
    (generation base capacity work : Nat) (key : String), Sized tx.info.config capacity →
    descriptor tx.info generation = .ok (base, capacity) →
    placePrimaryTx hash (FixedPage.readLogicalPage disk) tx generation capacity key =
      .ok (false, work, tx') →
    SameView disk (scheme hash tx.info.config capacity) base tx tx' := by
  intro unseen
  have same := unseen crampedDisk (fun _ _ => 0) crampedTxn refusedTxn 0 0 8 5 "e"
    crampedConfig_sized rfl crampedTxn_refused 0 1
  have read := same (by decide)
  exact absurd read (by decide +kernel)

theorem refused_unseen_iff_sample :
    (readSuper crampedDisk).toOption.map (fun super => (super.1, super.2.1)) =
      some (crampedTxn.epoch, crampedTxn.info) ∧
    ¬ SameView crampedDisk (scheme (fun _ _ => 0) crampedConfig 8) 0 crampedTxn refusedTxn ∧
    evictedTable crampedDisk (fun _ _ => 0) 8 0 crampedTxn "e" 0 = [some "e"] := by
  have shown : evictedTable crampedDisk (fun _ _ => 0) 8 0 crampedTxn "e" 0 = [some "e"] := by
    decide +kernel
  refine ⟨by decide +kernel, fun unseen => ?_, shown⟩
  have kept := (refused_unseen_iff crampedDisk (fun _ _ => 0) crampedTxn refusedTxn 0 0 8 5 "e"
    crampedConfig_sized rfl crampedTxn_refused).mp unseen 0 (by decide) rfl
  rw [shown] at kept
  exact absurd kept (by decide +kernel)

end DurableContext
