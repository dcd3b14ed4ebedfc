import DurableContext.Storage.Logical

/-! Transactions over pages do to the logical state what `Logical` says.

`Txn.view` is what a transaction would read from each page; `Txn.Coherent` is the invariant that
its cache, its changes and the file behind them agree. -/

namespace DurableContext

open BucketTable

variable {E : Type}

/-- One generation's table, as pages from `base` on show it. -/
def tableAt (view : Nat → Slots) (base buckets : Nat) : Buckets String := fun bucket =>
  if bucket ≤ buckets then view (base + bucket) else []

namespace Txn

def view (stored : Nat → Slots) (tx : Txn E) (page : Nat) : Slots :=
  (tx.changes.lookup page).getD (stored page)

/-- Live pages read as `stored` says, each with the slots of its role, and everything the
transaction remembers of them is in line with that. -/
structure Coherent (read : Reader) (role : Nat → Nat) (live : Nat → Prop) (stored : Nat → Slots)
    (tx : Txn E) : Prop where
  readable : ∀ page, live page → read page tx.epoch (role page) = .ok (stored page)
  lengths : ∀ page, live page → (stored page).length = role page
  cached : ∀ page keys, tx.changes.lookup page = none → tx.cache.lookup page = some keys →
    keys = stored page
  changed : ∀ page keys, tx.changes.lookup page = some keys →
    live page ∧ keys.length = role page

structure Same (tx tx' : Txn E) : Prop where
  epoch : tx'.epoch = tx.epoch
  info : tx'.info = tx.info
  changes : tx'.changes = tx.changes

variable {read : Reader} {role : Nat → Nat} {live : Nat → Prop} {stored : Nat → Slots} {tx tx' : Txn E}

theorem Same.refl (tx : Txn E) : Same tx tx := ⟨rfl, rfl, rfl⟩

theorem Same.trans {tx'' : Txn E} (first : Same tx tx') (second : Same tx' tx'') : Same tx tx'' :=
  ⟨second.epoch.trans first.epoch, second.info.trans first.info,
    second.changes.trans first.changes⟩

theorem Same.view (same : Same tx tx') : tx'.view stored = tx.view stored := by
  funext page
  simp only [Txn.view, same.changes]

theorem start_coherent {epoch : Nat} {info : Meta E}
    (readable : ∀ page, live page → read page epoch (role page) = .ok (stored page))
    (lengths : ∀ page, live page → (stored page).length = role page) :
    Coherent read role live stored (start epoch info) where
  readable := readable
  lengths := lengths
  cached := by
    intro page keys _ held
    simp [start] at held
  changed := by
    intro page keys held
    simp [start] at held

theorem start_view (epoch : Nat) (info : Meta E) : (start epoch info).view stored = stored := by
  funext page
  simp [view, start]

theorem Coherent.view_length (coherent : Coherent read role live stored tx) {page : Nat}
    (bound : live page) : (tx.view stored page).length = role page := by
  unfold view
  cases held : tx.changes.lookup page with
  | none => exact coherent.lengths page bound
  | some keys => exact (coherent.changed page keys held).2

theorem Coherent.withInfo (coherent : Coherent read role live stored tx) (info : Meta E) :
    Coherent read role live stored { tx with info } :=
  ⟨coherent.readable, coherent.lengths, coherent.cached, coherent.changed⟩

theorem readPage_ok (coherent : Coherent read role live stored tx) {page : Nat}
    (bound : live page) : ∃ tx', tx.readPage read page (role page) = .ok (tx.view stored page, tx') ∧
      Same tx tx' ∧ Coherent read role live stored tx' := by
  cases changed : tx.changes.lookup page with
  | some keys =>
      exact ⟨tx, by simp [readPage, changed, view], .refl tx, coherent⟩
  | none =>
      cases held : tx.cache.lookup page with
      | some keys =>
          have same := coherent.cached page keys changed held
          exact ⟨tx, by simp [readPage, changed, held, view, same], .refl tx, coherent⟩
      | none =>
          refine ⟨{ tx with cache := tx.cache.insert page (stored page) }, ?_, ⟨rfl, rfl, rfl⟩,
            coherent.readable, coherent.lengths, ?_, coherent.changed⟩
          · simp [readPage, changed, held, view, coherent.readable page bound, bind, Except.bind]
          · intro other keys unchanged found
            by_cases same : other = page
            · subst same
              simpa using found.symm
            · exact coherent.cached other keys unchanged (by simpa [same] using found)

theorem writePage_view (page : Nat) (keys : Slots) :
    (tx.writePage page keys).view stored = Function.update (tx.view stored) page keys := by
  funext other
  by_cases same : other = page
  · subst same
    simp [view, writePage]
  · simp [view, writePage, same]

theorem Coherent.writePage (coherent : Coherent read role live stored tx) {page : Nat}
    (bound : live page) {keys : Slots} (shape : keys.length = role page) :
    Coherent read role live stored (tx.writePage page keys) where
  readable := coherent.readable
  lengths := coherent.lengths
  cached := by
    intro other held unchanged found
    by_cases same : other = page
    · subst same
      simp [Txn.writePage] at unchanged
    · exact coherent.cached other held (by simpa [Txn.writePage, same] using unchanged)
        (by simpa [Txn.writePage, same] using found)
  changed := by
    intro other held found
    by_cases same : other = page
    · subst same
      have equal : keys = held := by simpa [Txn.writePage] using found
      exact ⟨bound, equal ▸ shape⟩
    · exact coherent.changed other held (by simpa [Txn.writePage, same] using found)

end Txn

/-- The pages of one generation: buckets from `base` on, then the stash. -/
structure Region (config : Config) (role : Nat → Nat) (live : Nat → Prop)
    (base capacity : Nat) : Prop where
  bucket : ∀ index < capacity / config.bucketSize, role (base + index) = config.bucketSize
  stash : role (base + capacity / config.bucketSize) = config.stashCapacity
  inside : ∀ index ≤ capacity / config.bucketSize, live (base + index)

theorem Region.slotsAt {hash : Hash} {config : Config} {role : Nat → Nat}
    {live : Nat → Prop} {base capacity : Nat} (region : Region config role live base capacity) {bucket : Nat}
    (bound : bucket ≤ capacity / config.bucketSize) :
    role (base + bucket) = (scheme hash config capacity).slotsAt bucket := by
  rcases Nat.lt_or_eq_of_le bound with below | atStash
  · simpa [Scheme.slotsAt, scheme, below.ne] using region.bucket bucket below
  · subst atStash
    simpa [Scheme.slotsAt, scheme] using region.stash

theorem tableAt_update (view : Nat → Slots) (base : Nat) {buckets bucket : Nat}
    (bound : bucket ≤ buckets) (keys : Slots) :
    tableAt (Function.update view (base + bucket) keys) base buckets =
      Function.update (tableAt view base buckets) bucket keys := by
  funext other
  by_cases same : other = bucket
  · subst same
    simp [tableAt, bound]
  · simp [tableAt, same]

theorem tableAt_congr {view view' : Nat → Slots} {base buckets : Nat}
    (same : ∀ page, base ≤ page → page ≤ base + buckets → view' page = view page) :
    tableAt view' base buckets = tableAt view base buckets := by
  funext bucket
  unfold tableAt
  split
  · exact same _ (by omega) (by omega)
  · rfl

theorem tableAt_apply (view : Nat → Slots) (base : Nat) {buckets bucket : Nat}
    (bound : bucket ≤ buckets) : tableAt view base buckets bucket = view (base + bucket) :=
  if_pos bound

/-- A transaction went on within the pages of one generation. -/
structure Within (read : Reader) (role : Nat → Nat) (live : Nat → Prop) (stored : Nat → Slots)
    (base buckets : Nat) (tx tx' : Txn E) : Prop where
  coherent : Txn.Coherent read role live stored tx'
  epoch : tx'.epoch = tx.epoch
  info : tx'.info = tx.info
  frame : ∀ page, page < base ∨ base + buckets < page →
    tx'.view stored page = tx.view stored page

namespace Within

variable {read : Reader} {role : Nat → Nat} {live : Nat → Prop} {stored : Nat → Slots}
  {base buckets : Nat} {tx tx' tx'' : Txn E}

theorem ofSame (same : Txn.Same tx tx') (coherent : Txn.Coherent read role live stored tx') :
    Within read role live stored base buckets tx tx' :=
  ⟨coherent, same.epoch, same.info, fun page _ => by rw [same.view]⟩

theorem trans (first : Within read role live stored base buckets tx tx')
    (second : Within read role live stored base buckets tx' tx'') :
    Within read role live stored base buckets tx tx'' :=
  ⟨second.coherent, second.epoch.trans first.epoch, second.info.trans first.info,
    fun page outside => (second.frame page outside).trans (first.frame page outside)⟩

end Within

section Generation

variable {hash : Hash} {read : Reader} {role : Nat → Nat} {live : Nat → Prop} {stored : Nat → Slots}
  {config : Config} {base capacity generation : Nat} {tx : Txn E} {key : String}

/-- The table of the generation at `base` that the transaction shows. -/
def Txn.tableOf (stored : Nat → Slots) (tx : Txn E) (config : Config) (base capacity : Nat) :
    Buckets String :=
  tableAt (tx.view stored) base (capacity / config.bucketSize)

theorem Txn.Same.tableOf {tx' : Txn E} (same : Same tx tx') :
    tx'.tableOf stored config base capacity = tx.tableOf stored config base capacity := by
  simp only [Txn.tableOf, same.view]

/-- The generation the transaction's operations are called with. -/
structure Named (config : Config) (generation base capacity : Nat) (tx : Txn E) : Prop where
  config : tx.info.config = config
  descriptor : descriptor tx.info generation = .ok (base, capacity)

theorem Named.transfer {tx' : Txn E} (named : Named config generation base capacity tx)
    (same : tx'.info = tx.info) : Named config generation base capacity tx' :=
  ⟨by rw [same, named.config], by rw [same, named.descriptor]⟩

theorem Named.bucketPageId (named : Named config generation base capacity tx) (bucket : Nat) :
    bucketPageId tx.info generation capacity bucket = .ok (base + bucket) := by
  simp [DurableContext.bucketPageId, named.descriptor, bind, Except.bind]

theorem Named.stashPageId (named : Named config generation base capacity tx) :
    stashPageId tx.info generation capacity = .ok (base + capacity / config.bucketSize) := by
  simp [DurableContext.stashPageId, named.descriptor, named.config, bind, Except.bind]

theorem readBucket_ok (coherent : Txn.Coherent read role live stored tx)
    (region : Region config role live base capacity) {bucket slots : Nat}
    (bound : bucket ≤ capacity / config.bucketSize) (size : role (base + bucket) = slots) :
    ∃ tx', tx.readPage read (base + bucket) slots =
        .ok (tx.tableOf stored config base capacity bucket, tx') ∧
      Txn.Same tx tx' ∧ Txn.Coherent read role live stored tx' := by
  have inside : live (base + bucket) := region.inside bucket bound
  obtain ⟨tx', ran, same, kept⟩ := Txn.readPage_ok coherent inside
  refine ⟨tx', ?_, same, kept⟩
  rw [← size, ran, Txn.tableOf, tableAt_apply _ _ bound]

theorem writeBucket_within (coherent : Txn.Coherent read role live stored tx)
    (region : Region config role live base capacity) (bucket slot : Nat)
    (slotEntry : Option String) (bound : bucket ≤ capacity / config.bucketSize) :
    let tx' := tx.writePage (base + bucket)
      ((tx.tableOf stored config base capacity bucket).set slot slotEntry)
    Within read role live stored base (capacity / config.bucketSize) tx tx' ∧
      tx'.tableOf stored config base capacity =
        put (tx.tableOf stored config base capacity) bucket slot slotEntry := by
  have inside : live (base + bucket) := region.inside bucket bound
  have shape : ((tx.tableOf stored config base capacity bucket).set slot slotEntry).length =
      role (base + bucket) := by
    rw [List.length_set, Txn.tableOf, tableAt_apply _ _ bound, coherent.view_length inside]
  refine ⟨⟨coherent.writePage inside shape, rfl, rfl, ?_⟩, ?_⟩
  · intro page outside
    rw [Txn.writePage_view, Function.update_of_ne (by omega)]
  · rw [Txn.tableOf, Txn.writePage_view]
    exact tableAt_update _ _ bound _

theorem lookupGenerationTx_ok (key : String) (coherent : Txn.Coherent read role live stored tx)
    (sized : Sized config capacity) (region : Region config role live base capacity)
    (named : Named config generation base capacity tx) :
    ∃ pages tx', lookupGenerationTx hash read tx generation capacity key =
        .ok (decide (holds (scheme hash config capacity)
          (tx.tableOf stored config base capacity) key), pages, tx') ∧
      Txn.Same tx tx' ∧ Txn.Coherent read role live stored tx' := by
  have valid := scheme_valid hash sized
  have firstLt := valid.first_lt key
  have secondLt := valid.second_lt key
  simp only [scheme] at firstLt secondLt
  obtain ⟨tx₁, read₁, same₁, coherent₁⟩ :=
    readBucket_ok coherent region firstLt.le (region.bucket _ firstLt)
  obtain ⟨tx₂, read₂, same₂, coherent₂⟩ :=
    readBucket_ok coherent₁ region secondLt.le (region.bucket _ secondLt)
  obtain ⟨tx₃, read₃, same₃, coherent₃⟩ := readBucket_ok coherent₂ region le_rfl region.stash
  have named₁ := named.transfer same₁.info
  have named₂ := named₁.transfer same₂.info
  rw [same₂.tableOf, same₁.tableOf] at read₃
  rw [same₁.tableOf] at read₂
  simp only [lookupGenerationTx, named.config, named₁.config, named.bucketPageId,
    named₁.bucketPageId, read₁, read₂, bind, Except.bind]
  by_cases inFirst : some key ∈ tx.tableOf stored config base capacity
      (bucketPair hash config key capacity).1
  · refine ⟨[base + (bucketPair hash config key capacity).1], tx₁, ?_, same₁, coherent₁⟩
    simp [inFirst, holds, scheme]
  · by_cases inSecond : some key ∈ tx.tableOf stored config base capacity
        (bucketPair hash config key capacity).2
    · refine ⟨[base + (bucketPair hash config key capacity).1,
        base + (bucketPair hash config key capacity).2], tx₂, ?_, same₁.trans same₂, coherent₂⟩
      simp [inFirst, inSecond, holds, scheme]
    · refine ⟨[base + (bucketPair hash config key capacity).1,
        base + (bucketPair hash config key capacity).2, base + capacity / config.bucketSize], tx₃,
        ?_, (same₁.trans same₂).trans same₃, coherent₃⟩
      simp [inFirst, inSecond, holds, scheme, named₂.config, named₂.stashPageId, read₃]

/-- `fillPage` is the first-empty-slot placement of one bucket. -/
theorem fillPage_ok (key : String) (coherent : Txn.Coherent read role live stored tx)
    (region : Region config role live base capacity) {bucket slots : Nat}
    (bound : bucket ≤ capacity / config.bucketSize) (size : role (base + bucket) = slots) :
    ∃ work tx', fillPage read tx (base + bucket) slots key =
        .ok ((firstEmpty (tx.tableOf stored config base capacity bucket)).isSome, work, tx') ∧
      Within read role live stored base (capacity / config.bucketSize) tx tx' ∧
      tx'.tableOf stored config base capacity =
        match firstEmpty (tx.tableOf stored config base capacity bucket) with
        | some slot => put (tx.tableOf stored config base capacity) bucket slot (some key)
        | none => tx.tableOf stored config base capacity := by
  obtain ⟨tx₁, ran, same, kept⟩ := readBucket_ok coherent region bound size
  cases empty : firstEmpty (tx.tableOf stored config base capacity bucket) with
  | none =>
      exact ⟨slots, tx₁, by simp [fillPage, ran, empty, bind, Except.bind],
        Within.ofSame same kept, same.tableOf⟩
  | some slot =>
      obtain ⟨within, changed⟩ := writeBucket_within kept region bucket slot (some key) bound
      rw [same.tableOf] at within changed
      exact ⟨slot + 1, _, by simp [fillPage, ran, empty, bind, Except.bind],
        (Within.ofSame same kept).trans within, changed⟩

/-- The eviction loop is the walk of the table, and never meets a key outside its buckets. -/
theorem kickTx_ok (sized : Sized config capacity)
    (region : Region config role live base capacity) (left kick work : Nat)
    (coherent : Txn.Coherent read role live stored tx)
    (named : Named config generation base capacity tx) (current : String) (target : Nat)
    (wf : BucketTable.Wf (scheme hash config capacity) (tx.tableOf stored config base capacity))
    (fits : target = (scheme hash config capacity).first current ∨
      target = (scheme hash config capacity).second current) :
    let result := walk (scheme hash config capacity) left kick
      (tx.tableOf stored config base capacity) current target
    ∃ work' tx', kickTx hash read generation capacity left kick tx current target work =
        .ok (result.2, work', tx') ∧
      Within read role live stored base (capacity / config.bucketSize) tx tx' ∧
      tx'.tableOf stored config base capacity = result.1 := by
  induction left generalizing tx kick current target work with
  | zero => exact ⟨work, tx, rfl, Within.ofSame (.refl tx) coherent, rfl⟩
  | succ left ih =>
      have valid := scheme_valid hash sized
      have inside : target < capacity / config.bucketSize := by
        rcases fits with rfl | rfl
        · exact valid.first_lt current
        · exact valid.second_lt current
      obtain ⟨tx₁, ran, same, kept⟩ := readBucket_ok coherent region inside.le
        (region.bucket _ inside)
      obtain ⟨within, changed⟩ := writeBucket_within kept region target
        (victimSlot hash current kick config.bucketSize) (some current) inside.le
      rw [same.tableOf] at within changed
      have steps := (Within.ofSame same kept).trans within
      have named₁ := named.transfer same.info
      have bound : victimSlot hash current kick config.bucketSize <
          (tx.tableOf stored config base capacity target).length := by
        rw [wf.shape target inside.le, ← region.slotsAt inside.le, region.bucket _ inside]
        exact Nat.mod_lt _ sized.1
      simp only [kickTx, walk, named.bucketPageId, named.config, named₁.config, ran, bind,
        Except.bind]
      cases evicted : (tx.tableOf stored config base capacity target)[victimSlot hash current kick
          config.bucketSize]?.join with
      | none =>
          have alike : (tx.tableOf stored config base capacity target)[
              (scheme hash config capacity).victim current kick]?.join = none := evicted
          simp only [alike]
          exact ⟨work + 1, _, rfl, steps, changed⟩
      | some victim =>
          have alike : (tx.tableOf stored config base capacity target)[
              (scheme hash config capacity).victim current kick]?.join = some victim := evicted
          have present : some victim ∈ tx.tableOf stored config base capacity target := by
            rw [List.getElem?_eq_getElem bound, Option.join_some] at evicted
            exact evicted ▸ List.getElem_mem bound
          have homed := wf.home target inside victim present
          have next_wf : BucketTable.Wf (scheme hash config capacity)
              (put (tx.tableOf stored config base capacity) target
                (victimSlot hash current kick config.bucketSize) (some current)) :=
            wf.put fun placed equal => by
              cases equal
              rcases fits with atFirst | atSecond
              · exact Or.inl atFirst
              · exact Or.inr (Or.inl atSecond)
          rw [← changed] at next_wf
          have named₂ := named₁.transfer within.info
          simp only [alike, Scheme.other, named₂.config]
          have first_eq : (scheme hash config capacity).first victim =
              (bucketPair hash config victim capacity).1 := rfl
          have second_eq : (scheme hash config capacity).second victim =
              (bucketPair hash config victim capacity).2 := rfl
          by_cases atFirst : (bucketPair hash config victim capacity).1 = target
          · obtain ⟨work', tx', ran', later, shown⟩ := ih (kick + 1)
              (work + config.bucketSize + 1) within.coherent named₂ victim
              (bucketPair hash config victim capacity).2 next_wf (Or.inr rfl)
            rw [changed] at ran' shown
            simp only [first_eq, second_eq, atFirst, if_true]
            exact ⟨work', tx', ran', steps.trans later, shown⟩
          · have atSecond : (bucketPair hash config victim capacity).2 = target := by
              rcases homed with first | second
              · exact absurd (first_eq ▸ first).symm atFirst
              · exact (second_eq ▸ second).symm
            obtain ⟨work', tx', ran', later, shown⟩ := ih (kick + 1)
              (work + config.bucketSize + 1) within.coherent named₂ victim
              (bucketPair hash config victim capacity).1 next_wf (Or.inl rfl)
            rw [changed] at ran' shown
            simp only [first_eq, atFirst, atSecond, if_true, if_false]
            exact ⟨work', tx', ran', steps.trans later, shown⟩

theorem Within.shows {tx' : Txn E} {table : Buckets String} {asked : Option (Buckets String)}
    (within : Within read role live stored base (capacity / config.bucketSize) tx tx')
    (shown : tx'.tableOf stored config base capacity = table) (found : asked = some table) :
    ∀ other, asked = some other →
      Within read role live stored base (capacity / config.bucketSize) tx tx' ∧
        tx'.tableOf stored config base capacity = other := by
  intro other same
  rw [found, Option.some.injEq] at same
  exact ⟨within, shown.trans same⟩

/-- The key that the evictions leave over goes to the stash. Where it is full the changes are those
of `before` again. -/
theorem stashKey_ok (current : String) (before : Txn E) (work : Nat)
    (region : Region config role live base capacity)
    (coherent : Txn.Coherent read role live stored tx)
    (named : Named config generation base capacity tx) :
    ∃ work' tx', (do
        let stashPage ← stashPageId tx.info generation capacity
        let (placed, stashWork, tx) ← fillPage read tx stashPage tx.info.config.stashCapacity current
        if placed then .ok (true, work + stashWork, tx)
        else .ok (false, work + stashWork, { tx with changes := before.changes })) =
      (.ok ((stash (scheme hash config capacity) (tx.tableOf stored config base capacity)
        current).isSome, work', tx') : Except StoreError _) ∧
      ∀ table, stash (scheme hash config capacity) (tx.tableOf stored config base capacity)
          current = some table →
        Within read role live stored base (capacity / config.bucketSize) tx tx' ∧
          tx'.tableOf stored config base capacity = table := by
  obtain ⟨stashWork, tx₁, fill, within, shown⟩ :=
    fillPage_ok current coherent region le_rfl region.stash
  simp only [named.stashPageId, named.config, fill, bind, Except.bind]
  cases free : firstEmpty (tx.tableOf stored config base capacity
      (capacity / config.bucketSize)) with
  | some slot =>
      simp only [free] at shown
      have stashed : stash (scheme hash config capacity) (tx.tableOf stored config base capacity)
          current = some (put (tx.tableOf stored config base capacity)
            (capacity / config.bucketSize) slot (some current)) := by
        simp [stash, scheme, free]
      exact ⟨work + stashWork, tx₁, by simp [stashed], within.shows shown stashed⟩
  | none =>
      have refused : stash (scheme hash config capacity) (tx.tableOf stored config base capacity)
          current = none := by
        simp [stash, scheme, free]
      refine ⟨work + stashWork, { tx₁ with changes := before.changes }, by simp [refused], ?_⟩
      intro table same
      rw [refused] at same
      cases same

theorem settleKey_ok (key : String) (before : Txn E) (work : Nat) (sized : Sized config capacity)
    (region : Region config role live base capacity)
    (coherent : Txn.Coherent read role live stored tx)
    (named : Named config generation base capacity tx)
    (wf : BucketTable.Wf (scheme hash config capacity) (tx.tableOf stored config base capacity)) :
    ∃ work' tx', (do
        let (homeless, work, tx) ← kickTx hash read generation capacity tx.info.config.maxKicks 0 tx
          key ((scheme hash config capacity).start key) work
        match homeless with
        | none => .ok (true, work, tx)
        | some current =>
            let stashPage ← stashPageId tx.info generation capacity
            let (placed, stashWork, tx) ←
              fillPage read tx stashPage tx.info.config.stashCapacity current
            if placed then .ok (true, work + stashWork, tx)
            else .ok (false, work + stashWork, { tx with changes := before.changes })) =
      (.ok ((settle (scheme hash config capacity) (walk (scheme hash config capacity)
        (scheme hash config capacity).kicks 0 (tx.tableOf stored config base capacity) key
          ((scheme hash config capacity).start key))).isSome, work', tx') : Except StoreError _) ∧
      ∀ table, settle (scheme hash config capacity) (walk (scheme hash config capacity)
        (scheme hash config capacity).kicks 0 (tx.tableOf stored config base capacity) key
          ((scheme hash config capacity).start key)) = some table →
        Within read role live stored base (capacity / config.bucketSize) tx tx' ∧
          tx'.tableOf stored config base capacity = table := by
  have fits : (scheme hash config capacity).start key = (scheme hash config capacity).first key ∨
      (scheme hash config capacity).start key = (scheme hash config capacity).second key := by
    unfold Scheme.start
    split
    · exact Or.inl rfl
    · exact Or.inr rfl
  obtain ⟨work₁, tx₁, kicked, within, shown⟩ :=
    kickTx_ok sized region config.maxKicks 0 work coherent named key _ wf fits
  have kicks_eq : (scheme hash config capacity).kicks = config.maxKicks := rfl
  rw [kicks_eq]
  generalize walk (scheme hash config capacity) config.maxKicks 0
    (tx.tableOf stored config base capacity) key ((scheme hash config capacity).start key) =
      walked at kicked shown ⊢
  obtain ⟨table, homeless⟩ := walked
  simp only [named.config, kicked, bind, Except.bind]
  cases homeless with
  | none => exact ⟨work₁, tx₁, rfl, within.shows shown rfl⟩
  | some current =>
      obtain ⟨work₂, tx₂, ran, after⟩ := @stashKey_ok E hash _ _ _ _ _ _ _ _ _ current before work₁ region
        within.coherent (named.transfer within.info)
      rw [shown] at ran after
      exact ⟨work₂, tx₂, ran, fun table found =>
        ⟨within.trans (after table found).1, (after table found).2⟩⟩

/-- Placing a key is placing it in the table; it fails where the table has no room. -/
theorem placePrimaryTx_ok (key : String) (sized : Sized config capacity)
    (region : Region config role live base capacity)
    (coherent : Txn.Coherent read role live stored tx)
    (named : Named config generation base capacity tx)
    (wf : BucketTable.Wf (scheme hash config capacity) (tx.tableOf stored config base capacity)) :
    ∃ work tx', placePrimaryTx hash read tx generation capacity key =
        .ok ((place (scheme hash config capacity)
          (tx.tableOf stored config base capacity) key).isSome, work, tx') ∧
      ∀ table, place (scheme hash config capacity)
          (tx.tableOf stored config base capacity) key = some table →
        Within read role live stored base (capacity / config.bucketSize) tx tx' ∧
          tx'.tableOf stored config base capacity = table := by
  have valid := scheme_valid hash sized
  have firstLt : (bucketPair hash config key capacity).1 < capacity / config.bucketSize :=
    valid.first_lt key
  have secondLt : (bucketPair hash config key capacity).2 < capacity / config.bucketSize :=
    valid.second_lt key
  obtain ⟨work₁, tx₁, fill₁, within₁, table₁⟩ :=
    fillPage_ok key coherent region firstLt.le (region.bucket _ firstLt)
  have named₁ := named.transfer within₁.info
  simp only [placePrimaryTx, named.config, named.bucketPageId, fill₁, bind, Except.bind]
  cases firstFree : firstEmpty (tx.tableOf stored config base capacity
      (bucketPair hash config key capacity).1) with
  | some slot =>
      simp only [firstFree] at table₁
      have placed : place (scheme hash config capacity) (tx.tableOf stored config base capacity)
          key = some (put (tx.tableOf stored config base capacity)
            (bucketPair hash config key capacity).1 slot (some key)) := by
        simp only [place, scheme, firstFree]
      exact ⟨work₁, tx₁, by simp [placed], within₁.shows table₁ placed⟩
  | none =>
      simp only [firstFree] at table₁
      obtain ⟨work₂, tx₂, fill₂, within₂, table₂⟩ :=
        fillPage_ok key within₁.coherent region secondLt.le (region.bucket _ secondLt)
      have named₂ := named₁.transfer within₂.info
      rw [table₁] at fill₂ table₂
      have within := within₁.trans within₂
      simp only [Option.isSome_none, Bool.false_eq_true, if_false, named₁.config,
        named₁.bucketPageId, fill₂]
      cases secondFree : firstEmpty (tx.tableOf stored config base capacity
          (bucketPair hash config key capacity).2) with
      | some slot =>
          simp only [secondFree] at table₂
          have placed : place (scheme hash config capacity)
              (tx.tableOf stored config base capacity) key =
              some (put (tx.tableOf stored config base capacity)
                (bucketPair hash config key capacity).2 slot (some key)) := by
            simp only [place, scheme, firstFree, secondFree]
          exact ⟨work₁ + work₂, tx₂, by simp [placed], within.shows table₂ placed⟩
      | none =>
          simp only [secondFree] at table₂
          have wf₂ := wf
          rw [← table₂] at wf₂
          obtain ⟨work₃, tx₃, ran, after⟩ := settleKey_ok key tx (work₁ + work₂) sized region
            within₂.coherent named₂ wf₂
          rw [table₂] at ran after
          have start_eq : (scheme hash config capacity).start key =
              if hash key .choiceKey &&& 1 = 0 then (bucketPair hash config key capacity).1
              else (bucketPair hash config key capacity).2 := by
            simp [Scheme.start, scheme]
          rw [place_of_full firstFree secondFree]
          refine ⟨work₃, tx₃, ?_, fun table found =>
            ⟨within.trans (after table found).1, (after table found).2⟩⟩
          simp only [bind, Except.bind, start_eq] at ran
          simp only [Option.isSome_none, Bool.false_eq_true, if_false, start_eq]
          exact ran

theorem takeSlot_ok (region : Region config role live base capacity)
    (coherent : Txn.Coherent read role live stored tx) {bucket slots : Nat} (slot : Nat)
    (bound : bucket ≤ capacity / config.bucketSize) (size : role (base + bucket) = slots) :
    ∃ tx', takeSlot read tx (base + bucket) slots slot =
        .ok ((tx.tableOf stored config base capacity bucket)[slot]?.join, tx') ∧
      Within read role live stored base (capacity / config.bucketSize) tx tx' ∧
      tx'.tableOf stored config base capacity =
        put (tx.tableOf stored config base capacity) bucket slot none := by
  obtain ⟨tx₁, ran, same, kept⟩ := readBucket_ok coherent region bound size
  cases held : (tx.tableOf stored config base capacity bucket)[slot]?.join with
  | none =>
      refine ⟨tx₁, by simp [takeSlot, ran, held, bind, Except.bind], Within.ofSame same kept, ?_⟩
      rw [same.tableOf, put_none_of_empty held]
  | some key =>
      obtain ⟨within, changed⟩ := writeBucket_within kept region bucket slot none bound
      rw [same.tableOf] at within changed
      exact ⟨_, by simp [takeSlot, ran, held, bind, Except.bind],
        (Within.ofSame same kept).trans within, changed⟩

theorem deleteVirtualSlotTx_ok (hash : Hash) (sized : Sized config capacity)
    (region : Region config role live base capacity)
    (coherent : Txn.Coherent read role live stored tx)
    (named : Named config generation base capacity tx)
    {cursor : Nat} (bound : cursor < capacity + config.stashCapacity) :
    ∃ tx', deleteVirtualSlotTx read tx generation capacity cursor =
        .ok (slotAt (scheme hash config capacity) (tx.tableOf stored config base capacity) cursor,
          tx') ∧
      Within read role live stored base (capacity / config.bucketSize) tx tx' ∧
      tx'.tableOf stored config base capacity =
        clear (scheme hash config capacity) (tx.tableOf stored config base capacity) cursor := by
  unfold slotAt clear Scheme.locate
  simp only [scheme, sized.capacity_eq, deleteVirtualSlotTx, named.config]
  by_cases inBuckets : cursor < capacity
  · have bucket : cursor / config.bucketSize < capacity / config.bucketSize :=
      Nat.div_lt_div_of_lt_of_dvd ⟨_, by rw [Nat.mul_comm, sized.capacity_eq]⟩ inBuckets
    obtain ⟨tx', ran, within, changed⟩ := takeSlot_ok region coherent (cursor % config.bucketSize)
      bucket.le (region.bucket _ bucket)
    exact ⟨tx', by simp [inBuckets, named.bucketPageId, ran, bind, Except.bind], within,
      by simpa [inBuckets] using changed⟩
  · have inStash : ¬ config.stashCapacity ≤ cursor - capacity := by omega
    obtain ⟨tx', ran, within, changed⟩ := takeSlot_ok region coherent (cursor - capacity)
      le_rfl region.stash
    exact ⟨tx', by simp [inBuckets, inStash, named.stashPageId, ran, bind, Except.bind], within,
      by simpa [inBuckets] using changed⟩

end Generation

def OldGeneration.table (old : OldGeneration) (config : Config) (view : Nat → Slots) : OldTable :=
  ⟨old.generation, old.capacity, tableAt view old.basePage (old.capacity / config.bucketSize)⟩

/-- What the metadata says of the pages that `view` shows. -/
def Meta.logical (info : Meta E) (view : Nat → Slots) : Logical where
  generation := info.currentGeneration
  capacity := info.currentCapacity
  table := tableAt view info.currentBasePage (info.currentCapacity / info.config.bucketSize)
  rows := info.currentRows
  old := info.old.map fun old => old.table info.config view
  oldRows := info.oldRows
  cursor := info.migrationCursor
  limit := info.migrationLimit
  nextGeneration := info.nextGeneration
  live := info.liveSize

def Txn.logical (stored : Nat → Slots) (tx : Txn E) : Logical := tx.info.logical (tx.view stored)

/-- The generations lie apart from each other, the older one first. -/
structure Placed (role : Nat → Nat) (live : Nat → Prop) (info : Meta E) : Prop where
  current : Region info.config role live info.currentBasePage info.currentCapacity
  old : ∀ old, info.old = some old → Region info.config role live old.basePage old.capacity ∧
    old.basePage + old.capacity / info.config.bucketSize < info.currentBasePage

/-- What a migration step may change in the metadata. -/
def Counted (info info' : Meta E) : Prop :=
  info' = { info with
    migrationCursor := info'.migrationCursor
    oldRows := info'.oldRows
    currentRows := info'.currentRows }

section Migration

variable {hash : Hash} {read : Reader} {role : Nat → Nat} {live : Nat → Prop} {stored : Nat → Slots}
  {config : Config} {tx : Txn E}

theorem Placed.counted {info info' : Meta E} (placed : Placed role live info)
    (counted : Counted info info') : Placed role live info' := by
  rw [counted]
  exact ⟨placed.current, placed.old⟩

theorem named_current (tx : Txn E) (conf : tx.info.config = config) :
    Named config tx.info.currentGeneration tx.info.currentBasePage tx.info.currentCapacity tx :=
  ⟨conf, by simp [descriptor]⟩

theorem named_old (tx : Txn E) (conf : tx.info.config = config) {old : OldGeneration}
    (held : tx.info.old = some old) (succ : tx.info.currentGeneration = old.generation + 1) :
    Named config old.generation old.basePage old.capacity tx := by
  have different : old.generation ≠ tx.info.currentGeneration := by omega
  exact ⟨conf, by simp [descriptor, held, different]⟩

theorem logical_old (conf : tx.info.config = config) {old : OldGeneration}
    (held : tx.info.old = some old) :
    (tx.logical stored).old = some (old.table config (tx.view stored)) := by
  simp [Txn.logical, Meta.logical, held, conf]

theorem drainSlot_ok (conf : tx.info.config = config)
    (coherent : Txn.Coherent read role live stored tx) (placed : Placed role live tx.info)
    (mid : (tx.logical stored).Mid hash config) {old : OldGeneration}
    (held : tx.info.old = some old) (more : tx.info.migrationCursor < tx.info.migrationLimit) :
    ∃ tx', deleteVirtualSlotTx read tx old.generation old.capacity tx.info.migrationCursor =
        .ok (slotAt (scheme hash config old.capacity) (old.table config (tx.view stored)).table
          tx.info.migrationCursor, tx') ∧
      Txn.Coherent read role live stored tx' ∧ tx'.epoch = tx.epoch ∧ tx'.info = tx.info ∧
      old.table config (tx'.view stored) = OldTable.drainSlot hash config
        (old.table config (tx.view stored)) tx.info.migrationCursor ∧
      tx'.tableOf stored config tx.info.currentBasePage tx.info.currentCapacity =
        tx.tableOf stored config tx.info.currentBasePage tx.info.currentCapacity := by
  have older := mid.old _ (logical_old conf held)
  obtain ⟨region, apart⟩ := placed.old old held
  rw [conf] at region apart
  have sized : Sized config old.capacity := older.sized
  have bound : tx.info.migrationCursor < old.capacity + config.stashCapacity := by
    rw [← show tx.info.migrationLimit = old.capacity + config.stashCapacity from older.limit]
    exact more
  obtain ⟨tx', ran, within, changed⟩ := deleteVirtualSlotTx_ok hash sized region
    coherent (named_old tx conf held older.succ) bound
  refine ⟨tx', ran, within.coherent, within.epoch, within.info, ?_, ?_⟩
  · simp only [OldTable.drainSlot, OldGeneration.table]
    exact congrArg (OldTable.mk old.generation old.capacity) changed
  · exact tableAt_congr fun page low _ => within.frame page (Or.inr (by omega))

/-- One slot drained and the cursor moved past it. -/
def Txn.advance (tx : Txn E) (cursor : Nat) : Txn E :=
  { tx with info := { tx.info with migrationCursor := cursor + 1 } }

/-- One key more in the current generation and one less in the old. -/
def Txn.receive (tx : Txn E) : Txn E :=
  { tx with info := { tx.info with
      oldRows := tx.info.oldRows - 1, currentRows := tx.info.currentRows + 1 } }

theorem Txn.receive_logical (tx : Txn E) {state : Logical} {table : Buckets String}
    (shown : tx.logical stored = { state with table }) :
    tx.receive.logical stored = state.receive table := by
  have parts : tx.receive.logical stored = { tx.logical stored with
      oldRows := (tx.logical stored).oldRows - 1, rows := (tx.logical stored).rows + 1 } := rfl
  rw [parts, shown]
  rfl

theorem advance_ok (conf : tx.info.config = config)
    (coherent : Txn.Coherent read role live stored tx) (placed : Placed role live tx.info)
    (mid : (tx.logical stored).Mid hash config) {old : OldGeneration}
    (held : tx.info.old = some old) (more : tx.info.migrationCursor < tx.info.migrationLimit) :
    ∃ tx', deleteVirtualSlotTx read tx old.generation old.capacity tx.info.migrationCursor =
        .ok (slotAt (scheme hash config old.capacity) (old.table config (tx.view stored)).table
          tx.info.migrationCursor, tx') ∧
      Txn.Coherent read role live stored (tx'.advance tx.info.migrationCursor) ∧
      tx'.epoch = tx.epoch ∧ tx'.info = tx.info ∧
      old.table config (tx'.view stored) = OldTable.drainSlot hash config
        (old.table config (tx.view stored)) tx.info.migrationCursor ∧
      (tx'.advance tx.info.migrationCursor).logical stored =
        (tx.logical stored).advance (old.table config (tx'.view stored)) := by
  obtain ⟨tx', drained, coherent', epoch, info, older, current⟩ :=
    drainSlot_ok conf coherent placed mid held more
  refine ⟨tx', drained, coherent'.withInfo _, epoch, info, older, ?_⟩
  simp only [Txn.tableOf] at current
  have moved : (tx'.advance tx.info.migrationCursor).view stored = tx'.view stored := rfl
  rw [Txn.logical, moved]
  simp only [Txn.logical, Meta.logical, Logical.advance, Txn.advance, info, held, conf, current,
    Option.map_some]

theorem placeCurrent_ok (key : String) (conf : tx.info.config = config)
    (coherent : Txn.Coherent read role live stored tx) (placed : Placed role live tx.info)
    (sized : Sized config tx.info.currentCapacity)
    (table_wf : BucketTable.Wf (scheme hash config tx.info.currentCapacity)
      (tx.logical stored).table) :
    ∃ work tx', placePrimaryTx hash read tx tx.info.currentGeneration tx.info.currentCapacity key =
        .ok ((place (scheme hash config (tx.logical stored).capacity)
          (tx.logical stored).table key).isSome, work, tx') ∧
      ∀ table, place (scheme hash config (tx.logical stored).capacity)
          (tx.logical stored).table key = some table →
        Txn.Coherent read role live stored tx' ∧ tx'.epoch = tx.epoch ∧ tx'.info = tx.info ∧
        tx'.logical stored = { tx.logical stored with table } ∧
        ∀ old, tx.info.old = some old →
          old.table config (tx'.view stored) = old.table config (tx.view stored) := by
  have region := placed.current
  have table_eq : (tx.logical stored).table =
      tx.tableOf stored config tx.info.currentBasePage tx.info.currentCapacity := by
    simp only [Txn.tableOf, Txn.logical, Meta.logical, conf]
  rw [conf] at region
  rw [table_eq] at table_wf ⊢
  obtain ⟨work, tx', ran, after⟩ := placePrimaryTx_ok key sized region coherent
    (named_current tx conf) table_wf
  refine ⟨work, tx', ran, fun table room => ?_⟩
  obtain ⟨within, changed⟩ := after table room
  have older : ∀ old, tx.info.old = some old →
      old.table config (tx'.view stored) = old.table config (tx.view stored) := by
    intro old held
    obtain ⟨_, apart⟩ := placed.old old held
    rw [conf] at apart
    simp only [OldGeneration.table]
    congr 1
    exact tableAt_congr fun page _ high => within.frame page (Or.inl (by omega))
  refine ⟨within.coherent, within.epoch, within.info, ?_, older⟩
  have shown : tableAt (tx'.view stored) tx.info.currentBasePage
      (tx.info.currentCapacity / config.bucketSize) = table := changed
  cases held : tx.info.old with
  | none => simp only [Txn.logical, Meta.logical, within.info, conf, held, shown, Option.map_none]
  | some old =>
      simp only [Txn.logical, Meta.logical, within.info, conf, held, shown, Option.map_some,
        older old held]

theorem Counted.trans {info info' info'' : Meta E} (first : Counted info info')
    (second : Counted info' info'') : Counted info info'' := by
  rw [Counted, second, first]

/-- A loop that the abstract loop `result` describes from `tx` on. -/
def LoopFollows (read : Reader) (role : Nat → Nat) (live : Nat → Prop) (stored : Nat → Slots)
    (tx : Txn E) (completed : Bool) (ran : Except StoreError (Txn E × Migrated))
    (result : Except StoreError Logical) : Prop :=
  match result with
  | .ok state => ∃ tx' done, ran = .ok (tx', done) ∧ Txn.Coherent read role live stored tx' ∧
      tx'.epoch = tx.epoch ∧ Counted tx.info tx'.info ∧ tx'.logical stored = state ∧
      done.completed = completed
  | .error error => ran = .error error

theorem LoopFollows.trans (tx' : Txn E) {completed : Bool}
    {ran : Except StoreError (Txn E × Migrated)} {result : Except StoreError Logical}
    (epoch : tx'.epoch = tx.epoch) (counted : Counted tx.info tx'.info)
    (rest : LoopFollows read role live stored tx' completed ran result) :
    LoopFollows read role live stored tx completed ran result := by
  cases result with
  | error error => exact rest
  | ok state =>
      obtain ⟨last, done, finished, coherent, epoch', counted', shown, same⟩ := rest
      exact ⟨last, done, finished, coherent, epoch'.trans epoch, counted.trans counted', shown, same⟩

theorem migrateLoop_ok (left : Nat) (sofar : Migrated) (conf : tx.info.config = config)
    (coherent : Txn.Coherent read role live stored tx) (placed : Placed role live tx.info)
    (mid : (tx.logical stored).Mid hash config) {old : OldGeneration}
    (held : tx.info.old = some old) :
    LoopFollows read role live stored tx sofar.completed
      (migrateLoop hash read old left tx sofar)
      (Logical.migrateLoop hash config left (old.table config (tx.view stored))
        (tx.logical stored)) := by
  induction left generalizing tx sofar with
  | zero => exact ⟨tx, sofar, rfl, coherent, rfl, rfl, rfl, rfl⟩
  | succ left ih =>
      have cursor_eq : (tx.logical stored).cursor = tx.info.migrationCursor := rfl
      have limit_eq : (tx.logical stored).limit = tx.info.migrationLimit := rfl
      have capacity_eq : (old.table config (tx.view stored)).capacity = old.capacity := rfl
      simp only [Logical.migrateLoop, migrateLoop, cursor_eq, limit_eq, capacity_eq]
      by_cases more : tx.info.migrationCursor < tx.info.migrationLimit
      · obtain ⟨tx₁, drained, coherent₁, epoch₁, info₁, older₁, step⟩ :=
          advance_ok conf coherent placed mid held more
        have info₂ : (tx₁.advance tx.info.migrationCursor).info = { tx.info with
            migrationCursor := tx.info.migrationCursor + 1 } := by rw [Txn.advance, info₁]
        have counted₂ : Counted tx.info (tx₁.advance tx.info.migrationCursor).info := by
          rw [info₂]
          rfl
        have conf₂ : (tx₁.advance tx.info.migrationCursor).info.config = config := by
          rw [info₂]
          exact conf
        have held₂ : (tx₁.advance tx.info.migrationCursor).info.old = some old := by
          rw [info₂]
          exact held
        have placed₂ := placed.counted counted₂
        have view₂ : (tx₁.advance tx.info.migrationCursor).view stored = tx₁.view stored := rfl
        simp only [more, if_true, drained, bind, Except.bind]
        rw [older₁] at step
        cases slot : slotAt (scheme hash config old.capacity)
            (old.table config (tx.view stored)).table tx.info.migrationCursor with
        | none =>
            simp only
            have mid₂ := (Logical.advance_grown mid (logical_old conf held) more slot).mid
            have next := ih { sofar with scanned := sofar.scanned + 1 } conf₂ coherent₁ placed₂
              (by rw [step]; exact mid₂) held₂
            rw [step, view₂, older₁] at next
            exact LoopFollows.trans (tx₁.advance tx.info.migrationCursor) epoch₁ counted₂ next
        | some key =>
            simp only
            have sized : Sized config (tx₁.advance tx.info.migrationCursor).info.currentCapacity := by
              rw [info₂]
              exact mid.sized
            have table_wf : BucketTable.Wf (scheme hash config
                (tx₁.advance tx.info.migrationCursor).info.currentCapacity)
                ((tx₁.advance tx.info.migrationCursor).logical stored).table := by
              rw [info₂, step]
              exact mid.table
            obtain ⟨work, tx₃, ran, after⟩ := placeCurrent_ok key conf₂ coherent₁ placed₂ sized
              table_wf
            rw [step] at ran after
            have ran' : placePrimaryTx hash read (tx₁.advance tx.info.migrationCursor)
                (tx₁.advance tx.info.migrationCursor).info.currentGeneration
                (tx₁.advance tx.info.migrationCursor).info.currentCapacity key =
                .ok ((place (scheme hash config (tx.logical stored).capacity)
                  (tx.logical stored).table key).isSome, work, tx₃) := ran
            simp only [Txn.advance] at ran'
            simp only [ran']
            cases room : place (scheme hash config (tx.logical stored).capacity)
                (tx.logical stored).table key with
            | none => simp [LoopFollows]
            | some table =>
                obtain ⟨coherent₃, epoch₃, info₃, logical₃, older₃⟩ := after table room
                have mid₃ := (Logical.receive_grown mid (logical_old conf held) more slot room).mid
                have logical₄ := tx₃.receive_logical logical₃
                have info₄ : tx₃.receive.info = { tx.info with
                    migrationCursor := tx.info.migrationCursor + 1
                    oldRows := tx.info.oldRows - 1
                    currentRows := tx.info.currentRows + 1 } := by
                  rw [Txn.receive, info₃, info₂]
                have counted₄ : Counted tx.info tx₃.receive.info := by
                  rw [info₄]
                  rfl
                have view₄ : old.table config (tx₃.receive.view stored) =
                    OldTable.drainSlot hash config (old.table config (tx.view stored))
                      tx.info.migrationCursor := (older₃ old held₂).trans older₁
                have conf₄ : tx₃.receive.info.config = config := by
                  rw [info₄]
                  exact conf
                have held₄ : tx₃.receive.info.old = some old := by
                  rw [info₄]
                  exact held
                have coherent₄ : Txn.Coherent read role live stored tx₃.receive :=
                  coherent₃.withInfo _
                have next := ih ⟨sofar.scanned + 1, sofar.moved + 1, sofar.work + work,
                    sofar.completed⟩
                  conf₄ coherent₄ (placed.counted counted₄) (by rw [logical₄]; exact mid₃) held₄
                rw [logical₄, view₄] at next
                exact LoopFollows.trans tx₃.receive (epoch₃.trans epoch₁) counted₄ next
      · simp only [more, if_false]
        exact ⟨tx, sofar, rfl, coherent, rfl, rfl, rfl, rfl⟩

def Migrates (info info' : Meta E) : Prop :=
  info' = { info with
    old := info'.old
    migrationCursor := info'.migrationCursor
    migrationLimit := info'.migrationLimit
    oldRows := info'.oldRows
    currentRows := info'.currentRows }

theorem migrateTx_ok (conf : tx.info.config = config)
    (coherent : Txn.Coherent read role live stored tx) (placed : Placed role live tx.info)
    (mid : (tx.logical stored).Mid hash config) :
    match (tx.logical stored).migrate hash config with
    | .ok state => ∃ tx' done, migrateTx hash read tx = .ok (tx', done) ∧
        Txn.Coherent read role live stored tx' ∧ tx'.epoch = tx.epoch ∧
        Migrates tx.info tx'.info ∧ tx'.logical stored = state ∧
        (done.completed = true ∧ tx.info.old ≠ none ∧ tx'.info.old = none ∨
          done.completed = false ∧ tx'.info.old = tx.info.old) ∧
        (({ tx'.info with old := tx.info.old } : Meta E).logical (tx'.view stored)).Tables hash
          config ∧
        (({ tx'.info with old := tx.info.old } : Meta E).logical (tx'.view stored)).keys hash
          config = (tx.logical stored).keys hash config ∧
        (tx'.info.old = none → ∀ old, tx.info.old = some old →
          contents (scheme hash config old.capacity) (old.table config (tx'.view stored)).table = 0)
    | .error error => migrateTx hash read tx = .error error := by
  unfold Logical.migrate migrateTx
  cases held : tx.info.old with
  | none =>
      have idle : (tx.logical stored).old = none := by simp [Txn.logical, Meta.logical, held]
      simp only [idle]
      have same : ({ tx.info with old := none } : Meta E).logical (tx.view stored) =
          tx.logical stored := by
        rw [← held]
        rfl
      exact ⟨tx, _, rfl, coherent, rfl, rfl, rfl, Or.inr ⟨rfl, held⟩, by rw [same]; exact mid.tables,
        by rw [same], fun _ old other => by cases other⟩
  | some old =>
      have looped := migrateLoop_ok config.migrationSlotBudget ⟨0, 0, 0, false⟩ conf
        coherent placed mid held
      simp only [logical_old conf held, conf]
      cases abstractly : Logical.migrateLoop hash config config.migrationSlotBudget
          (old.table config (tx.view stored)) (tx.logical stored) with
      | error error =>
          simp only [abstractly, LoopFollows] at looped
          simp [looped, bind, Except.bind]
      | ok state =>
          simp only [abstractly, LoopFollows] at looped
          obtain ⟨tx', done, ran, coherent', epoch, counted, shown, unfinished⟩ := looped
          have grown := (Logical.migrateLoop_spec _ mid (logical_old conf held) abstractly).1
          have kept : tx'.info.old = some old := by rw [counted, held]
          subst shown
          have working : ({ tx'.info with old := some old } : Meta E).logical (tx'.view stored) =
              tx'.logical stored := by
            rw [← kept]
            rfl
          have tables := grown.mid.tables
          have keys := grown.keys
          rw [zero_add] at keys
          rw [← working] at tables keys
          have limit_eq : (tx'.logical stored).limit = tx'.info.migrationLimit := rfl
          have cursor_eq : (tx'.logical stored).cursor = tx'.info.migrationCursor := rfl
          have rows_eq : (tx'.logical stored).oldRows = tx'.info.oldRows := rfl
          simp only [ran, bind, Except.bind, limit_eq, cursor_eq, rows_eq]
          by_cases finished : tx'.info.migrationLimit ≤ tx'.info.migrationCursor
          · by_cases left : tx'.info.oldRows = 0
            · simp only [finished, left, if_true, ne_eq, not_true_eq_false, if_false]
              refine ⟨_, _, rfl, coherent'.withInfo _, epoch, ?_, rfl, Or.inl ⟨rfl, by simp, rfl⟩,
                ⟨tables.sized, tables.table, tables.old, tables.nodup⟩, keys, ?_⟩
              · rw [Migrates, counted]
              · intro _ other same
                cases same
                have conf' : tx'.info.config = config := by rw [counted, conf]
                exact (Logical.oldRows_of_finished grown.mid (logical_old conf' kept) finished).1
            · simp [finished, left]
          · simp only [finished, if_false]
            refine ⟨tx', done, rfl, coherent', epoch, ?_, rfl, Or.inr ⟨unfinished, ?_⟩, tables, keys,
              fun none => by rw [kept] at none; cases none⟩
            · rw [Migrates, counted]
            · rw [counted, held]

def Txn.admitted (tx : Txn E) : Txn E :=
  { tx with info := { tx.info with
      currentRows := tx.info.currentRows + 1, liveSize := tx.info.liveSize + 1 } }

theorem placeNew_ok {key : String} (conf : tx.info.config = config)
    (coherent : Txn.Coherent read role live stored tx) (placed : Placed role live tx.info)
    (mid : (tx.logical stored).Mid hash config)
    (fresh : key ∉ (tx.logical stored).keys hash config) :
    ∃ work tx', placePrimaryTx hash read tx tx.info.currentGeneration tx.info.currentCapacity key =
        .ok ((place (scheme hash config (tx.logical stored).capacity)
          (tx.logical stored).table key).isSome, work, tx') ∧
      ∀ table, place (scheme hash config (tx.logical stored).capacity)
          (tx.logical stored).table key = some table →
        Txn.Coherent read role live stored tx'.admitted ∧ tx'.epoch = tx.epoch ∧
        tx'.info = tx.info ∧
        tx'.admitted.logical stored = { tx.logical stored with
          table, rows := (tx.logical stored).rows + 1, live := (tx.logical stored).live + 1 } ∧
        (tx'.admitted.logical stored).Mid hash config ∧ Placed role live tx'.admitted.info := by
  obtain ⟨work, tx', ran, after⟩ := placeCurrent_ok key conf coherent placed mid.sized mid.table
  refine ⟨work, tx', ran, fun table room => ?_⟩
  obtain ⟨coherent', epoch, info, logical, _⟩ := after table room
  have parts : tx'.admitted.logical stored = { tx'.logical stored with
      rows := (tx'.logical stored).rows + 1, live := (tx'.logical stored).live + 1 } := rfl
  rw [logical] at parts
  have grown := Logical.place_grown mid fresh ((tx.logical stored).live + 1) room
  refine ⟨coherent'.withInfo _, epoch, info, parts, parts ▸ grown.mid, ?_⟩
  have info' : tx'.admitted.info = { tx.info with
      currentRows := tx.info.currentRows + 1, liveSize := tx.info.liveSize + 1 } := by
    rw [Txn.admitted, info]
  rw [info']
  exact ⟨placed.current, placed.old⟩

end Migration

section Reading

variable {hash : Hash} {read : Reader} {role : Nat → Nat} {live : Nat → Prop} {stored : Nat → Slots}
  {config : Config} {tx : Txn E}

theorem generationKeys_ok {base capacity generation : Nat}
    (region : Region config role live base capacity)
    (coherent : Txn.Coherent read role live stored tx)
    (named : Named config generation base capacity tx) :
    ∃ tx', generationKeys read tx generation capacity =
        .ok (listing (tx.tableOf stored config base capacity) (capacity / config.bucketSize), tx') ∧
      Txn.Same tx tx' ∧ Txn.Coherent read role live stored tx' := by
  have loop : ∀ count ≤ capacity / config.bucketSize, ∃ tx',
      (List.range count).foldlM
        (fun collected bucket => collectPage read (base + bucket) config.bucketSize collected)
        (([] : List String), tx) = .ok ((List.range count).flatMap
          (fun bucket => (tx.tableOf stored config base capacity bucket).reduceOption), tx') ∧
      Txn.Same tx tx' ∧ Txn.Coherent read role live stored tx' := by
    intro count bound
    induction count with
    | zero => exact ⟨tx, rfl, .refl tx, coherent⟩
    | succ count ih =>
        obtain ⟨tx₁, ran, same, kept⟩ := ih (by omega)
        obtain ⟨tx₂, page, same₂, kept₂⟩ := readBucket_ok kept region (by omega)
          (region.bucket count bound)
        refine ⟨tx₂, ?_, same.trans same₂, kept₂⟩
        rw [List.range_succ, List.foldlM_append, ran]
        simp [collectPage, page, same.tableOf, bind, Except.bind, pure, Except.pure]
  obtain ⟨tx₁, ran, same, kept⟩ := loop _ le_rfl
  obtain ⟨tx₂, page, same₂, kept₂⟩ := readBucket_ok kept region le_rfl region.stash
  refine ⟨tx₂, ?_, same.trans same₂, kept₂⟩
  have conf₁ : tx₁.info.config = config := by rw [same.info, named.config]
  simp only [generationKeys, named.config, named.descriptor, bind, Except.bind] at ran ⊢
  rw [ran]
  simp only [collectPage, conf₁, page, same.tableOf, listing, bind, Except.bind]

theorem start_named (epoch : Nat) (info : Meta E) : Named info.config info.currentGeneration
    info.currentBasePage info.currentCapacity (Txn.start epoch info) :=
  named_current (Txn.start epoch info) rfl

theorem Meta.found_iff (info : Meta E) (stored : Nat → Slots) (key : String) :
    (info.logical stored).found hash info.config key ↔
      holds (scheme hash info.config info.currentCapacity) (info.logical stored).table key ∨
        ∃ old, info.old = some old ∧
          holds (scheme hash info.config old.capacity) (old.table info.config stored).table key := by
  unfold Logical.found
  cases held : info.old with
  | none => simp [Meta.logical, held]
  | some old => simp [Meta.logical, held, OldGeneration.table]

/-- The store's committed state: its superblock, and what its pages show at that epoch. -/
structure Shown {σ : Type} (hash : Hash) (store : Methods σ E) (role : Nat → Nat) (live : Nat → Prop)
    (world : σ) (epoch : Nat) (info : Meta E) (stored : Nat → Slots) : Prop where
  super : ∃ slot, store.readSuper world = .ok (epoch, info, slot)
  readable : ∀ page, live page → store.readLogicalPage world page epoch (role page) = .ok (stored page)
  lengths : ∀ page, live page → (stored page).length = role page
  placed : Placed role live info
  wf : (info.logical stored).Wf hash info.config

variable {σ : Type} {store : Methods σ E} {world : σ} {epoch : Nat} {info : Meta E}

theorem Shown.coherent (shown : Shown hash store role live world epoch info stored) :
    Txn.Coherent (store.readLogicalPage world) role live stored (Txn.start epoch info) :=
  Txn.start_coherent shown.readable shown.lengths

theorem Shown.old_wf (shown : Shown hash store role live world epoch info stored)
    {old : OldGeneration} (held : info.old = some old) :
    Logical.OldWf hash info.config (info.logical stored) (old.table info.config stored) := by
  apply shown.wf.old
  simp [Meta.logical, held]

theorem Shown.lookups (shown : Shown hash store role live world epoch info stored) (key : String) :
    ∃ pages tx, lookupGenerationTx hash (store.readLogicalPage world) (Txn.start epoch info)
        info.currentGeneration info.currentCapacity key =
        .ok (decide (holds (scheme hash info.config info.currentCapacity)
          (info.logical stored).table key), pages, tx) ∧
      Txn.Same (Txn.start epoch info) tx ∧
      Txn.Coherent (store.readLogicalPage world) role live stored tx ∧
      ∀ old, info.old = some old → ∃ more tx',
        lookupGenerationTx hash (store.readLogicalPage world) tx old.generation old.capacity key =
          .ok (decide (holds (scheme hash info.config old.capacity)
            (old.table info.config stored).table key), more, tx') ∧
        Txn.Same (Txn.start epoch info) tx' ∧
        Txn.Coherent (store.readLogicalPage world) role live stored tx' := by
  obtain ⟨pages, tx, ran, same, coherent⟩ := lookupGenerationTx_ok key shown.coherent
    shown.wf.sized shown.placed.current (start_named epoch info)
  refine ⟨pages, tx, ran, same, coherent, ?_⟩
  intro old held
  have older := shown.old_wf held
  have named : Named info.config old.generation old.basePage old.capacity (Txn.start epoch info) :=
    named_old (Txn.start epoch info) rfl held older.succ
  obtain ⟨more, tx', ran', same', coherent'⟩ := lookupGenerationTx_ok key coherent
    older.sized (shown.placed.old old held).1 (named.transfer same.info)
  rw [same.tableOf] at ran'
  exact ⟨more, tx', ran', same.trans same', coherent'⟩

theorem Shown.lookup (shown : Shown hash store role live world epoch info stored) (key : String) :
    ∃ trace, lookup hash store key world = .ok trace ∧
      (trace.found = true ↔ key ∈ (info.logical stored).keys hash info.config) := by
  obtain ⟨slot, super⟩ := shown.super
  obtain ⟨pages, tx, ran, _, _, older⟩ := shown.lookups key
  rw [← Logical.found_iff shown.wf.toMid, Meta.found_iff]
  simp only [DurableContext.lookup, super, ran, bind, Except.bind]
  by_cases current : holds (scheme hash info.config info.currentCapacity)
      (info.logical stored).table key
  · simp [current]
  · cases held : info.old with
    | none => simp [current]
    | some old =>
        obtain ⟨more, tx', ran', _⟩ := older old held
        simp [current, ran']

theorem Shown.logicalSnapshot (shown : Shown hash store role live world epoch info stored) :
    ∃ snapshot, logicalSnapshot store world = .ok snapshot ∧ snapshot.epoch = epoch ∧
      snapshot.info = info ∧ (snapshot.currentKeys : Multiset String) =
        (info.logical stored).currentKeys hash info.config ∧
      (snapshot.oldKeys : Multiset String) = (info.logical stored).oldKeys hash info.config := by
  obtain ⟨slot, super⟩ := shown.super
  obtain ⟨tx, ran, same, coherent⟩ := generationKeys_ok shown.placed.current shown.coherent
    (start_named epoch info)
  have current : (listing ((Txn.start epoch info).tableOf stored info.config info.currentBasePage
      info.currentCapacity) (info.currentCapacity / info.config.bucketSize) : Multiset String) =
      (info.logical stored).currentKeys hash info.config := by
    rw [Logical.currentKeys, contents_eq_listing]
    rfl
  simp only [DurableContext.logicalSnapshot, super, bind, Except.bind]
  have ran' : generationKeys (store.readLogicalPage world) (Txn.start epoch info)
      info.currentGeneration info.currentCapacity = _ := ran
  simp only [ran']
  cases held : info.old with
  | none => exact ⟨_, rfl, rfl, rfl, current, by simp [Logical.oldKeys, Meta.logical, held]⟩
  | some old =>
      have older := shown.old_wf held
      have named : Named info.config old.generation old.basePage old.capacity
          (Txn.start epoch info) := named_old (Txn.start epoch info) rfl held older.succ
      obtain ⟨tx', ranOld, _⟩ := generationKeys_ok (shown.placed.old old held).1 coherent
        (named.transfer same.info)
      rw [same.tableOf] at ranOld
      simp only [ranOld]
      refine ⟨_, rfl, rfl, rfl, current, ?_⟩
      simp only [Logical.oldKeys, Meta.logical, held, Option.map_some, Option.elim_some]
      rw [contents_eq_listing]
      rfl

/-- A snapshot of a committed state holds every key once, and as many as the counters say. -/
theorem Shown.counts (shown : Shown hash store role live world epoch info stored) :
    ∃ snapshot, DurableContext.logicalSnapshot store world = .ok snapshot ∧
      snapshot.epoch = epoch ∧ snapshot.info = info ∧
      (∀ key, key ∈ snapshot.currentKeys ++ snapshot.oldKeys ↔
        key ∈ (info.logical stored).keys hash info.config) ∧
      (snapshot.currentKeys ++ snapshot.oldKeys).Nodup ∧
      snapshot.currentKeys.length = info.currentRows ∧
      (snapshot.oldKeys.length : Int) = info.oldRows ∧
      (snapshot.currentKeys ++ snapshot.oldKeys).length = info.liveSize := by
  obtain ⟨snapshot, taken, tag, same, current, older⟩ := shown.logicalSnapshot
  have rows := shown.wf.rows
  have live := shown.wf.live
  have nodup := shown.wf.nodup
  have joined : (snapshot.currentKeys ++ snapshot.oldKeys : Multiset String) =
      (info.logical stored).keys hash info.config := by
    rw [Logical.keys, ← current, ← older, Multiset.coe_add]
  have oldRows : (Multiset.card ((info.logical stored).oldKeys hash info.config) : Int) =
      info.oldRows := by
    cases held : info.old with
    | none =>
        have idle := shown.wf.idle (by simp [Meta.logical, held])
        simpa [Logical.oldKeys, Meta.logical, held] using idle.symm
    | some old =>
        simpa [Logical.oldKeys, Meta.logical, held] using (shown.old_wf held).rows.symm
  rw [← current, Multiset.coe_card] at rows
  rw [← older, Multiset.coe_card] at oldRows
  rw [← joined, Multiset.coe_nodup] at nodup
  rw [← joined, Multiset.coe_card] at live
  refine ⟨snapshot, taken, tag, same, ?_, nodup, rows, oldRows, live⟩
  intro key
  rw [← joined, Multiset.mem_coe]

theorem Shown.audit (shown : Shown hash store role live world epoch info stored) :
    ∃ result, audit store world = .ok result ∧ result.valid = true := by
  obtain ⟨snapshot, taken, _, same, _, nodup, rows, oldRows, live⟩ := shown.counts
  refine ⟨_, by simp only [DurableContext.audit, taken, bind, Except.bind]; rfl, ?_⟩
  simp [same, nodup.dedup, rows, oldRows, ← live]

end Reading

end DurableContext
