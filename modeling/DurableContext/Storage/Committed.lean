import DurableContext.Storage.Refinement

/-! Where the generations of a primary lie, and what an insert does up to its first write.

A `Layout` fixes the pages of every generation there will ever be, so that a page keeps its role
for good. -/

namespace DurableContext

open BucketTable Program

variable {E : Type}

structure Layout where
  base : Nat → Nat
  capacity : Nat → Nat

namespace Layout

variable {layout : Layout} {config : Config}

def buckets (layout : Layout) (config : Config) (generation : Nat) : Nat :=
  layout.capacity generation / config.bucketSize

def finish (layout : Layout) (config : Config) (generation : Nat) : Nat :=
  layout.base generation + layout.buckets config generation + 1

structure Apart (layout : Layout) (config : Config) : Prop where
  apart : ∀ generation, layout.finish config generation ≤ layout.base (generation + 1)
  double : ∀ generation, layout.capacity (generation + 1) = layout.capacity generation * 2

/-- The slots of a page: every generation ends with its stash. -/
def role (layout : Layout) (config : Config) (page : Nat) : Nat :=
  if ∃ generation < page + 1,
      page = layout.base generation + layout.buckets config generation
  then config.stashCapacity else config.bucketSize

theorem Apart.finish_le (apart : layout.Apart config) {earlier later : Nat}
    (order : earlier < later) : layout.finish config earlier ≤ layout.base later := by
  induction later with
  | zero => omega
  | succ later ih =>
      rcases Nat.lt_or_eq_of_le (Nat.lt_succ_iff.mp order) with below | same
      · have inner : layout.base later < layout.finish config later := by
          unfold finish
          omega
        exact (ih below).trans (inner.le.trans (apart.apart later))
      · subst same
        exact apart.apart earlier

theorem base_lt_finish (layout : Layout) (config : Config) (generation : Nat) :
    layout.base generation < layout.finish config generation := by
  unfold finish
  omega

theorem Apart.finish_mono (apart : layout.Apart config) {earlier later : Nat}
    (order : earlier ≤ later) : layout.finish config earlier ≤ layout.finish config later := by
  rcases Nat.lt_or_eq_of_le order with below | same
  · exact (apart.finish_le below).trans (layout.base_lt_finish config later).le
  · rw [same]

theorem Apart.le_of_finish (apart : layout.Apart config) {earlier later : Nat}
    (order : layout.finish config earlier ≤ layout.finish config later) : earlier ≤ later := by
  by_contra below
  have before := apart.finish_le (Nat.lt_of_not_le below)
  have inner := layout.base_lt_finish config earlier
  omega

theorem Apart.le_base (apart : layout.Apart config) (generation : Nat) :
    generation ≤ layout.base generation := by
  induction generation with
  | zero => omega
  | succ generation ih =>
      have inner : layout.base generation < layout.finish config generation := by
        unfold finish
        omega
      exact Nat.succ_le_of_lt (Nat.lt_of_le_of_lt ih (inner.trans_le (apart.apart generation)))

theorem Apart.region (apart : layout.Apart config) {generation : Nat} {live : Nat → Prop}
    (inside : ∀ index ≤ layout.buckets config generation, live (layout.base generation + index)) :
    Region config (layout.role config) live (layout.base generation)
      (layout.capacity generation) where
  bucket := by
    intro index bound
    have below : index < layout.buckets config generation := bound
    refine if_neg ?_
    rintro ⟨other, _, same⟩
    rcases Nat.lt_trichotomy other generation with before | equal | above
    · have := apart.finish_le before
      unfold finish at this
      omega
    · subst equal
      omega
    · have := apart.finish_le above
      unfold finish at this
      omega
  stash := if_pos ⟨generation, Nat.lt_succ_of_le
    ((apart.le_base generation).trans (Nat.le_add_right _ _)), rfl⟩
  inside := inside

end Layout

/-- The metadata places its generations where the layout has them. -/
structure Laid (layout : Layout) (info : Meta E) : Prop where
  base : info.currentBasePage = layout.base info.currentGeneration
  capacity : info.currentCapacity = layout.capacity info.currentGeneration
  next : info.nextPageId = layout.finish info.config info.currentGeneration
  old : ∀ old, info.old = some old → old.generation + 1 = info.currentGeneration ∧
    old.basePage = layout.base old.generation ∧ old.capacity = layout.capacity old.generation

def Meta.owns (info : Meta E) (page : Nat) : Prop :=
  (∃ index ≤ info.currentCapacity / info.config.bucketSize,
      page = info.currentBasePage + index) ∨
    ∃ old, info.old = some old ∧
      ∃ index ≤ old.capacity / info.config.bucketSize, page = old.basePage + index

theorem Laid.placed {layout : Layout} {info : Meta E} (laid : Laid layout info)
    (apart : layout.Apart info.config) {live : Nat → Prop}
    (inside : ∀ page, info.owns page → live page) : Placed (layout.role info.config) live info where
  current := by
    rw [laid.base, laid.capacity]
    apply apart.region
    intro index bound
    rw [← laid.base]
    exact inside _ (Or.inl ⟨index, by rw [laid.capacity]; exact bound, rfl⟩)
  old := by
    intro old held
    obtain ⟨succ, base, capacity⟩ := laid.old old held
    have before : layout.finish info.config old.generation ≤ layout.base info.currentGeneration :=
      apart.finish_le (by omega)
    constructor
    · rw [base, capacity]
      apply apart.region
      intro index bound
      rw [← base]
      exact inside _ (Or.inr ⟨old, held, index, by rw [capacity]; exact bound, rfl⟩)
    rw [base, capacity, laid.base]
    show layout.base old.generation + layout.buckets info.config old.generation < _
    unfold Layout.finish at before
    omega

theorem Laid.owns_lt {layout : Layout} {info : Meta E} (laid : Laid layout info)
    (apart : layout.Apart info.config) {page : Nat} (owned : info.owns page) :
    page < info.nextPageId := by
  have placed := laid.placed apart fun _ owned => owned
  rw [laid.next]
  rcases owned with ⟨index, bound, rfl⟩ | ⟨old, held, index, bound, rfl⟩
  · rw [laid.base]
    rw [laid.capacity] at bound
    unfold Layout.finish Layout.buckets
    omega
  · have below := (placed.old old held).2
    rw [laid.base] at below
    unfold Layout.finish
    omega

theorem Laid.migrates {layout : Layout} {info info' : Meta E} (laid : Laid layout info)
    (migrates : Migrates info info') (older : info'.old = none ∨ info'.old = info.old) :
    Laid layout info' := by
  have base : info'.currentBasePage = info.currentBasePage := by rw [migrates]
  have capacity : info'.currentCapacity = info.currentCapacity := by rw [migrates]
  have generation : info'.currentGeneration = info.currentGeneration := by rw [migrates]
  have next : info'.nextPageId = info.nextPageId := by rw [migrates]
  have config : info'.config = info.config := by rw [migrates]
  refine ⟨by rw [base, generation, laid.base], by rw [capacity, generation, laid.capacity],
    by rw [next, config, generation, laid.next], ?_⟩
  intro old held
  rw [generation]
  rcases older with none | same
  · rw [none] at held
    cases held
  · exact laid.old old (same ▸ held)

section Prepare

variable {σ : Type} {hash : Hash} {store : Methods σ E} {role : Nat → Nat}
  {live : Nat → Prop} {world : σ}
  {epoch : Nat} {info : Meta E} {stored : Nat → Slots} {key : String}

open Classical in
theorem Shown.lookupTx (shown : Shown hash store role live world epoch info stored)
    (key : String) : ∃ pages tx more tx',
      lookupCurrentTx hash store (Txn.start epoch info) key world =
        .ok (decide (holds (scheme hash info.config info.currentCapacity)
          (info.logical stored).table key), pages, tx) world ∧
      lookupOldTx hash store tx key world =
        .ok (decide (∃ old, info.old = some old ∧ holds (scheme hash info.config old.capacity)
          (old.table info.config stored).table key), more, tx') world ∧
      Txn.Same (Txn.start epoch info) tx ∧ Txn.Same (Txn.start epoch info) tx' ∧
      Txn.Coherent (store.readLogicalPage world) role live stored tx' := by
  obtain ⟨pages, tx, ran, same, coherent, older⟩ := shown.lookups key
  have current : lookupCurrentTx hash store (Txn.start epoch info) key world =
      .ok (decide (holds (scheme hash info.config info.currentCapacity)
        (info.logical stored).table key), pages, tx) world := by
    have ran' : lookupGenerationTx hash (store.readLogicalPage world) (Txn.start epoch info)
      (Txn.start epoch info).info.currentGeneration
      (Txn.start epoch info).info.currentCapacity key = _ := ran
    rw [lookupCurrentTx, bind_of_ok (get_run world), ran', ofResult_ok]
  have old_eq : tx.info.old = info.old := by rw [same.info]; rfl
  cases held : info.old with
  | none =>
      refine ⟨pages, tx, [], tx, current, ?_, same, same, coherent⟩
      simp [lookupOldTx, old_eq, held, pure_run]
  | some old =>
      obtain ⟨more, tx', ran', same', coherent'⟩ := older old held
      refine ⟨pages, tx, more, tx', current, ?_, same, same', coherent'⟩
      simp only [lookupOldTx, old_eq, held]
      rw [bind_of_ok (get_run world), ran', ofResult_ok]
      simp

theorem Shown.prepareInsert (shown : Shown hash store role live world epoch info stored)
    (key : String) :
    (256 < key.utf8ByteSize → prepareInsert hash store epoch info key world =
      .error (.valueError "fixed-page keys are capped at 256 UTF-8 bytes") world) ∧
    (¬ 256 < key.utf8ByteSize → (info.logical stored).found hash info.config key →
      ∃ tx, tx.changes = ∅ ∧
        prepareInsert hash store epoch info key world = .ok (tx, .ofDuplicate) world) ∧
    (¬ 256 < key.utf8ByteSize → ¬ (info.logical stored).found hash info.config key →
      ∃ tx, Txn.Same (Txn.start epoch info) tx ∧
        Txn.Coherent (store.readLogicalPage world) role live stored tx ∧
        prepareInsert hash store epoch info key world = admitTx hash store tx key world) := by
  obtain ⟨pages, tx, more, tx', current, older, first, same, coherent⟩ := shown.lookupTx key
  rw [Meta.found_iff]
  refine ⟨fun long => by simp [DurableContext.prepareInsert, long, throw_run],
    fun short found => ?_, fun short missing => ?_⟩
  · simp only [DurableContext.prepareInsert, short, if_false]
    rw [bind_of_ok current]
    by_cases here : holds (scheme hash info.config info.currentCapacity)
        (info.logical stored).table key
    · exact ⟨tx, first.changes, by simp [here, pure_run]⟩
    · have there := found.resolve_left here
      refine ⟨tx', same.changes, ?_⟩
      simp only [here, decide_false, Bool.false_eq_true, if_false]
      rw [bind_of_ok older]
      simp [there, pure_run]
  · obtain ⟨notHere, notThere⟩ := not_or.mp missing
    refine ⟨tx', same, coherent, ?_⟩
    simp only [DurableContext.prepareInsert, short, if_false]
    rw [bind_of_ok current]
    simp only [notHere, decide_false, Bool.false_eq_true, if_false]
    rw [bind_of_ok older]
    simp [notThere]

theorem reach_run (failpoint : String → Bool) (label : String) (world : σ) :
    reach failpoint label world =
      if failpoint label then .error (.interrupted label) world else .ok ⟨⟩ world := by
  unfold reach
  split <;> rfl

theorem admitTx_run {tx tx₁ tx₂ : Txn E} {started success : Bool} {work : Nat} {world₁ : σ}
    (made : makeRoomTx store tx world = .ok (tx₁, started) world₁)
    (ran : placePrimaryTx hash (store.readLogicalPage world₁) tx₁ tx₁.info.currentGeneration
      tx₁.info.currentCapacity key = .ok (success, work, tx₂)) :
    admitTx hash store tx key world =
      if success then
        (store.migrateTx tx₂.admitted >>= fun (tx, done) => pure (tx, (⟨false, started,
          done.completed, done.scanned, done.moved, work + done.work⟩ : Prepared))) world₁
      else .error (.primaryAdmissionExhausted "new key primary placement exhausted") world₁ := by
  have step : (ofResult (placePrimaryTx hash (store.readLogicalPage world₁) tx₁
      tx₁.info.currentGeneration tx₁.info.currentCapacity key) : Op StoreError σ _) world₁ =
      .ok (success, work, tx₂) world₁ := by rw [ran, ofResult_ok]
  unfold admitTx
  rw [bind_of_ok made]
  simp only
  rw [bind_of_ok (get_run world₁), bind_of_ok step]
  cases success with
  | false => rfl
  | true => rfl

end Prepare

end DurableContext
