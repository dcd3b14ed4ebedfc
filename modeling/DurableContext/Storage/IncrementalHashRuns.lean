import DurableContext.Storage.IncrementalHash

/-! Runs of inserts into the incremental hash index. -/

namespace DurableContext.IncrementalHash

open OpenAddressing Program

variable {hash : String → Nat} {slotsPerPage : Nat} {key : String}

/-! ### One generation -/

namespace GenerationTable

variable {table : GenerationTable}

def keys (table : GenerationTable) : Multiset String := table.slots.reduceOption

structure Wf (hash : String → Nat) (table : GenerationTable) : Prop where
  power : ∃ k, table.capacity = 2 ^ k
  length : table.slots.length = table.capacity
  size : table.size = Multiset.card table.keys
  slots : OpenAddressing.Wf (probePositions hash table.capacity) table.slots

theorem create_wf (hash : String → Nat) {capacity : Nat} (power : ∃ k, capacity = 2 ^ k) :
    (create capacity).Wf hash where
  power := power
  length := List.length_replicate
  size := by simp [create, keys, List.reduceOption_replicate_none]
  slots := blank_wf _ _

theorem create_keys (capacity : Nat) : (create capacity).keys = 0 := by
  simp [create, keys, List.reduceOption_replicate_none]

theorem mem_probePositions {capacity : Nat} (power : ∃ k, capacity = 2 ^ k) {position : Nat} :
    position ∈ probePositions hash capacity key ↔ position < capacity := by
  obtain ⟨k, rfl⟩ := power
  have positive : 0 < 2 ^ k := Nat.two_pow_pos k
  simp only [probePositions, Nat.and_two_pow_sub_one_eq_mod, List.mem_map, List.mem_range]
  constructor
  · intro ⟨offset, _, same⟩
    rw [← same]
    exact Nat.mod_lt _ positive
  · intro bound
    have start := Nat.mod_lt (hash key) positive
    generalize hash key % 2 ^ k = first at start
    by_cases early : first ≤ position
    · refine ⟨position - first, by omega, ?_⟩
      rw [Nat.add_sub_cancel' early, Nat.mod_eq_of_lt bound]
    · refine ⟨position + 2 ^ k - first, by omega, ?_⟩
      rw [show first + (position + 2 ^ k - first) = position + 2 ^ k by omega, Nat.add_mod_right,
        Nat.mod_eq_of_lt bound]

theorem mem_keys : key ∈ table.keys ↔ key ∈ table.slots.reduceOption := Multiset.mem_coe

theorem lookup_found (slotsPerPage : Nat) (wf : table.Wf hash) (key : String) :
    (table.lookup hash slotsPerPage key).1 = true ↔ key ∈ table.keys := by
  rw [mem_keys, ← walk_found_iff wf.slots]
  exact decide_eq_true_iff

theorem place_new (slotsPerPage : Nat) (wf : table.Wf hash) (fresh : key ∉ table.keys)
    (room : table.size < table.capacity) :
    ∃ placed table', table.place hash slotsPerPage key = .ok (placed, table') ∧
      placed.inserted = true ∧ table'.Wf hash ∧ table'.keys = key ::ₘ table.keys ∧
      table'.capacity = table.capacity ∧ table'.size = table.size + 1 := by
  rw [mem_keys] at fresh
  have spare : table.slots.reduceOption.length < table.slots.length := by
    rw [wf.size] at room
    rw [wf.length]
    exact room
  obtain ⟨position, ended, free⟩ := walk_new wf.slots
    (fun position bound => (mem_probePositions wf.power).mpr (wf.length ▸ bound))
    (fun position member => wf.length ▸ (mem_probePositions wf.power).mp member) fresh spare
  have grown := contents_set free key
  refine ⟨_, { table with slots := table.slots.set position (some key), size := table.size + 1 },
    by rw [place]; simp only [ended]; rfl, rfl, ?_, grown, rfl, rfl⟩
  refine ⟨wf.power, ?_, ?_, wf.slots.set ended free fresh⟩
  · rw [List.length_set]
    exact wf.length
  · show table.size + 1 = Multiset.card ((table.slots.set position (some key)).reduceOption :
      Multiset String)
    rw [grown, Multiset.card_cons, wf.size]
    rfl

def upTo (table : GenerationTable) (cursor : Nat) : Multiset String :=
  (table.slots.take cursor).reduceOption

theorem upTo_all (wf : table.Wf hash) : table.upTo table.capacity = table.keys := by
  rw [upTo, keys, ← wf.length, List.take_length]

theorem upTo_le (table : GenerationTable) (cursor : Nat) : table.upTo cursor ≤ table.keys :=
  Multiset.coe_le.mpr ((List.take_sublist cursor table.slots).filterMap id).subperm

theorem upTo_succ (table : GenerationTable) (cursor : Nat) :
    table.upTo (cursor + 1) =
      table.upTo cursor + BucketTable.entry (table.slots[cursor]?.join) := by
  rw [upTo, List.take_add_one, List.reduceOption_append, ← Multiset.coe_add]
  congr 1
  cases table.slots[cursor]? with
  | none => rfl
  | some slot => cases slot <;> rfl

theorem notMem_upTo (wf : table.Wf hash) {cursor : Nat}
    (held : table.slots[cursor]?.join = some key) : key ∉ table.upTo cursor := by
  have nodup : (table.upTo (cursor + 1)).Nodup :=
    Multiset.nodup_of_le (table.upTo_le _) (Multiset.coe_nodup.mpr wf.slots.nodup)
  rw [upTo_succ, held, BucketTable.entry_some, add_comm, Multiset.singleton_add,
    Multiset.nodup_cons] at nodup
  exact nodup.1

end GenerationTable

/-! ### The pace of a migration -/

/-- A migration takes no more inserts than a generation may have rows. -/
def Ample (maxLoad : ℚ) (budget capacity : Nat) : Prop :=
  (⌈(capacity : ℚ) / budget⌉₊ : ℚ) ≤ maxLoad * capacity

variable {maxLoad : ℚ} {budget capacity : Nat}

theorem Ample.double (ample : Ample maxLoad budget capacity) :
    Ample maxLoad budget (capacity * 2) := by
  have steps : ⌈((capacity * 2 : Nat) : ℚ) / budget⌉₊ ≤ 2 * ⌈(capacity : ℚ) / budget⌉₊ := by
    rw [Nat.ceil_le]
    push_cast
    calc
      (capacity * 2 : ℚ) / budget = 2 * ((capacity : ℚ) / budget) := by ring
      _ ≤ 2 * (⌈(capacity : ℚ) / budget⌉₊ : ℚ) :=
          mul_le_mul_of_nonneg_left (Nat.le_ceil _) (by norm_num)
  unfold Ample at ample ⊢
  calc
    (⌈((capacity * 2 : Nat) : ℚ) / budget⌉₊ : ℚ) ≤ 2 * (⌈(capacity : ℚ) / budget⌉₊ : ℚ) := by
        exact_mod_cast steps
    _ ≤ 2 * (maxLoad * capacity) := mul_le_mul_of_nonneg_left ample (by norm_num)
    _ = maxLoad * ((capacity * 2 : Nat) : ℚ) := by push_cast; ring

/-- While the cursor is inside the source, the next insert is one that the pace allows. -/
theorem Ample.next_step (ample : Ample maxLoad budget capacity) (positive : 0 < budget) {steps : Nat}
    (inside : steps * budget < capacity) : ((steps + 1 : Nat) : ℚ) ≤ maxLoad * capacity := by
  have early : steps < ⌈(capacity : ℚ) / budget⌉₊ := by
    rw [Nat.lt_ceil, lt_div_iff₀ (by exact_mod_cast positive)]
    exact_mod_cast inside
  calc
    ((steps + 1 : Nat) : ℚ) ≤ (⌈(capacity : ℚ) / budget⌉₊ : ℚ) := by exact_mod_cast early
    _ ≤ maxLoad * capacity := ample

/-! ### One migration step -/

namespace IncrementalHashIndex

variable {index index' : IncrementalHashIndex} {old : GenerationTable}
  {admitted : Multiset String} {keys : Finset String}

/-- The current generation has the keys admitted since the migration started and those of the
source up to the cursor. -/
structure Migrating (hash : String → Nat) (old : GenerationTable) (admitted : Multiset String)
    (index : IncrementalHashIndex) : Prop where
  held : index.old = some old
  table : index.current.Wf hash
  source : old.Wf hash
  twice : index.current.capacity = old.capacity * 2
  sourceRows : index.migrationSourceRows = old.size
  copied : index.migrationCopiedTotal = Multiset.card (old.upTo index.migrationCursor)
  keys : index.current.keys = admitted + old.upTo index.migrationCursor
  nodup : (admitted + old.keys).Nodup

theorem Migrating.size (migrating : Migrating hash old admitted index) :
    index.current.size = Multiset.card admitted + index.migrationCopiedTotal := by
  rw [migrating.table.size, migrating.keys, Multiset.card_add, migrating.copied]

theorem Migrating.copied_le (migrating : Migrating hash old admitted index) :
    index.migrationCopiedTotal ≤ old.size := by
  rw [migrating.copied, migrating.source.size]
  exact Multiset.card_le_card (old.upTo_le _)

theorem Migrating.skip (migrating : Migrating hash old admitted index)
    (empty : old.slots[index.migrationCursor]?.join = none) :
    Migrating hash old admitted { index with migrationCursor := index.migrationCursor + 1 } := by
  have same : old.upTo (index.migrationCursor + 1) = old.upTo index.migrationCursor := by
    rw [old.upTo_succ, empty, BucketTable.entry_none, add_zero]
  exact { migrating with
    copied := by rw [same]; exact migrating.copied
    keys := by rw [same]; exact migrating.keys }

theorem Migrating.copy (migrating : Migrating hash old admitted index)
    (held : old.slots[index.migrationCursor]?.join = some key)
    (room : Multiset.card admitted + old.size ≤ index.current.capacity) :
    ∃ placed table, index.current.place hash index.slotsPerPage key = .ok (placed, table) ∧
      placed.inserted = true ∧ Migrating hash old admitted { index with
        current := table
        migrationCursor := index.migrationCursor + 1
        migrationCopiedTotal := index.migrationCopiedTotal + 1 } ∧
      table.capacity = index.current.capacity := by
  have passed : old.upTo (index.migrationCursor + 1) =
      key ::ₘ old.upTo index.migrationCursor := by
    rw [old.upTo_succ, held, BucketTable.entry_some, add_comm, Multiset.singleton_add]
  have inside : key ∈ old.keys := by
    refine Multiset.mem_of_le (old.upTo_le (index.migrationCursor + 1)) ?_
    rw [passed]
    exact Multiset.mem_cons_self _ _
  have fresh : key ∉ index.current.keys := by
    rw [migrating.keys, Multiset.mem_add, not_or]
    constructor
    · intro earlier
      have apart := (Multiset.nodup_add.mp migrating.nodup).2.2
      exact Multiset.disjoint_left.mp apart earlier inside
    · exact GenerationTable.notMem_upTo migrating.source held
  have more : Multiset.card (old.upTo index.migrationCursor) < old.size := by
    have bound := Multiset.card_le_card (old.upTo_le (index.migrationCursor + 1))
    rw [passed, Multiset.card_cons, ← migrating.source.size] at bound
    omega
  have space : index.current.size < index.current.capacity := by
    rw [migrating.size, migrating.copied]
    omega
  obtain ⟨placed, table, ran, inserted, wf, grown, capacity, _⟩ :=
    GenerationTable.place_new index.slotsPerPage migrating.table fresh space
  refine ⟨placed, table, ran, inserted, ?_, capacity⟩
  exact { migrating with
    table := wf
    twice := capacity.trans migrating.twice
    copied := by
      rw [passed, Multiset.card_cons, ← migrating.copied]
    keys := by
      show table.keys = _
      rw [grown, passed, migrating.keys, Multiset.add_cons] }

theorem placeCurrent_run {placed : Placed} {table : GenerationTable}
    (ran : index.current.place hash index.slotsPerPage key = .ok (placed, table)) :
    placeCurrent hash key index = .ok placed { index with current := table } := by
  unfold placeCurrent
  rw [bind_of_ok (get_run index), ran, bind_of_ok (ofResult_ok _ _)]
  rfl

def Scanned (index index' : IncrementalHashIndex) : Prop :=
  index' = { index with
    current := index'.current
    migrationCursor := index'.migrationCursor
    migrationCopiedTotal := index'.migrationCopiedTotal }

theorem migrateLoop_run (left : Nat) (scan : Scan) (migrating : Migrating hash old admitted index)
    (below : index.migrationCursor ≤ old.capacity)
    (room : Multiset.card admitted + old.size ≤ index.current.capacity) :
    ∃ scan' index', migrateLoop hash old left scan index = .ok scan' index' ∧
      Migrating hash old admitted index' ∧ Scanned index index' ∧
      index'.migrationCursor = min (index.migrationCursor + left) old.capacity ∧
      scan'.scanned + index.migrationCursor = scan.scanned + index'.migrationCursor ∧
      scan'.copied + index.migrationCopiedTotal = scan.copied + index'.migrationCopiedTotal := by
  induction left generalizing scan index with
  | zero =>
      exact ⟨scan, index, rfl, migrating, rfl, by omega, rfl, rfl⟩
  | succ left ih =>
      rw [migrateLoop]
      rw [bind_of_ok (get_run index)]
      by_cases more : index.migrationCursor < old.capacity
      · rw [if_pos more, bind_of_ok (set_run _ _)]
        cases held : old.slots[index.migrationCursor]?.join with
        | none =>
            obtain ⟨scan', index', ran, kept, same, cursor, scanned, copied⟩ :=
              ih (scan.see (index.migrationCursor / index.slotsPerPage)) (migrating.skip held)
                (Nat.succ_le_of_lt more) room
            refine ⟨scan', index', ran, kept, same, ?_, ?_, copied⟩
            · rw [cursor]
              show min (index.migrationCursor + 1 + left) old.capacity = _
              rw [Nat.add_assoc, Nat.add_comm 1 left]
            · simp only [Scan.see] at scanned
              omega
        | some key =>
            obtain ⟨placed, table, ran, inserted, copy, capacity⟩ := migrating.copy held room
            obtain ⟨scan', index', ran', kept, same, cursor, scanned, copied⟩ :=
              ih ((scan.see (index.migrationCursor / index.slotsPerPage)).add placed) copy
                (Nat.succ_le_of_lt more) (by rw [capacity]; exact room)
            have placing : placeCurrent hash key
                { index with migrationCursor := index.migrationCursor + 1 } = .ok placed _ :=
              placeCurrent_run ran
            refine ⟨scan', index', ?_, kept, same, ?_, ?_, ?_⟩
            · simp only
              rw [bind_of_ok placing, bind_of_ok (modify_run _ _), inserted]
              exact ran'
            · rw [cursor]
              show min (index.migrationCursor + 1 + left) old.capacity = _
              rw [Nat.add_assoc, Nat.add_comm 1 left]
            · simp only [Scan.see, Scan.add] at scanned
              omega
            · simp only [Scan.see, Scan.add, inserted, Bool.toNat_true] at copied
              omega
      · rw [if_neg more]
        exact ⟨scan, index, rfl, migrating, rfl, by omega, rfl, rfl⟩

/-- What holds of the index between inserts. -/
structure Sound (hash : String → Nat) (index : IncrementalHashIndex) (keys : Finset String) :
    Prop where
  budget : 0 < index.migrationSlotBudget
  load : index.maxLoad < 1
  table : index.current.Wf hash
  live : index.liveSize = keys.card
  idle : index.old = none → index.current.keys = keys.val ∧
    Ample index.maxLoad index.migrationSlotBudget index.current.capacity ∧
    (keys.card : ℚ) ≤ index.maxLoad * index.current.capacity
  running : ∀ old, index.old = some old → ∃ admitted, Migrating hash old admitted index ∧
    admitted + old.keys = keys.val ∧
    Ample index.maxLoad index.migrationSlotBudget old.capacity ∧
    (old.size : ℚ) ≤ index.maxLoad * old.capacity ∧ index.migrationCursor < old.capacity ∧
    index.migrationCursor = Multiset.card admitted * index.migrationSlotBudget

theorem capacity_pos {table : GenerationTable} (wf : table.Wf hash) : 0 < table.capacity := by
  obtain ⟨k, power⟩ := wf.power
  rw [power]
  exact Nat.two_pow_pos k

theorem le_capacity {load : ℚ} (below : load < 1) {count capacity : Nat}
    (fits : (count : ℚ) ≤ load * capacity) : count ≤ capacity := by
  have positive : (0 : ℚ) ≤ capacity := Nat.cast_nonneg _
  have whole : (count : ℚ) ≤ capacity := by nlinarith
  exact_mod_cast whole

theorem not_overloaded (wf : index.current.Wf hash)
    (fits : (index.current.size : ℚ) ≤ index.maxLoad * index.current.capacity) :
    ¬ index.overloaded := by
  have positive : (0 : ℚ) < index.current.capacity := by exact_mod_cast capacity_pos wf
  have loaded : index.current.loadFactor ≤ index.maxLoad := by
    rw [GenerationTable.loadFactor, div_le_iff₀ positive]
    exact fits
  unfold overloaded tolerance
  linarith

theorem Migrating.fits (migrating : Migrating hash old admitted index) {steps : Nat}
    (count : Multiset.card admitted = steps)
    (paced : (steps : ℚ) ≤ index.maxLoad * old.capacity)
    (rows : (old.size : ℚ) ≤ index.maxLoad * old.capacity) :
    ((Multiset.card admitted + old.size : Nat) : ℚ) ≤
      index.maxLoad * index.current.capacity := by
  rw [count, migrating.twice]
  push_cast
  linarith

theorem Sound.checkLoad (sound : Sound hash index keys) : checkLoad index = .ok ⟨⟩ index := by
  unfold IncrementalHashIndex.checkLoad
  rw [bind_of_ok (get_run index)]
  cases held : index.old with
  | none =>
      have same : index.current.size = index.liveSize := by
        rw [sound.table.size, (sound.idle held).1, sound.live]
        rfl
      simp [same, pure_run]
  | some old =>
      obtain ⟨admitted, migrating, _, ample, rows, more, cursor⟩ := sound.running old held
      have paced := ample.next_step sound.budget (cursor ▸ more)
      have calm : ¬ index.overloaded := by
        refine not_overloaded sound.table ?_
        have fits := migrating.fits rfl
          (le_trans (by push_cast; linarith) paced) rows
        refine le_trans ?_ fits
        have few := migrating.copied_le
        rw [migrating.size]
        exact_mod_cast Nat.add_le_add_left few _
      simp [calm, pure_run]

/-- The step after an admission: the migration goes on, or ends with every row copied. -/
theorem Migrating.step (migrating : Migrating hash old admitted index)
    (all : admitted + old.keys = keys.val) (budget : 0 < index.migrationSlotBudget)
    (load : index.maxLoad < 1) (live : index.liveSize = keys.card)
    (ample : Ample index.maxLoad index.migrationSlotBudget old.capacity)
    (rows : (old.size : ℚ) ≤ index.maxLoad * old.capacity)
    (more : index.migrationCursor < old.capacity) {steps : Nat}
    (count : Multiset.card admitted = steps + 1)
    (cursor : index.migrationCursor = steps * index.migrationSlotBudget) :
    ∃ step index', migrateStep hash index = .ok step index' ∧ Sound hash index' keys ∧
      index'.migrationSlotBudget = index.migrationSlotBudget ∧
      step.scanned ≤ index.migrationSlotBudget ∧
      (step.completed = true → index.migrationCopiedTotal + step.copied = step.sourceRows) ∧
      step.sourceRows = old.size := by
  have paced := ample.next_step budget (cursor ▸ more)
  have fits := migrating.fits count paced rows
  have room := le_capacity load fits
  obtain ⟨scan, after, ran, kept, same, cursor', scanned, copied⟩ :=
    migrateLoop_run index.migrationSlotBudget ⟨0, [], 0, 0, 0⟩ migrating more.le room
  have settings : after.maxLoad = index.maxLoad ∧
      after.migrationSlotBudget = index.migrationSlotBudget ∧ after.liveSize = index.liveSize := by
    rw [same]
    exact ⟨rfl, rfl, rfl⟩
  obtain ⟨load', budget', live'⟩ := settings
  have fits' := kept.fits count (by rw [load']; exact paced) (by rw [load']; exact rows)
  have calm : ¬ after.overloaded := by
    refine not_overloaded kept.table (le_trans ?_ fits')
    have few := kept.copied_le
    rw [kept.size]
    exact_mod_cast Nat.add_le_add_left few _
  have total : Multiset.card admitted + old.size = keys.card := by
    rw [kept.source.size, ← Multiset.card_add, all]
    rfl
  unfold migrateStep
  rw [bind_of_ok (get_run index), migrating.held]
  simp only
  rw [bind_of_ok ran, bind_of_ok (get_run after), if_neg calm]
  by_cases finished : old.capacity ≤ after.migrationCursor
  · have ended : after.migrationCursor = old.capacity := by omega
    have passed : old.upTo after.migrationCursor = old.keys := by
      rw [ended]
      exact GenerationTable.upTo_all kept.source
    have whole : after.migrationCopiedTotal = old.size := by
      rw [kept.copied, passed, kept.source.size]
    have size : after.current.size = after.liveSize := by
      rw [kept.size, whole, total, live', live]
    have switch : completeMigration after = .ok ⟨⟩ { after with
        old := none, migrationCursor := 0, migrationSourceRows := 0, migrationCopiedTotal := 0 } := by
      unfold completeMigration
      rw [bind_of_ok (get_run after), if_neg (by rw [whole, kept.sourceRows]; simp),
        if_neg (by rw [size]; simp)]
      rfl
    refine ⟨_, { after with
      old := none, migrationCursor := 0, migrationSourceRows := 0, migrationCopiedTotal := 0 },
      by simp only [finished, decide_true, if_true]; rw [bind_of_ok switch]; rfl, ?_, budget', ?_,
      ?_, migrating.sourceRows⟩
    · refine ⟨by rw [← budget'] at budget; exact budget, by rw [← load'] at load; exact load,
        kept.table, by rw [← live'] at live; exact live, fun _ => ⟨?_, ?_, ?_⟩,
        fun _ none => by cases none⟩
      · show after.current.keys = keys.val
        rw [kept.keys, passed, all]
      · show Ample after.maxLoad after.migrationSlotBudget after.current.capacity
        rw [kept.twice, load', budget']
        exact ample.double
      · rw [← total]
        exact fits'
    · show scan.scanned ≤ _
      simp only at scanned
      omega
    · intro _
      show index.migrationCopiedTotal + scan.copied = index.migrationSourceRows
      simp only at copied
      rw [migrating.sourceRows]
      omega
  · refine ⟨_, after, by simp only [finished, decide_false, Bool.false_eq_true, if_false]; rfl, ?_,
      budget', ?_, fun none => (by cases none), migrating.sourceRows⟩
    · refine ⟨by rw [budget']; exact budget, by rw [load']; exact load, kept.table,
        by rw [live']; exact live, fun none => ?_, fun old' found => ?_⟩
      · rw [kept.held] at none
        cases none
      · rw [kept.held] at found
        cases found
        refine ⟨admitted, kept, all, by rw [load', budget']; exact ample,
          by rw [load']; exact rows, by omega, ?_⟩
        rw [count, budget', Nat.add_mul, Nat.one_mul]
        omega
    · show scan.scanned ≤ _
      simp only at scanned
      omega

/-! ### Inserts -/

theorem Sound.lookup_found (sound : Sound hash index keys) (key : String) :
    (index.lookup hash key).found = true ↔ key ∈ keys := by
  have current := GenerationTable.lookup_found index.slotsPerPage sound.table key
  unfold IncrementalHashIndex.lookup
  by_cases here : (index.current.lookup hash index.slotsPerPage key).1 = true
  · have stored := current.mp here
    simp only [here, if_true, true_iff]
    rw [← Finset.mem_val]
    cases held : index.old with
    | none => rwa [(sound.idle held).1] at stored
    | some old =>
        obtain ⟨admitted, migrating, all, _⟩ := sound.running old held
        rw [migrating.keys, Multiset.mem_add] at stored
        rw [← all, Multiset.mem_add]
        exact stored.imp_right (Multiset.mem_of_le (old.upTo_le _))
  · have missing := mt current.mpr here
    simp only [here]
    cases held : index.old with
    | none =>
        rw [(sound.idle held).1, Finset.mem_val] at missing
        simp [missing]
    | some old =>
        obtain ⟨admitted, migrating, all, _⟩ := sound.running old held
        have older := GenerationTable.lookup_found index.slotsPerPage migrating.source key
        rw [migrating.keys, Multiset.mem_add, not_or] at missing
        show (old.lookup hash index.slotsPerPage key).1 = true ↔ key ∈ keys
        rw [older, ← Finset.mem_val, ← all, Multiset.mem_add]
        exact ⟨Or.inr, fun stored => stored.resolve_left missing.1⟩

theorem Sound.insert_duplicate (sound : Sound hash index keys) (stored : key ∈ keys) :
    insert hash key index = .error (.valueError ("duplicate key: " ++ key)) index := by
  unfold IncrementalHashIndex.insert
  rw [bind_of_ok (get_run index), if_pos ((sound.lookup_found key).mpr stored)]
  rfl

/-- What an insert of a new key is once the generations have room for it. -/
theorem insert_admitted {started : Bool} {start middle final : IncrementalHashIndex}
    {placed : Placed} {step : MigrateStep}
    (missing : ¬ (index.lookup hash key).found = true) (same : decide index.crowded = started)
    (begun : (if started then startMigration else pure ⟨⟩ : Op StoreError _ Unit) index =
      .ok ⟨⟩ start)
    (admitted : placeCurrent hash key start = .ok placed middle) (inserted : placed.inserted = true)
    (moved : migrateStep hash { middle with liveSize := middle.liveSize + 1 } = .ok step final)
    (checked : IncrementalHashIndex.checkLoad final = .ok ⟨⟩ final) :
    ∃ trace, insert hash key index = .ok trace final ∧ trace.migrationStarted = started ∧
      trace.migrationCompleted = step.completed ∧
      trace.migrationSourceSlotsScanned = step.scanned ∧
      trace.migrationRowsCopied = step.copied ∧ trace.migrationSourceRows = step.sourceRows := by
  unfold IncrementalHashIndex.insert
  rw [bind_of_ok (get_run index), if_neg missing]
  simp only [same]
  cases started with
  | false =>
      have unchanged : index = start := by
        cases begun
        rfl
      subst unchanged
      simp only [Bool.false_eq_true, if_false]
      rw [bind_of_ok admitted, if_pos inserted, bind_of_ok (modify_run _ _), bind_of_ok moved,
        bind_of_ok checked, bind_of_ok (get_run final)]
      exact ⟨_, rfl, rfl, rfl, rfl, rfl, rfl⟩
  | true =>
      simp only [if_true] at begun ⊢
      rw [bind_of_ok begun, bind_of_ok admitted, if_pos inserted, bind_of_ok (modify_run _ _),
        bind_of_ok moved, bind_of_ok checked, bind_of_ok (get_run final)]
      exact ⟨_, rfl, rfl, rfl, rfl, rfl, rfl⟩

/-- The rows of the running migration that are in the current generation already. -/
def copiedBefore (index : IncrementalHashIndex) : Nat :=
  if index.old.isSome then index.migrationCopiedTotal else 0

/-- The rows of the generation that is, or would be, migrated. -/
def sourceSize (index : IncrementalHashIndex) : Nat := (index.old.getD index.current).size

/-- The insert of a new key returns, scans no more than the budget, and if it completes a migration
then all rows of the source are copied. -/
def Admits (hash : String → Nat) (index : IncrementalHashIndex) (keys : Finset String)
    (key : String) : Prop :=
  ∃ trace final, insert hash key index = .ok trace final ∧ Sound hash final (keys ∪ {key}) ∧
    final.migrationSlotBudget = index.migrationSlotBudget ∧
    trace.migrationSourceSlotsScanned ≤ index.migrationSlotBudget ∧
    (trace.migrationCompleted = true →
      index.copiedBefore + trace.migrationRowsCopied = trace.migrationSourceRows ∧
        trace.migrationSourceRows = index.sourceSize)

theorem union_val (fresh : key ∉ keys) : (keys ∪ {key}).val = key ::ₘ keys.val := by
  rw [Finset.union_comm, ← Finset.insert_eq, Finset.insert_val_of_notMem fresh]

theorem card_union (fresh : key ∉ keys) : (keys ∪ {key}).card = keys.card + 1 := by
  rw [Finset.card_union_of_disjoint (Finset.disjoint_singleton_right.mpr fresh),
    Finset.card_singleton]

theorem Sound.insert_running (sound : Sound hash index keys) (fresh : key ∉ keys)
    (held : index.old = some old) : Admits hash index keys key := by
  have missing : ¬ (index.lookup hash key).found = true := mt (sound.lookup_found key).mp fresh
  obtain ⟨admitted, migrating, whole, ample, rows, more, cursor⟩ := sound.running old held
  have calm : decide index.crowded = false := by simp [crowded, held]
  have absent : key ∉ admitted + old.keys := by rwa [whole]
  have unplaced : key ∉ index.current.keys := by
    rw [migrating.keys]
    exact fun stored => absent (Multiset.mem_of_le
      (Multiset.add_le_add_left (old.upTo_le _)) stored)
  have room : index.current.size < index.current.capacity := by
    have paced := ample.next_step sound.budget (cursor ▸ more)
    have fits : ((Multiset.card admitted + 1 + old.size : Nat) : ℚ) ≤
        index.maxLoad * index.current.capacity := by
      rw [migrating.twice]
      push_cast at paced ⊢
      linarith
    have spare := le_capacity sound.load fits
    have few := migrating.copied_le
    have size := migrating.size
    omega
  obtain ⟨placed, table, ran, inserted, wf, grown, capacity, _⟩ :=
    GenerationTable.place_new index.slotsPerPage sound.table unplaced room
  have next : Migrating hash old (key ::ₘ admitted)
      { index with current := table, liveSize := index.liveSize + 1 } :=
    { migrating with
      table := wf
      twice := capacity.trans migrating.twice
      keys := by
        show table.keys = _
        rw [grown, migrating.keys, Multiset.cons_add]
      nodup := by
        rw [Multiset.cons_add, Multiset.nodup_cons]
        exact ⟨absent, migrating.nodup⟩ }
  obtain ⟨step, final, moved, sound', same, scanned, complete, source⟩ := next.step
    (by rw [Multiset.cons_add, whole, union_val fresh]) sound.budget sound.load
    (by rw [card_union fresh, ← sound.live]) ample rows more (Multiset.card_cons _ _) cursor
  obtain ⟨trace, ran', _, completed, slots, copied, sources⟩ :=
    insert_admitted missing calm rfl (placeCurrent_run ran) inserted moved sound'.checkLoad
  refine ⟨trace, final, ran', sound', same, by rw [slots]; exact scanned, fun ended => ?_⟩
  rw [completed] at ended
  rw [copied, sources, copiedBefore, sourceSize, held]
  exact ⟨complete ended, source⟩

theorem Sound.insert_starting (sound : Sound hash index keys) (fresh : key ∉ keys)
    (held : index.old = none) (crowd : index.crowded) : Admits hash index keys key := by
  have missing : ¬ (index.lookup hash key).found = true := mt (sound.lookup_found key).mp fresh
  obtain ⟨current, ample, rows⟩ := sound.idle held
  have unplaced : key ∉ index.current.keys := by rwa [current]
  have rowsOf : index.current.size = keys.card := by
    rw [sound.table.size, current]
    rfl
  have calm : decide index.crowded = true := decide_eq_true crowd
  have power : ∃ k, index.current.capacity * 2 = 2 ^ k := by
    obtain ⟨k, power⟩ := sound.table.power
    exact ⟨k + 1, by rw [power, pow_succ]⟩
  have wide := capacity_pos sound.table
  obtain ⟨placed, table, ran, inserted, wf, grown, capacity, _⟩ :=
    GenerationTable.place_new index.slotsPerPage (GenerationTable.create_wf hash power)
      (by rw [GenerationTable.create_keys]; exact Multiset.notMem_zero key)
      (show 0 < index.current.capacity * 2 by omega)
  have begun : startMigration index = .ok ⟨⟩ { index with
      old := some index.current
      current := .create (index.current.capacity * 2)
      migrationCursor := 0
      migrationId := index.migrationId + 1
      migrationSourceRows := index.current.size
      migrationCopiedTotal := 0 } := by
    unfold startMigration
    rw [bind_of_ok (get_run index), if_neg (by simp [held])]
    rfl
  have next : Migrating hash index.current {key} { index with
      old := some index.current
      current := table
      migrationCursor := 0
      migrationId := index.migrationId + 1
      migrationSourceRows := index.current.size
      migrationCopiedTotal := 0
      liveSize := index.liveSize + 1 } :=
    { held := rfl
      table := wf
      source := sound.table
      twice := capacity
      sourceRows := rfl
      copied := rfl
      keys := by
        show table.keys = _
        rw [grown, GenerationTable.create_keys]
        rfl
      nodup := by
        rw [Multiset.singleton_add, Multiset.nodup_cons]
        exact ⟨unplaced, Multiset.coe_nodup.mpr sound.table.slots.nodup⟩ }
  obtain ⟨step, final, moved, sound', same, scanned, complete, source⟩ := next.step
    (by rw [Multiset.singleton_add, current, union_val fresh]) sound.budget sound.load
    (by rw [card_union fresh, ← sound.live]) ample (by rw [rowsOf]; exact rows) wide
    (Multiset.card_singleton key) (Nat.zero_mul _).symm
  obtain ⟨trace, ran', _, completed, slots, copied, sources⟩ :=
    insert_admitted missing calm (by simp only [if_true]; exact begun) (placeCurrent_run ran)
      inserted moved sound'.checkLoad
  refine ⟨trace, final, ran', sound', same, by rw [slots]; exact scanned, fun ended => ?_⟩
  rw [completed] at ended
  rw [copied, sources, copiedBefore, sourceSize, held]
  exact ⟨complete ended, source⟩

theorem Sound.insert_idle (sound : Sound hash index keys) (fresh : key ∉ keys)
    (held : index.old = none) (crowd : ¬ index.crowded) : Admits hash index keys key := by
  have missing : ¬ (index.lookup hash key).found = true := mt (sound.lookup_found key).mp fresh
  obtain ⟨current, ample, rows⟩ := sound.idle held
  have unplaced : key ∉ index.current.keys := by rwa [current]
  have rowsOf : index.current.size = keys.card := by
    rw [sound.table.size, current]
    rfl
  have calm : decide index.crowded = false := decide_eq_false crowd
  have positive : (0 : ℚ) < index.current.capacity := by
    exact_mod_cast capacity_pos sound.table
  have fits : ((keys.card + 1 : Nat) : ℚ) ≤ index.maxLoad * index.current.capacity := by
    have spare := not_lt.mp fun above => crowd ⟨held, above⟩
    rw [div_le_iff₀ positive, sound.live] at spare
    exact_mod_cast spare
  have room : index.current.size < index.current.capacity := by
    have spare := le_capacity sound.load fits
    omega
  obtain ⟨placed, table, ran, inserted, wf, grown, capacity, _⟩ :=
    GenerationTable.place_new index.slotsPerPage sound.table unplaced room
  have sound' : Sound hash { index with current := table, liveSize := index.liveSize + 1 }
      (keys ∪ {key}) := by
    refine ⟨sound.budget, sound.load, wf, by rw [card_union fresh, ← sound.live],
      fun _ => ⟨by rw [union_val fresh, ← current]; exact grown, ?_, ?_⟩, fun old running => ?_⟩
    · show Ample _ _ table.capacity
      rw [capacity]
      exact ample
    · show _ ≤ index.maxLoad * table.capacity
      rw [capacity, card_union fresh]
      exact fits
    · rw [show index.old = some old from running] at held
      cases held
  have moved : migrateStep hash { index with
      current := table, liveSize := index.liveSize + 1 } =
        .ok ⟨0, 0, 0, 0, 0, false, 0, 0⟩ { index with
          current := table, liveSize := index.liveSize + 1 } := by
    unfold migrateStep
    rw [bind_of_ok (get_run _)]
    simp only [held]
    rfl
  obtain ⟨trace, ran', _, completed, slots, _, _⟩ :=
    insert_admitted missing calm rfl (placeCurrent_run ran) inserted moved sound'.checkLoad
  refine ⟨trace, _, ran', sound', rfl, by rw [slots]; exact Nat.zero_le _, fun ended => ?_⟩
  rw [completed] at ended
  cases ended

theorem Sound.insert_new (sound : Sound hash index keys) (fresh : key ∉ keys) :
    Admits hash index keys key := by
  cases held : index.old with
  | some old => exact sound.insert_running fresh held
  | none =>
      by_cases crowd : index.crowded
      · exact sound.insert_starting fresh held crowd
      · exact sound.insert_idle fresh held crowd

end IncrementalHashIndex

open IncrementalHashIndex

/-- Sequences of insert calls on a new index; the keys are those of the calls that returned. -/
inductive Calls (hash : String → Nat) (initialCapacity slotsPerPage : Nat) (maxLoad : ℚ)
    (budget : Nat) : IncrementalHashIndex → Finset String → Prop
  | start (index : IncrementalHashIndex)
      (created : initIndex initialCapacity slotsPerPage maxLoad budget = .ok index) :
      Calls hash initialCapacity slotsPerPage maxLoad budget index ∅
  | insert {index : IncrementalHashIndex} {keys : Finset String}
      (before : Calls hash initialCapacity slotsPerPage maxLoad budget index keys) (key : String) :
      Calls hash initialCapacity slotsPerPage maxLoad budget
        (finalState (IncrementalHashIndex.insert hash key index))
        (if returned (IncrementalHashIndex.insert hash key index) then keys ∪ {key} else keys)

theorem initIndex_sound {initialCapacity slotsPerPage : Nat} {index : IncrementalHashIndex}
    (ample : Ample maxLoad budget initialCapacity)
    (created : initIndex initialCapacity slotsPerPage maxLoad budget = .ok index) :
    Sound hash index ∅ ∧ index.migrationSlotBudget = budget := by
  unfold initIndex at created
  split at created
  · cases created
  rename_i capacity
  split at created
  · cases created
  split at created
  · cases created
  rename_i load
  split at created
  · cases created
  rename_i some_budget
  cases created
  simp only [not_or, not_not] at capacity load
  obtain ⟨k, power⟩ := (Nat.and_sub_one_eq_zero_iff_isPowerOfTwo capacity.1).mp capacity.2
  have wf := GenerationTable.create_wf hash ⟨k, power⟩
  refine ⟨⟨Nat.pos_of_ne_zero some_budget, load.2, wf, rfl, fun _ => ⟨?_, ample, ?_⟩,
    fun _ none => by cases none⟩, rfl⟩
  · exact GenerationTable.create_keys initialCapacity
  · have positive : (0 : ℚ) ≤ initialCapacity := Nat.cast_nonneg _
    show ((0 : Nat) : ℚ) ≤ maxLoad * initialCapacity
    rw [Nat.cast_zero]
    exact mul_nonneg load.1.le positive

theorem Calls.sound {initialCapacity slotsPerPage : Nat} {index : IncrementalHashIndex}
    {keys : Finset String}
    (calls : Calls hash initialCapacity slotsPerPage maxLoad budget index keys)
    (ample : Ample maxLoad budget initialCapacity) :
    Sound hash index keys ∧ index.migrationSlotBudget = budget := by
  induction calls with
  | start index created => exact initIndex_sound ample created
  | insert before key ih =>
      obtain ⟨sound, same⟩ := ih
      rename_i index keys
      by_cases stored : key ∈ keys
      · rw [sound.insert_duplicate stored]
        exact ⟨sound, same⟩
      · obtain ⟨trace, final, ran, kept, same', _⟩ := sound.insert_new stored
        rw [ran]
        exact ⟨kept, same'.trans same⟩

/-- With an ample budget an insert of a new key always returns: the index never has more than two
generations, of which the older one is half as large, and a lookup finds the inserted keys at every
cursor. A repeated key is refused and changes nothing. -/
theorem ample_index_exact {initialCapacity slotsPerPage : Nat} {index : IncrementalHashIndex}
    {keys : Finset String}
    (ample : (⌈(initialCapacity : ℚ) / budget⌉₊ : ℚ) ≤ maxLoad * initialCapacity)
    (calls : Calls hash initialCapacity slotsPerPage maxLoad budget index keys) :
    (∀ key, (index.lookup hash key).found = true ↔ key ∈ keys) ∧
    (∀ old, index.old = some old → index.current.capacity = old.capacity * 2 ∧
      index.migrationCursor < old.capacity) ∧
    (∀ key ∈ keys, IncrementalHashIndex.insert hash key index =
      .error (.valueError ("duplicate key: " ++ key)) index) ∧
    ∀ key ∉ keys, ∃ trace final, IncrementalHashIndex.insert hash key index = .ok trace final ∧
      trace.migrationSourceSlotsScanned ≤ budget ∧
      (trace.migrationCompleted = true →
        index.copiedBefore + trace.migrationRowsCopied = trace.migrationSourceRows ∧
          trace.migrationSourceRows = index.sourceSize) := by
  obtain ⟨sound, same⟩ := calls.sound ample
  refine ⟨sound.lookup_found, fun old held => ?_, fun key stored => sound.insert_duplicate stored,
    fun key fresh => ?_⟩
  · obtain ⟨_, migrating, _, _, _, more, _⟩ := sound.running old held
    exact ⟨migrating.twice, more⟩
  · obtain ⟨trace, final, ran, _, _, scanned, complete⟩ := sound.insert_new fresh
    exact ⟨trace, final, ran, same ▸ scanned, complete⟩

/-- The index and the keys it was given, after some calls. -/
def afterCalls (hash : String → Nat) (index : IncrementalHashIndex) (keys : Finset String) :
    List String → IncrementalHashIndex × Finset String
  | [] => (index, keys)
  | key :: calls =>
      let result := IncrementalHashIndex.insert hash key index
      afterCalls hash (finalState result) (if returned result then keys ∪ {key} else keys) calls

theorem Calls.afterCalls {initialCapacity slotsPerPage : Nat} {index : IncrementalHashIndex}
    {keys : Finset String}
    (before : Calls hash initialCapacity slotsPerPage maxLoad budget index keys)
    (calls : List String) :
    Calls hash initialCapacity slotsPerPage maxLoad budget
      (afterCalls hash index keys calls).1 (afterCalls hash index keys calls).2 := by
  induction calls generalizing index keys with
  | nil => exact before
  | cons key calls ih => exact ih (before.insert key)

/-- Eight slots, half of them to be used, two to be scanned with each insert; then five keys and a
repeated one. The fifth key starts a migration. -/
def halfMigrated : IncrementalHashIndex × Finset String :=
  afterCalls String.length ⟨4, 1 / 2, 2, .create 8, none, 0, 0, 0, 0, 0⟩ ∅
    ["a", "b", "c", "a", "d", "e"]

theorem halfMigrated_calls :
    Calls String.length 8 4 (1 / 2) 2 halfMigrated.1 halfMigrated.2 := by
  have masked : 8 &&& 7 = 0 := by decide
  have created : initIndex 8 4 (1 / 2) 2 = .ok ⟨4, 1 / 2, 2, .create 8, none, 0, 0, 0, 0, 0⟩ := by
    norm_num [initIndex, masked]
  exact Calls.afterCalls (.start _ created) _

theorem ample_index_exact_sample :
    halfMigrated.1.old.isSome = true ∧ halfMigrated.1.migrationCursor = 2 ∧
    (halfMigrated.1.lookup String.length "d").found = true ∧
    IncrementalHashIndex.insert String.length "a" halfMigrated.1 =
      .error (.valueError "duplicate key: a") halfMigrated.1 ∧
    ∃ trace final, IncrementalHashIndex.insert String.length "f" halfMigrated.1 =
      .ok trace final ∧ trace.migrationSourceSlotsScanned ≤ 2 ∧
        (trace.migrationCompleted = true →
          halfMigrated.1.copiedBefore + trace.migrationRowsCopied = trace.migrationSourceRows ∧
            trace.migrationSourceRows = halfMigrated.1.sourceSize) := by
  have ample : (⌈((8 : Nat) : ℚ) / (2 : Nat)⌉₊ : ℚ) ≤ 1 / 2 * ((8 : Nat) : ℚ) := by norm_num
  obtain ⟨found, _, repeated, new⟩ := ample_index_exact ample halfMigrated_calls
  exact ⟨by decide +kernel, by decide +kernel, (found "d").mpr (by decide +kernel),
    repeated "a" (by decide +kernel), new "f" (by decide +kernel)⟩

end DurableContext.IncrementalHash
