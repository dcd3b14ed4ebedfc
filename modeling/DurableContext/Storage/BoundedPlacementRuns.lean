import DurableContext.Storage.BoundedPlacement

/-! Runs of inserts into a bounded placement: what is admitted stays found, and what is refused
leaves no trace. -/

namespace DurableContext.BoundedBucketCuckooIndex

open BucketTable

/-! ### Inserts -/

section Inserts

variable {hash : Hash} {index : BoundedBucketCuckooIndex} {admitted : Multiset String}

theorem Sound.length (sound : Sound hash index admitted) {bucket : Nat}
    (inside : bucket < index.bucketCount) :
    (index.buckets bucket).length = index.bucketSize := by
  rw [sound.table.shape bucket inside.le, Scheme.slotsAt]
  exact if_neg inside.ne

theorem Sound.fill (sound : Sound hash index admitted) {key : String} {bucket slot : Nat}
    (fits : bucket = (placement hash index).first key ∨
      bucket = (placement hash index).second key)
    (found : firstEmpty (index.buckets bucket) = some slot) :
    Sound hash { index with
      buckets := put index.buckets bucket slot (some key), size := index.size + 1 }
      (key ::ₘ admitted) := by
  have inside : bucket < (placement hash index).buckets := by
    rcases fits with rfl | rfl
    · exact sound.valid.first_lt key
    · exact sound.valid.second_lt key
  have fitsHere : bucket = (placement hash index).first key ∨
      bucket = (placement hash index).second key ∨ bucket = (placement hash index).buckets := by
    rcases fits with atFirst | atSecond
    · exact Or.inl atFirst
    · exact Or.inr (Or.inl atSecond)
  obtain ⟨put_wf, grown⟩ := place_step sound.table inside.le fitsHere found
  refine ⟨sound.valid, sound.kicks, put_wf,
    packed_put sound.packed ((sound.packed bucket).fill found key), ?_, ?_⟩
  · calc
      _ = (key ::ₘ contents (placement hash index) index.buckets) + index.stash :=
        congrArg (· + (index.stash : Multiset String)) grown
      _ = key ::ₘ (contents (placement hash index) index.buckets + index.stash) :=
        Multiset.cons_add _ _ _
      _ = key ::ₘ admitted := by rw [sound.kept]
  · simp [sound.size]

theorem Sound.relocated (sound : Sound hash index admitted) {key : String} {left : Nat}
    {start kicked : Kicked} (same : start.buckets = index.buckets)
    (after : Relocated hash index left key start kicked) (settled : kicked.homeless = none) :
    Sound hash { index with buckets := kicked.buckets, size := index.size + 1 }
      (key ::ₘ admitted) := by
  have kept := after.kept
  rw [settled, entry_none, add_zero, same] at kept
  refine ⟨sound.valid, sound.kicks, after.table, after.packed, ?_, ?_⟩
  · calc
      _ = (key ::ₘ contents (placement hash index) index.buckets) + index.stash :=
        congrArg (· + (index.stash : Multiset String)) kept
      _ = key ::ₘ (contents (placement hash index) index.buckets + index.stash) :=
        Multiset.cons_add _ _ _
      _ = key ::ₘ admitted := by rw [sound.kept]
  · simp [sound.size]

theorem Sound.stashed (sound : Sound hash index admitted) {key current : String} {left : Nat}
    {start kicked : Kicked} (same : start.buckets = index.buckets)
    (after : Relocated hash index left key start kicked)
    (homeless : kicked.homeless = some current) :
    Sound hash { index with
      buckets := kicked.buckets, stash := index.stash ++ [current], size := index.size + 1 }
      (key ::ₘ admitted) := by
  have kept := after.kept
  rw [homeless, entry_some, same] at kept
  refine ⟨sound.valid, sound.kicks, after.table, after.packed, ?_, ?_⟩
  · calc
      _ = (contents (placement hash index) kicked.buckets + {current}) + index.stash := by
        rw [← Multiset.coe_add, Multiset.coe_singleton]
        exact (add_assoc _ _ _).symm.trans (add_right_comm _ _ _)
      _ = (key ::ₘ contents (placement hash index) index.buckets) + index.stash := by rw [kept]
      _ = key ::ₘ (contents (placement hash index) index.buckets + index.stash) :=
        Multiset.cons_add _ _ _
      _ = key ::ₘ admitted := by rw [sound.kept]
  · simp [sound.size]

theorem insert_spec (sound : Sound hash index admitted) (key : String) :
    ∃ trace next, insert hash index key = .ok (trace, next) ∧
      trace.mutationSlotWork ≤ index.theoreticalMaxMutationSlotWork ∧
      (trace.success = true → Sound hash next (key ::ₘ admitted)) ∧
      (trace.success = false → next = index) := by
  have firstInside : (bucketPair hash index key).1 < index.bucketCount := sound.valid.first_lt key
  have secondInside : (bucketPair hash index key).2 < index.bucketCount :=
    sound.valid.second_lt key
  obtain ⟨firstFound, firstScanned⟩ := firstEmptySlot_scanned
    (index.buckets (bucketPair hash index key).1)
  obtain ⟨secondFound, secondScanned⟩ := firstEmptySlot_scanned
    (index.buckets (bucketPair hash index key).2)
  rw [sound.length firstInside] at firstScanned
  rw [sound.length secondInside] at secondScanned
  simp only [insert, firstFound, secondFound, theoreticalMaxMutationSlotWork]
  cases first : firstEmpty (index.buckets (bucketPair hash index key).1) with
  | some slot =>
      refine ⟨_, _, rfl, ?_, fun _ => sound.fill (Or.inl rfl) first,
        fun refused => by cases refused⟩
      simp only
      omega
  | none =>
      simp only
      cases second : firstEmpty (index.buckets (bucketPair hash index key).2) with
      | some slot =>
          refine ⟨_, _, rfl, ?_, fun _ => sound.fill (Or.inr rfl) second,
            fun refused => by cases refused⟩
          simp only
          omega
      | none =>
          have fits : (if hash key .choiceKey &&& 1 = 0 then (bucketPair hash index key).1
                else (bucketPair hash index key).2) = (placement hash index).first key ∨
              (if hash key .choiceKey &&& 1 = 0 then (bucketPair hash index key).1
                else (bucketPair hash index key).2) = (placement hash index).second key := by
            split
            · exact Or.inl rfl
            · exact Or.inr rfl
          obtain ⟨kicked, ran, after⟩ := kickLoop_spec sound.valid index.maxKicks 0
            ⟨none, index.buckets, (firstEmptySlot (index.buckets (bucketPair hash index key).1)).2 +
              (firstEmptySlot (index.buckets (bucketPair hash index key).2)).2, 0, []⟩
            sound.table sound.packed fits rfl
          have moved := after.moved
          have inspected := after.inspected
          have kicks := sound.kicks
          simp only at moved inspected
          simp only
          rw [Program.ok_bind ran]
          cases homeless : kicked.homeless with
          | none =>
              refine ⟨_, _, rfl, ?_, fun _ => sound.relocated rfl after homeless,
                fun refused => by cases refused⟩
              simp only
              omega
          | some current =>
              simp only
              by_cases room : index.stash.length < index.stashCapacity
              · rw [if_pos room]
                refine ⟨_, _, rfl, ?_, fun _ => sound.stashed rfl after homeless,
                  fun refused => by cases refused⟩
                simp only
                omega
              · rw [if_neg room]
                refine ⟨_, _, rfl, ?_, (fun admits => by cases admits), fun _ => ?_⟩
                · simp only [after.logged]
                  omega
                · have restored : undo kicked.buckets kicked.rollbackLog = index.buckets :=
                    after.undone (by simp [homeless])
                  rw [restored]

end Inserts

/-! ### Lookups -/

theorem scan_found (key : String) {slots : List (Option String)} (packed : Packed slots) :
    (scan key slots).1 = true ↔ some key ∈ slots := by
  induction slots with
  | nil => simp [scan]
  | cons head rest ih =>
      cases head with
      | none =>
          have absent : some key ∉ rest := fun member => by
            cases packed _ member
          simp [scan, absent]
      | some current =>
          by_cases same : current = key
          · simp [scan, same]
          · have later : (scan key rest).1 = true ↔ some key ∈ rest := ih packed
            simp [scan, same, later, Ne.symm same]

/-- Whether the key is in a bucket or in the stash, wherever it is. -/
def Stores (index : BoundedBucketCuckooIndex) (key : String) : Prop :=
  (∃ bucket < index.bucketCount, some key ∈ index.buckets bucket) ∨ key ∈ index.stash

section Lookups

variable {hash : Hash} {index : BoundedBucketCuckooIndex} {admitted : Multiset String}

theorem lookup_found_iff (key : String) (packed : ∀ bucket, Packed (index.buckets bucket)) :
    (lookup hash index key).found = true ↔
      some key ∈ index.buckets (bucketPair hash index key).1 ∨
      some key ∈ index.buckets (bucketPair hash index key).2 ∨ key ∈ index.stash := by
  have first := scan_found key (packed (bucketPair hash index key).1)
  have second := scan_found key (packed (bucketPair hash index key).2)
  have inStash : (scan key (index.stash.map some)).1 = true ↔ key ∈ index.stash := by
    induction index.stash with
    | nil => simp [scan]
    | cons head rest ih =>
        by_cases same : head = key
        · simp [scan, same]
        · simp [scan, same, ih, Ne.symm same]
  simp only [lookup]
  by_cases here : (scan key (index.buckets (bucketPair hash index key).1)).1 = true
  · simp [here, first.mp here]
  · rw [if_neg here]
    by_cases there : (scan key (index.buckets (bucketPair hash index key).2)).1 = true
    · simp [there, second.mp there]
    · rw [if_neg there]
      simp only [inStash]
      rw [first] at here
      rw [second] at there
      simp [here, there]

theorem Sound.stores_iff (sound : Sound hash index admitted) (key : String) :
    index.Stores key ↔ key ∈ admitted := by
  have nothing : index.buckets index.bucketCount = [] := by
    rw [← List.length_eq_zero_iff]
    exact (sound.table.shape index.bucketCount le_rfl).trans (if_pos rfl)
  rw [Stores, ← sound.kept, Multiset.mem_add, mem_contents, Multiset.mem_coe]
  refine or_congr ⟨fun held => ?_, fun held => ?_⟩ Iff.rfl
  · obtain ⟨bucket, inside, here⟩ := held
    exact ⟨bucket, Nat.le_of_lt inside, here⟩
  · obtain ⟨bucket, within, here⟩ := held
    refine ⟨bucket, Nat.lt_of_le_of_ne within fun last => ?_, here⟩
    rw [last] at here
    have none := nothing ▸ here
    cases none

theorem Sound.lookup_iff (sound : Sound hash index admitted) (key : String) :
    (lookup hash index key).found = true ↔ index.Stores key := by
  rw [lookup_found_iff key sound.packed]
  constructor
  · intro found
    rcases found with first | second | stashed
    · exact Or.inl ⟨_, sound.valid.first_lt key, first⟩
    · exact Or.inl ⟨_, sound.valid.second_lt key, second⟩
    · exact Or.inr stashed
  · intro held
    rcases held with ⟨bucket, inside, here⟩ | stashed
    · rcases sound.table.home bucket inside key here with first | second
      · rw [first] at here
        exact Or.inl here
      · rw [second] at here
        exact Or.inr (Or.inl here)
    · exact Or.inr (Or.inr stashed)

end Lookups

/-! ### Runs -/

theorem masked_lt (k value : Nat) : value &&& (2 ^ k - 1) < 2 ^ k := by
  rw [Nat.and_two_pow_sub_one_eq_mod]
  exact Nat.mod_lt _ (by positivity)

theorem land_masked_lt (k : Nat) (value : Int) :
    (Int.land value ((2 ^ k - 1 : Nat) : Int)).toNat < 2 ^ k := by
  cases value with
  | ofNat value => exact masked_lt k value
  | negSucc value =>
      have below : Nat.ldiff (2 ^ k - 1) value < 2 ^ k := by
        refine Nat.lt_pow_two_of_testBit _ fun bit high => ?_
        rw [Nat.testBit_ldiff, Nat.testBit_two_pow_sub_one, decide_eq_false (by omega)]
        rfl
      exact below

theorem bucketPair_lt (hash : Hash) {index : BoundedBucketCuckooIndex} {k : Nat}
    (count : index.bucketCount = 2 ^ k) (key : String) :
    (bucketPair hash index key).1 < 2 ^ k ∧ (bucketPair hash index key).2 < 2 ^ k := by
  simp only [bucketPair, count]
  cases index.bucketPairOverride with
  | none =>
      simp only
      split
      · exact ⟨masked_lt _ _, masked_lt _ _⟩
      · exact ⟨masked_lt _ _, masked_lt _ _⟩
  | some override =>
      simp only
      split
      · exact ⟨land_masked_lt _ _, masked_lt _ _⟩
      · exact ⟨land_masked_lt _ _, land_masked_lt _ _⟩

theorem fresh_buckets (hash : Hash) (capacitySlots : Nat) (options : CuckooOptions) :
    (fresh capacitySlots options).buckets =
      blank (placement hash (fresh capacitySlots options)) := by
  funext bucket
  have made : (fresh capacitySlots options).buckets bucket =
      if bucket < capacitySlots / options.bucketSize then List.replicate options.bucketSize none
      else [] := rfl
  have shown : blank (placement hash (fresh capacitySlots options)) bucket =
      if bucket ≤ capacitySlots / options.bucketSize then
        List.replicate (if bucket = capacitySlots / options.bucketSize then 0
          else options.bucketSize) none
      else [] := rfl
  rw [made, shown]
  rcases Nat.lt_trichotomy bucket (capacitySlots / options.bucketSize) with below | last | above
  · rw [if_pos below, if_pos below.le, if_neg below.ne]
  · rw [if_neg (by omega), if_pos last.le, if_pos last, List.replicate_zero]
  · rw [if_neg above.le.not_gt, if_neg above.not_ge]

theorem create_sound (hash : Hash) {capacitySlots : Nat} {options : CuckooOptions}
    {index : BoundedBucketCuckooIndex} (created : create capacitySlots options = .ok index) :
    Sound hash index 0 := by
  unfold create at created
  simp only at created
  split at created
  · cases created
  split at created
  · cases created
  rename_i divides
  split at created
  · cases created
  rename_i several
  split at created
  · cases created
  rename_i kicks
  cases created
  have slots : 0 < options.bucketSize := by omega
  push Not at several
  obtain ⟨k, count⟩ := (Nat.and_sub_one_eq_zero_iff_isPowerOfTwo (by omega)).mp several.2
  refine ⟨⟨fun key => ?_, fun key => ?_, fun key kick => Nat.mod_lt _ slots⟩,
    Nat.pos_of_ne_zero kicks, ?_, fun bucket => ?_, ?_, rfl⟩
  · exact (bucketPair_lt hash count key).1.trans_eq count.symm
  · exact (bucketPair_lt hash count key).2.trans_eq count.symm
  · rw [fresh_buckets hash]
    exact blank_wf _
  · refine packed_of_empty fun slot member => ?_
    simp only [fresh] at member
    split at member
    · exact List.eq_of_mem_replicate member
    · cases member
  · rw [fresh_buckets hash, contents_blank]
    rfl

/-- Inserts one after another; the keys are those that were admitted. -/
inductive Run (hash : Hash) (capacitySlots : Nat) (options : CuckooOptions) :
    BoundedBucketCuckooIndex → List String → Prop
  | start (index : BoundedBucketCuckooIndex) (created : create capacitySlots options = .ok index) :
      Run hash capacitySlots options index []
  | insert {index next : BoundedBucketCuckooIndex} {admitted : List String} (key : String)
      {trace : CuckooInsertTrace} (before : Run hash capacitySlots options index admitted)
      (ran : insert hash index key = .ok (trace, next)) :
      Run hash capacitySlots options next (if trace.success then key :: admitted else admitted)

theorem Run.sound {hash : Hash} {capacitySlots : Nat} {options : CuckooOptions}
    {index : BoundedBucketCuckooIndex} {admitted : List String}
    (run : Run hash capacitySlots options index admitted) : Sound hash index admitted := by
  induction run with
  | start index created => exact create_sound hash created
  | @insert index next admitted key trace before ran ih =>
      obtain ⟨trace', next', same, _, admits, refuses⟩ := insert_spec ih key
      rw [ran] at same
      cases same
      cases success : trace.success with
      | true =>
          rw [if_pos rfl, ← Multiset.cons_coe]
          exact admits success
      | false =>
          rw [if_neg (by simp), refuses success]
          exact ih

/-- Every insert of a run returns within its bound of work. An admitted key and all before it are
found; a refusal changes nothing; and a lookup misses no stored key. -/
theorem insert_admits_or_restores {hash : Hash} {capacitySlots : Nat} {options : CuckooOptions}
    {index : BoundedBucketCuckooIndex} {admitted : List String}
    (run : Run hash capacitySlots options index admitted) (key : String) :
    (∃ trace next, insert hash index key = .ok (trace, next) ∧
      trace.mutationSlotWork ≤ index.theoreticalMaxMutationSlotWork ∧
      (trace.success = true →
        ∀ earlier ∈ key :: admitted, (lookup hash next earlier).found = true) ∧
      (trace.success = false → next = index)) ∧
    ∀ other, (lookup hash index other).found = true ↔ index.Stores other := by
  have sound := run.sound
  obtain ⟨trace, next, ran, bounded, admits, refuses⟩ := insert_spec sound key
  refine ⟨⟨trace, next, ran, bounded, fun success earlier member => ?_, refuses⟩,
    sound.lookup_iff⟩
  have after := admits success
  rw [after.lookup_iff, after.stores_iff]
  simpa using member

def afterInsert (hash : Hash) (index : BoundedBucketCuckooIndex) (key : String) :
    BoundedBucketCuckooIndex := ((insert hash index key).toOption.map Prod.snd).getD index

theorem Run.afterInsert {hash : Hash} {capacitySlots : Nat} {options : CuckooOptions}
    {index : BoundedBucketCuckooIndex} {admitted : List String}
    (run : Run hash capacitySlots options index admitted) (key : String) :
    ∃ after, Run hash capacitySlots options (afterInsert hash index key) after := by
  obtain ⟨trace, next, ran, _⟩ := insert_spec run.sound key
  have same : BoundedBucketCuckooIndex.afterInsert hash index key = next := by
    rw [BoundedBucketCuckooIndex.afterInsert, ran]
    rfl
  rw [same]
  exact ⟨_, run.insert key ran⟩

def crampedOptions : CuckooOptions := { bucketSize := 1, maxKicks := 1, stashCapacity := 1 }

/-- Two keys in the buckets and one in the stash: no room for a fourth. -/
def crampedIndex : BoundedBucketCuckooIndex :=
  afterInsert (fun _ _ => 0) (afterInsert (fun _ _ => 0) (afterInsert (fun _ _ => 0)
    (fresh 2 crampedOptions) "a") "b") "c"

theorem insert_admits_or_restores_sample :
    (insert (fun _ _ => 0) crampedIndex "d").toOption.map Prod.snd = some crampedIndex ∧
      (lookup (fun _ _ => 0) crampedIndex "a").found = true ∧ crampedIndex.Stores "a" := by
  have start : Run (fun _ _ => 0) 2 crampedOptions (fresh 2 crampedOptions) [] := .start _ rfl
  obtain ⟨_, first⟩ := start.afterInsert "a"
  obtain ⟨_, second⟩ := first.afterInsert "b"
  obtain ⟨_, third⟩ := second.afterInsert "c"
  obtain ⟨⟨trace, next, ran, _, _, refuses⟩, found⟩ := insert_admits_or_restores third "d"
  have refused : ((insert (fun _ _ => 0) crampedIndex "d").toOption.map fun result =>
      result.1.success) = some false := by decide +kernel
  have held : (lookup (fun _ _ => 0) crampedIndex "a").found = true := by decide +kernel
  refine ⟨?_, held, (found "a").mp held⟩
  rw [show insert (fun _ _ => 0) crampedIndex "d" = .ok (trace, next) from ran] at refused ⊢
  have unchanged : next = crampedIndex := refuses (Option.some.inj refused)
  rw [unchanged]
  rfl

end DurableContext.BoundedBucketCuckooIndex
