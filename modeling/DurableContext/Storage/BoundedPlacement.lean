import DurableContext.Storage.FixedPage
import Mathlib.Data.Int.Bitwise
import Mathlib.Data.Nat.Bitwise

/-! `BoundedBucketCuckooIndex`: two-choice placement with a bounded number of evictions, a finite
stash, and a log by which a refused insert takes its evictions back.

The hash is a parameter throughout, and so is the override of the bucket pair. -/

namespace DurableContext

open BucketTable

structure CuckooOptions where
  bucketSize : Nat := 4
  maxKicks : Nat := 32
  stashCapacity : Nat := 8
  bucketPairOverride : Option (String → Int × Int) := none

structure BoundedBucketCuckooIndex where
  capacitySlots : Nat
  bucketSize : Nat
  bucketCount : Nat
  maxKicks : Nat
  stashCapacity : Nat
  bucketPairOverride : Option (String → Int × Int)
  buckets : Buckets String
  stash : List String
  size : Nat

structure CuckooInsertTrace where
  key : String
  success : Bool
  stashed : Bool
  bucketSlotInspections : Nat
  relocations : Nat
  stashWrite : Nat
  rollbackWrites : Nat
  mutationSlotWork : Nat
  deriving DecidableEq, Repr

structure CuckooLookupTrace where
  key : String
  found : Bool
  bucketSlotInspections : Nat
  stashInspections : Nat
  pageProbes : Nat
  deriving DecidableEq, Repr

/-- Where the evictions of an insert end: the key still without a slot, if any, what was looked at
and moved, and the log of the overwritten keys. -/
structure Kicked where
  homeless : Option String
  buckets : Buckets String
  inspections : Nat
  relocations : Nat
  rollbackLog : List (Nat × Nat × String)

namespace Kicked

def inspect (sofar : Kicked) (scanned : Nat) : Kicked :=
  { sofar with inspections := sofar.inspections + scanned }

/-- The current key takes the slot of the victim, which goes into the log. -/
def relocate (sofar : Kicked) (target slot : Nat) (current victim : String) : Kicked where
  homeless := sofar.homeless
  buckets := put sofar.buckets target slot (some current)
  inspections := sofar.inspections
  relocations := sofar.relocations + 1
  rollbackLog := sofar.rollbackLog ++ [(target, slot, victim)]

end Kicked

namespace BoundedBucketCuckooIndex

def fresh (capacitySlots : Nat) (options : CuckooOptions) : BoundedBucketCuckooIndex where
  capacitySlots := capacitySlots
  bucketSize := options.bucketSize
  bucketCount := capacitySlots / options.bucketSize
  maxKicks := options.maxKicks
  stashCapacity := options.stashCapacity
  bucketPairOverride := options.bucketPairOverride
  buckets := fun bucket =>
    if bucket < capacitySlots / options.bucketSize then List.replicate options.bucketSize none
    else []
  stash := []
  size := 0

def create (capacitySlots : Nat) (options : CuckooOptions) :
    Except StoreError BoundedBucketCuckooIndex :=
  let bucketCount := capacitySlots / options.bucketSize
  if capacitySlots = 0 ∨ capacitySlots &&& (capacitySlots - 1) ≠ 0 then
    .error (.valueError "capacity_slots must be a positive power of two")
  else if options.bucketSize = 0 ∨ capacitySlots % options.bucketSize ≠ 0 then
    .error (.valueError "bucket_size must divide capacity_slots")
  else if bucketCount ≤ 1 ∨ bucketCount &&& (bucketCount - 1) ≠ 0 then
    .error (.valueError "bucket count must be a power of two greater than one")
  else if options.maxKicks = 0 then .error (.valueError "max_kicks must be positive")
  else .ok (fresh capacitySlots options)

section Methods

variable (hash : Hash) (index : BoundedBucketCuckooIndex)

def bucketPair (key : String) : Nat × Nat :=
  let mask := index.bucketCount - 1
  let (first, second) := match index.bucketPairOverride with
    | some override =>
        ((Int.land (override key).1 mask).toNat, (Int.land (override key).2 mask).toNat)
    | none => (hash key .hashKey1 &&& mask, hash key .hashKey2 &&& mask)
  if second = first then (first, (second + 1) &&& mask) else (first, second)

/-- `_first_empty`: the first empty slot, and how many slots were looked at. -/
def firstEmptySlot (slots : List (Option String)) : Option Nat × Nat :=
  match firstEmpty slots with
  | some slot => (some slot, slot + 1)
  | none => (none, slots.length)

def victimSlot (key : String) (kick : Nat) : Nat :=
  hash (key ++ "|" ++ toString kick) .victimKey % index.bucketSize

def theoreticalMaxMutationSlotWork : Nat :=
  2 * index.bucketSize + index.maxKicks * index.bucketSize + index.maxKicks + index.maxKicks

/-- The loop over `range(max_kicks)`. -/
def kickLoop : Nat → Nat → String → Nat → Kicked → Except StoreError Kicked
  | 0, _, current, _, sofar => .ok { sofar with homeless := some current }
  | left + 1, kick, current, target, sofar =>
      let (empty, scanned) := firstEmptySlot (sofar.buckets target)
      let sofar := sofar.inspect scanned
      match empty with
      | some slot => .ok { sofar with
          homeless := none, buckets := put sofar.buckets target slot (some current) }
      | none =>
          let slot := victimSlot hash index current kick
          match (sofar.buckets target)[slot]?.join with
          | none =>
              .error (.assertionError "full bucket unexpectedly contained an empty slot")
          | some victim =>
              let sofar := sofar.relocate target slot current victim
              let (victimFirst, victimSecond) := bucketPair hash index victim
              if victimFirst = target then kickLoop left (kick + 1) victim victimSecond sofar
              else if victimSecond = target then
                kickLoop left (kick + 1) victim victimFirst sofar
              else .error (.assertionError "evicted key was not stored in a candidate bucket")

def insert (key : String) : Except StoreError (CuckooInsertTrace × BoundedBucketCuckooIndex) :=
  let (first, second) := bucketPair hash index key
  let (empty, inspections) := firstEmptySlot (index.buckets first)
  match empty with
  | some slot => .ok (⟨key, true, false, inspections, 0, 0, 0, inspections⟩, { index with
      buckets := put index.buckets first slot (some key), size := index.size + 1 })
  | none =>
    let (empty, scanned) := firstEmptySlot (index.buckets second)
    let inspections := inspections + scanned
    match empty with
    | some slot => .ok (⟨key, true, false, inspections, 0, 0, 0, inspections⟩, { index with
        buckets := put index.buckets second slot (some key), size := index.size + 1 })
    | none => do
        let target := if hash key .choiceKey &&& 1 = 0 then first else second
        let kicked ← kickLoop hash index index.maxKicks 0 key target
          ⟨none, index.buckets, inspections, 0, []⟩
        let work := kicked.inspections + kicked.relocations
        match kicked.homeless with
        | none => .ok (⟨key, true, false, kicked.inspections, kicked.relocations, 0, 0, work⟩,
            { index with buckets := kicked.buckets, size := index.size + 1 })
        | some current =>
            if index.stash.length < index.stashCapacity then
              .ok (⟨key, true, true, kicked.inspections, kicked.relocations, 1, 0, work + 1⟩,
                { index with
                  buckets := kicked.buckets
                  stash := index.stash ++ [current]
                  size := index.size + 1 })
            else
              let rollbackWrites := kicked.rollbackLog.length
              .ok (⟨key, false, false, kicked.inspections, kicked.relocations, 0, rollbackWrites,
                  work + rollbackWrites⟩,
                { index with buckets := undo kicked.buckets kicked.rollbackLog })

/-- Looks for the key up to the first empty slot; also the number of slots looked at. -/
def scan (key : String) : List (Option String) → Bool × Nat
  | [] => (false, 0)
  | none :: _ => (false, 1)
  | some current :: rest =>
      if current = key then (true, 1)
      else
        let (found, inspections) := scan key rest
        (found, inspections + 1)

def lookup (key : String) : CuckooLookupTrace :=
  let (first, second) := bucketPair hash index key
  let (found, inspections) := scan key (index.buckets first)
  let pages : Finset Nat := {first}
  if found then ⟨key, true, inspections, 0, pages.card⟩
  else
    let (found, scanned) := scan key (index.buckets second)
    let inspections := inspections + scanned
    let pages := Insert.insert second pages
    if found then ⟨key, true, inspections, 0, pages.card⟩
    else
      -- the stash is one more page, if there is anything in it
      let probes := pages.card + if index.stash = [] then 0 else 1
      let (found, stashInspections) := scan key (index.stash.map some)
      ⟨key, found, inspections, stashInspections, probes⟩

end Methods

/-! ### What the buckets hold -/

/-- The buckets as a table; the stash is kept apart from it. -/
def placement (hash : Hash) (index : BoundedBucketCuckooIndex) : Scheme String where
  buckets := index.bucketCount
  bucketSize := index.bucketSize
  stashSize := 0
  kicks := index.maxKicks
  first := fun key => (bucketPair hash index key).1
  second := fun key => (bucketPair hash index key).2
  startsFirst := fun key => hash key .choiceKey &&& 1 = 0
  victim := victimSlot hash index

/-- The keys admitted so far are those of the buckets and of the stash. -/
structure Sound (hash : Hash) (index : BoundedBucketCuckooIndex) (admitted : Multiset String) :
    Prop where
  valid : (placement hash index).Valid
  kicks : 0 < index.maxKicks
  table : BucketTable.Wf (placement hash index) index.buckets
  packed : ∀ bucket, Packed (index.buckets bucket)
  kept : contents (placement hash index) index.buckets + index.stash = admitted
  size : index.size = Multiset.card admitted

theorem firstEmptySlot_scanned (slots : List (Option String)) :
    (firstEmptySlot slots).1 = firstEmpty slots ∧ (firstEmptySlot slots).2 ≤ slots.length := by
  unfold firstEmptySlot
  cases found : firstEmpty slots with
  | none => exact ⟨rfl, le_rfl⟩
  | some slot =>
      obtain ⟨inside, _⟩ := List.getElem?_eq_some_iff.mp (firstEmpty_some found)
      exact ⟨rfl, inside⟩

theorem getElem_of_full {slots : List (Option String)} (full : firstEmpty slots = none) {slot : Nat}
    (inside : slot < slots.length) : ∃ key, slots[slot]? = some (some key) := by
  rw [List.getElem?_eq_getElem inside]
  cases held : slots[slot] with
  | some key => exact ⟨key, rfl⟩
  | none =>
      rw [firstEmpty, List.findIdx?_eq_none_iff] at full
      have occupied := full none (held ▸ List.getElem_mem inside)
      cases occupied

section Kicks

variable {hash : Hash} {index : BoundedBucketCuckooIndex}

structure Relocated (hash : Hash) (index : BoundedBucketCuckooIndex) (left : Nat) (current : String)
    (sofar kicked : Kicked) : Prop where
  table : BucketTable.Wf (placement hash index) kicked.buckets
  packed : ∀ bucket, Packed (kicked.buckets bucket)
  kept : contents (placement hash index) kicked.buckets + entry kicked.homeless =
    current ::ₘ contents (placement hash index) sofar.buckets
  undone : kicked.homeless ≠ none →
    undo kicked.buckets kicked.rollbackLog = undo sofar.buckets sofar.rollbackLog
  logged : kicked.rollbackLog.length = kicked.relocations
  moved : kicked.relocations ≤ sofar.relocations + left
  inspected : kicked.inspections ≤ sofar.inspections + left * index.bucketSize

theorem packed_put {table : Buckets String} (packed : ∀ bucket, Packed (table bucket))
    {bucket slot : Nat} {entry : Option String}
    (here : Packed ((table bucket).set slot entry)) (other : Nat) :
    Packed (put table bucket slot entry other) := by
  by_cases same : other = bucket
  · rw [same, put_self]
    exact here
  · rw [put_other table same]
    exact packed other

/-- The loop never raises: a full bucket has a key in every slot, and that key belongs there. -/
theorem kickLoop_spec (valid : (placement hash index).Valid) (left kick : Nat) {current : String}
    {target : Nat} (sofar : Kicked)
    (wf : BucketTable.Wf (placement hash index) sofar.buckets)
    (packed : ∀ bucket, Packed (sofar.buckets bucket))
    (fits : target = (placement hash index).first current ∨
      target = (placement hash index).second current)
    (logged : sofar.rollbackLog.length = sofar.relocations) :
    ∃ kicked, kickLoop hash index left kick current target sofar = .ok kicked ∧
      Relocated hash index left current sofar kicked := by
  induction left generalizing kick current target sofar with
  | zero =>
      refine ⟨_, rfl, wf, packed, ?_, fun _ => rfl, logged, le_rfl, ?_⟩
      · simp [add_comm, Multiset.singleton_add]
      · simp
  | succ left ih =>
      have inside : target < (placement hash index).buckets := by
        rcases fits with rfl | rfl
        · exact valid.first_lt current
        · exact valid.second_lt current
      have size : (sofar.buckets target).length = index.bucketSize := by
        rw [wf.shape target inside.le, Scheme.slotsAt, if_neg inside.ne]
        rfl
      obtain ⟨empty, scanned⟩ := firstEmptySlot_scanned (sofar.buckets target)
      rw [size] at scanned
      have budget : (left + 1) * index.bucketSize = index.bucketSize + left * index.bucketSize := by
        ring
      have kept : (sofar.inspect (firstEmptySlot (sofar.buckets target)).2).buckets =
          sofar.buckets := rfl
      simp only [kickLoop, empty, kept]
      cases found : firstEmpty (sofar.buckets target) with
      | some slot =>
          have fitsHere : target = (placement hash index).first current ∨
              target = (placement hash index).second current ∨
              target = (placement hash index).buckets := by
            rcases fits with atFirst | atSecond
            · exact Or.inl atFirst
            · exact Or.inr (Or.inl atSecond)
          obtain ⟨put_wf, grown⟩ := place_step wf inside.le fitsHere found
          refine ⟨_, rfl, put_wf, packed_put packed ((packed target).fill found current), ?_,
            fun none => absurd rfl none, logged, Nat.le_add_right _ _, ?_⟩
          · simpa using grown
          · simp only [Kicked.inspect]
            omega
      | none =>
          have slotInside : victimSlot hash index current kick < (sofar.buckets target).length := by
            rw [size]
            exact valid.victim_lt current kick
          obtain ⟨victim, held⟩ := getElem_of_full found slotInside
          obtain ⟨put_wf, swapped, homed⟩ := swap_step wf inside fits held
          simp only [held, Option.join_some]
          have next : ∀ bucket, (bucket = (placement hash index).first victim ∨
              bucket = (placement hash index).second victim) →
              ∃ kicked, kickLoop hash index left (kick + 1) victim bucket
                  ((sofar.inspect (firstEmptySlot (sofar.buckets target)).2).relocate target
                    (victimSlot hash index current kick) current victim) = .ok kicked ∧
                Relocated hash index (left + 1) current sofar kicked := by
            intro bucket fits
            obtain ⟨kicked, ran, after⟩ := ih (kick + 1)
              ((sofar.inspect (firstEmptySlot (sofar.buckets target)).2).relocate target
                (victimSlot hash index current kick) current victim) put_wf
              (packed_put packed ((packed target).swap held current)) fits
              (by simp [Kicked.relocate, Kicked.inspect, logged])
            refine ⟨kicked, ran, after.table, after.packed, ?_, ?_, after.logged, ?_, ?_⟩
            · exact after.kept.trans swapped
            · intro homeless
              exact (after.undone homeless).trans (undo_put sofar.buckets held _ _)
            · have moved := after.moved
              simp only [Kicked.relocate, Kicked.inspect] at moved
              omega
            · have inspected := after.inspected
              simp only [Kicked.relocate, Kicked.inspect] at inspected
              omega
          by_cases atFirst : (bucketPair hash index victim).1 = target
          · rw [if_pos atFirst]
            exact next _ (Or.inr rfl)
          · have atSecond : (bucketPair hash index victim).2 = target := by
              rcases homed with first | second
              · exact absurd first.symm atFirst
              · exact second.symm
            rw [if_neg atFirst, if_pos atSecond]
            exact next _ (Or.inl rfl)

end Kicks

end BoundedBucketCuckooIndex

end DurableContext
