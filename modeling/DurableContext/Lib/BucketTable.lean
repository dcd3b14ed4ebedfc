import Mathlib.Algebra.Order.BigOperators.Group.Finset
import Mathlib.Algebra.Order.Group.Multiset
import Mathlib.Data.List.ReduceOption
import Mathlib.Tactic.Abel
import Mathlib.Tactic.Ring

/-! Bucketed cuckoo tables with a stash, over any type of keys.

Buckets are numbered from zero and the stash comes right after the last of them. What a table
holds is a multiset, so that a lost or a doubled key shows. -/

namespace DurableContext.BucketTable

variable {K : Type}

/-- The slots of every bucket, by number. -/
abbrev Buckets (K : Type) := Nat → List (Option K)

/-- The sizes of a table and the choices its placement makes. -/
structure Scheme (K : Type) where
  buckets : Nat
  bucketSize : Nat
  stashSize : Nat
  kicks : Nat
  first : K → Nat
  second : K → Nat
  startsFirst : K → Bool
  victim : K → Nat → Nat

structure Scheme.Valid (scheme : Scheme K) : Prop where
  first_lt : ∀ key, scheme.first key < scheme.buckets
  second_lt : ∀ key, scheme.second key < scheme.buckets
  victim_lt : ∀ key kick, scheme.victim key kick < scheme.bucketSize

def Scheme.slotsAt (scheme : Scheme K) (bucket : Nat) : Nat :=
  if bucket = scheme.buckets then scheme.stashSize else scheme.bucketSize

def Scheme.other (scheme : Scheme K) (key : K) (bucket : Nat) : Nat :=
  if scheme.first key = bucket then scheme.second key else scheme.first key

def Scheme.start (scheme : Scheme K) (key : K) : Nat :=
  if scheme.startsFirst key then scheme.first key else scheme.second key

def firstEmpty (slots : List (Option K)) : Option Nat := slots.findIdx? Option.isNone

def put (table : Buckets K) (bucket slot : Nat) (entry : Option K) : Buckets K :=
  Function.update table bucket ((table bucket).set slot entry)

/-- The evictions: the table they leave and the key still without a slot, if any. -/
def walk (scheme : Scheme K) : Nat → Nat → Buckets K → K → Nat → Buckets K × Option K
  | 0, _, table, current, _ => (table, some current)
  | left + 1, kick, table, current, target =>
      let slot := scheme.victim current kick
      let table' := put table target slot (some current)
      match (table target)[slot]?.join with
      | none => (table', none)
      | some evicted => walk scheme left (kick + 1) table' evicted (scheme.other evicted target)

def stash (scheme : Scheme K) (table : Buckets K) (key : K) : Option (Buckets K) :=
  (firstEmpty (table scheme.buckets)).map fun slot => put table scheme.buckets slot (some key)

def settle (scheme : Scheme K) : Buckets K × Option K → Option (Buckets K)
  | (table, none) => some table
  | (table, some homeless) => stash scheme table homeless

/-- The table with one more key, or nothing when neither a bucket, an eviction nor the stash has
room for it. -/
def place (scheme : Scheme K) (table : Buckets K) (key : K) : Option (Buckets K) :=
  match firstEmpty (table (scheme.first key)) with
  | some slot => some (put table (scheme.first key) slot (some key))
  | none =>
    match firstEmpty (table (scheme.second key)) with
    | some slot => some (put table (scheme.second key) slot (some key))
    | none => settle scheme (walk scheme scheme.kicks 0 table key (scheme.start key))

def holds (scheme : Scheme K) (table : Buckets K) (key : K) : Prop :=
  some key ∈ table (scheme.first key) ∨ some key ∈ table (scheme.second key) ∨
    some key ∈ table scheme.buckets

instance [DecidableEq K] (scheme : Scheme K) (table : Buckets K) (key : K) :
    Decidable (holds scheme table key) :=
  inferInstanceAs (Decidable (_ ∨ _ ∨ _))

def blank (scheme : Scheme K) : Buckets K := fun bucket =>
  if bucket ≤ scheme.buckets then List.replicate (scheme.slotsAt bucket) none else []

/-- Every bucket has its slots and every key sits in one of its two buckets or in the stash. -/
structure Wf (scheme : Scheme K) (table : Buckets K) : Prop where
  shape : ∀ bucket, bucket ≤ scheme.buckets → (table bucket).length = scheme.slotsAt bucket
  home : ∀ bucket, bucket < scheme.buckets → ∀ key, some key ∈ table bucket →
    bucket = scheme.first key ∨ bucket = scheme.second key

def entry (slot : Option K) : Multiset K := slot.elim 0 fun key => {key}

def contents (scheme : Scheme K) (table : Buckets K) : Multiset K :=
  ∑ bucket ∈ Finset.range (scheme.buckets + 1), ((table bucket).reduceOption : Multiset K)

@[simp] theorem entry_none : entry (none : Option K) = 0 := rfl

@[simp] theorem entry_some (key : K) : entry (some key) = {key} := rfl

theorem put_self (table : Buckets K) (bucket slot : Nat) (entry : Option K) :
    put table bucket slot entry bucket = (table bucket).set slot entry := by
  simp [put]

theorem put_other (table : Buckets K) {bucket other : Nat} (different : other ≠ bucket) (slot : Nat)
    (entry : Option K) : put table bucket slot entry other = table other := by
  simp [put, different]

theorem put_none_of_empty {table : Buckets K} {bucket slot : Nat}
    (empty : (table bucket)[slot]?.join = none) : put table bucket slot none = table := by
  have same : (table bucket).set slot none = table bucket := by
    apply List.ext_getElem?
    intro index
    rw [List.getElem?_set]
    split
    · rename_i here
      subst here
      cases held : (table bucket)[slot]? with
      | none =>
          have past : ¬ slot < (table bucket).length := by simpa using held
          rw [if_neg past]
      | some entry =>
          obtain ⟨inside, _⟩ := List.getElem?_eq_some_iff.mp held
          rw [if_pos inside, Option.some.injEq]
          simpa [held] using empty.symm
    · rfl
  rw [put, same, Function.update_eq_self]

theorem firstEmpty_some {slots : List (Option K)} {slot : Nat}
    (found : firstEmpty slots = some slot) : slots[slot]? = some none := by
  rw [firstEmpty, List.findIdx?_eq_some_iff_getElem] at found
  obtain ⟨bound, isEmpty, _⟩ := found
  rw [List.getElem?_eq_getElem bound]
  simpa using isEmpty

theorem reduceOption_set (slots : List (Option K)) {slot : Nat} {old : Option K}
    (held : slots[slot]? = some old) (new : Option K) :
    ((slots.set slot new).reduceOption : Multiset K) + entry old =
      (slots.reduceOption : Multiset K) + entry new := by
  induction slots generalizing slot with
  | nil => simp at held
  | cons head rest ih =>
      cases slot with
      | zero =>
          have same : head = old := by simpa using held
          subst same
          cases head <;> cases new <;>
            simp only [List.set_cons_zero, List.reduceOption_cons_of_none,
              List.reduceOption_cons_of_some, entry_none, entry_some, ← Multiset.cons_coe,
              ← Multiset.singleton_add] <;>
            abel
      | succ slot =>
          have step := ih (by simpa using held)
          cases head with
          | none => simpa using step
          | some key => simpa [← Multiset.cons_coe, Multiset.cons_add] using step

theorem contents_put {scheme : Scheme K} (table : Buckets K) {bucket slot : Nat} {old : Option K}
    (bound : bucket ≤ scheme.buckets) (held : (table bucket)[slot]? = some old)
    (new : Option K) :
    contents scheme (put table bucket slot new) + entry old =
      contents scheme table + entry new := by
  have member : bucket ∈ Finset.range (scheme.buckets + 1) := by simp; omega
  have others : ∀ other ∈ (Finset.range (scheme.buckets + 1)).erase bucket,
      ((put table bucket slot new other).reduceOption : Multiset K) =
        ((table other).reduceOption : Multiset K) := by
    intro other inside
    rw [put_other table (Finset.ne_of_mem_erase inside)]
  have changed := reduceOption_set (table bucket) held new
  unfold contents
  rw [← Finset.add_sum_erase _ _ member, ← Finset.add_sum_erase _ _ member,
    Finset.sum_congr rfl others, put_self]
  calc
    _ = (((table bucket).set slot new).reduceOption : Multiset K) + entry old +
        ∑ other ∈ (Finset.range (scheme.buckets + 1)).erase bucket,
          ((table other).reduceOption : Multiset K) := by abel
    _ = _ := by rw [changed]; abel

theorem mem_contents {scheme : Scheme K} {table : Buckets K} {key : K} :
    key ∈ contents scheme table ↔ ∃ bucket ≤ scheme.buckets, some key ∈ table bucket := by
  simp only [contents, Multiset.mem_sum, Finset.mem_range, Nat.lt_succ_iff, Multiset.mem_coe,
    List.reduceOption_mem_iff]

def listing (table : Buckets K) (buckets : Nat) : List K :=
  (List.range buckets).flatMap (fun bucket => (table bucket).reduceOption) ++
    (table buckets).reduceOption

theorem contents_eq_listing (scheme : Scheme K) (table : Buckets K) :
    contents scheme table = (listing table scheme.buckets : Multiset K) := by
  have counted : ∀ count, ∑ bucket ∈ Finset.range count, ((table bucket).reduceOption : Multiset K) =
      ((List.range count).flatMap (fun bucket => (table bucket).reduceOption) : Multiset K) := by
    intro count
    induction count with
    | zero => simp
    | succ count ih => simp [Finset.sum_range_succ, List.range_succ, ih]
  rw [contents, Finset.sum_range_succ, counted, listing, Multiset.coe_add]

/-- The early exit of a lookup misses nothing. -/
theorem holds_iff {scheme : Scheme K} (valid : scheme.Valid) {table : Buckets K}
    (wf : Wf scheme table) {key : K} : holds scheme table key ↔ key ∈ contents scheme table := by
  rw [mem_contents]
  constructor
  · intro found
    rcases found with here | here | here
    · exact ⟨_, (valid.first_lt key).le, here⟩
    · exact ⟨_, (valid.second_lt key).le, here⟩
    · exact ⟨_, le_rfl, here⟩
  · rintro ⟨bucket, bound, here⟩
    rcases Nat.lt_or_eq_of_le bound with inside | atStash
    · rcases wf.home bucket inside key here with rfl | rfl
      · exact Or.inl here
      · exact Or.inr (Or.inl here)
    · exact Or.inr (Or.inr (atStash ▸ here))

theorem blank_wf (scheme : Scheme K) : Wf scheme (blank scheme) where
  shape := by
    intro bucket bound
    simp [blank, bound]
  home := by
    intro bucket _ key here
    unfold blank at here
    split at here <;> simp [List.mem_replicate] at here

theorem contents_blank (scheme : Scheme K) : contents scheme (blank scheme) = 0 := by
  unfold contents
  refine Finset.sum_eq_zero fun bucket _ => ?_
  unfold blank
  split <;> simp

/-- A slot may be emptied, or given a key that may live in its bucket. -/
theorem Wf.put {scheme : Scheme K} {table : Buckets K} (wf : Wf scheme table) {bucket slot : Nat}
    {entry : Option K}
    (fits : ∀ key, entry = some key →
      bucket = scheme.first key ∨ bucket = scheme.second key ∨ bucket = scheme.buckets) :
    Wf scheme (put table bucket slot entry) where
  shape := by
    intro other bound
    by_cases same : other = bucket
    · subst same
      rw [put_self, List.length_set, wf.shape other bound]
    · rw [put_other table same, wf.shape other bound]
  home := by
    intro other bound key here
    by_cases same : other = bucket
    · subst same
      rw [put_self] at here
      rcases List.mem_or_eq_of_mem_set here with older | newer
      · exact wf.home other bound key older
      · rcases fits key newer.symm with atFirst | atSecond | atStash
        · exact Or.inl atFirst
        · exact Or.inr atSecond
        · omega
    · rw [put_other table same] at here
      exact wf.home other bound key here

theorem place_step {scheme : Scheme K} {table : Buckets K} (wf : Wf scheme table) {key : K}
    {bucket slot : Nat} (bound : bucket ≤ scheme.buckets)
    (fits : bucket = scheme.first key ∨ bucket = scheme.second key ∨ bucket = scheme.buckets)
    (found : firstEmpty (table bucket) = some slot) :
    Wf scheme (put table bucket slot (some key)) ∧
      contents scheme (put table bucket slot (some key)) = key ::ₘ contents scheme table := by
  constructor
  · exact wf.put fun placed same => by
      cases same
      exact fits
  · have counted := contents_put table bound (firstEmpty_some found) (some key)
    simpa [add_comm, Multiset.singleton_add] using counted

/-- A key takes the slot of another key of its bucket. -/
theorem swap_step {scheme : Scheme K} {table : Buckets K} (wf : Wf scheme table) {current old : K}
    {target slot : Nat} (inside : target < scheme.buckets)
    (fits : target = scheme.first current ∨ target = scheme.second current)
    (held : (table target)[slot]? = some (some old)) :
    Wf scheme (put table target slot (some current)) ∧
      old ::ₘ contents scheme (put table target slot (some current)) =
        current ::ₘ contents scheme table ∧
      (target = scheme.first old ∨ target = scheme.second old) := by
  refine ⟨?_, ?_, wf.home target inside old (List.mem_of_getElem? held)⟩
  · exact wf.put fun key same => by
      cases same
      rcases fits with atFirst | atSecond
      · exact Or.inl atFirst
      · exact Or.inr (Or.inl atSecond)
  · have counted := contents_put table inside.le held (some current)
    simpa [add_comm, Multiset.singleton_add] using counted

/-- The evictions move keys about and drop none: with the homeless key, if there is one, the
table holds what it held and the key they started with. -/
theorem walk_spec {scheme : Scheme K} (valid : scheme.Valid) (left kick : Nat) {table : Buckets K}
    (wf : Wf scheme table) {current : K} {target : Nat}
    (fits : target = scheme.first current ∨ target = scheme.second current) :
    let result := walk scheme left kick table current target
    Wf scheme result.1 ∧
      contents scheme result.1 + entry result.2 = current ::ₘ contents scheme table := by
  induction left generalizing kick table current target with
  | zero => exact ⟨wf, by simp [walk, add_comm, Multiset.singleton_add]⟩
  | succ left ih =>
      have inside : target < scheme.buckets := by
        rcases fits with rfl | rfl
        · exact valid.first_lt current
        · exact valid.second_lt current
      have bound : scheme.victim current kick < (table target).length := by
        rw [wf.shape target inside.le, Scheme.slotsAt, if_neg inside.ne]
        exact valid.victim_lt current kick
      have put_wf : Wf scheme (put table target (scheme.victim current kick) (some current)) :=
        wf.put fun key same => by
          cases same
          rcases fits with atFirst | atSecond
          · exact Or.inl atFirst
          · exact Or.inr (Or.inl atSecond)
      have held : (table target)[scheme.victim current kick]? =
          some (table target)[scheme.victim current kick] := List.getElem?_eq_getElem bound
      have counted := contents_put table inside.le held (some current)
      simp only [walk, held, Option.join_some]
      cases inSlot : (table target)[scheme.victim current kick] with
      | none =>
          refine ⟨put_wf, ?_⟩
          simpa [inSlot, add_comm, Multiset.singleton_add] using counted
      | some evicted =>
          have present : some evicted ∈ table target := by
            rw [← inSlot]
            exact List.getElem_mem bound
          have next : scheme.other evicted target = scheme.first evicted ∨
              scheme.other evicted target = scheme.second evicted := by
            unfold Scheme.other
            split
            · exact Or.inr rfl
            · exact Or.inl rfl
          obtain ⟨kept, conserved⟩ := ih (kick + 1) put_wf next
          refine ⟨kept, conserved.trans ?_⟩
          simpa [inSlot, add_comm, Multiset.singleton_add] using counted

theorem place_of_full {scheme : Scheme K} {table : Buckets K} {key : K}
    (first : firstEmpty (table (scheme.first key)) = none)
    (second : firstEmpty (table (scheme.second key)) = none) :
    place scheme table key =
      settle scheme (walk scheme scheme.kicks 0 table key (scheme.start key)) := by
  simp only [place, first, second]

theorem place_spec {scheme : Scheme K} (valid : scheme.Valid) {table table' : Buckets K}
    (wf : Wf scheme table) {key : K} (placed : place scheme table key = some table') :
    Wf scheme table' ∧ contents scheme table' = key ::ₘ contents scheme table := by
  unfold place at placed
  split at placed
  · rename_i slot found
    cases placed
    exact place_step wf (valid.first_lt key).le (Or.inl rfl) found
  · split at placed
    · rename_i slot found
      cases placed
      exact place_step wf (valid.second_lt key).le (Or.inr (Or.inl rfl)) found
    · have fits : scheme.start key = scheme.first key ∨ scheme.start key = scheme.second key := by
        unfold Scheme.start
        split
        · exact Or.inl rfl
        · exact Or.inr rfl
      obtain ⟨walk_wf, conserved⟩ := walk_spec valid scheme.kicks 0 wf fits
      generalize walk scheme scheme.kicks 0 table key (scheme.start key) = walked at *
      obtain ⟨walkedTable, left⟩ := walked
      cases left with
      | none =>
        cases placed
        exact ⟨walk_wf, by simpa using conserved⟩
      | some homeless =>
        simp only [settle, stash, Option.map_eq_some_iff] at placed
        obtain ⟨slot, found, rfl⟩ := placed
        obtain ⟨kept, grown⟩ := place_step walk_wf le_rfl (Or.inr (Or.inr rfl)) found
        exact ⟨kept, by rw [grown, ← conserved, entry_some, add_comm, Multiset.singleton_add]⟩

/-! The stash takes a key only when both its buckets are full. -/

def stashed (scheme : Scheme K) (table : Buckets K) : List K := (table scheme.buckets).reduceOption

theorem length_reduceOption_full {slots : List (Option K)} (full : firstEmpty slots = none) :
    slots.reduceOption.length = slots.length := by
  rw [List.reduceOption_length_eq_iff]
  intro slot member
  rw [firstEmpty, List.findIdx?_eq_none_iff] at full
  have occupied := full slot member
  cases slot with
  | none => cases occupied
  | some key => rfl

theorem length_reduceOption_set {slots : List (Option K)} {slot : Nat} {key : K}
    (empty : slots[slot]? = some none) :
    (slots.set slot (some key)).reduceOption.length = slots.reduceOption.length + 1 := by
  have counted := congrArg Multiset.card (reduceOption_set slots empty (some key))
  simpa using counted

theorem length_reduceOption_clear (slots : List (Option K)) (slot : Nat) :
    (slots.set slot none).reduceOption.length ≤ slots.reduceOption.length := by
  cases held : slots[slot]? with
  | none =>
      rw [List.set_eq_of_length_le (List.getElem?_eq_none_iff.mp held)]
  | some old =>
      have counted := congrArg Multiset.card (reduceOption_set slots held none)
      simp only [Multiset.card_add, Multiset.coe_card, entry_none, Multiset.card_zero] at counted
      omega

theorem card_contents (scheme : Scheme K) (table : Buckets K) :
    Multiset.card (contents scheme table) =
      ∑ bucket ∈ Finset.range (scheme.buckets + 1), (table bucket).reduceOption.length := by
  simp [contents]

theorem card_contents_of_full {scheme : Scheme K} {table : Buckets K} (wf : Wf scheme table)
    {left right : Nat} (leftInside : left < scheme.buckets) (rightInside : right < scheme.buckets)
    (apart : left ≠ right) (leftFull : firstEmpty (table left) = none)
    (rightFull : firstEmpty (table right) = none) :
    2 * scheme.bucketSize + (stashed scheme table).length ≤
      Multiset.card (contents scheme table) := by
  have size : ∀ bucket < scheme.buckets, firstEmpty (table bucket) = none →
      (table bucket).reduceOption.length = scheme.bucketSize := by
    intro bucket inside full
    rw [length_reduceOption_full full, wf.shape bucket inside.le, Scheme.slotsAt,
      if_neg inside.ne]
  have three : ({left, right, scheme.buckets} : Finset Nat) ⊆ Finset.range (scheme.buckets + 1) := by
    intro bucket member
    simp only [Finset.mem_insert, Finset.mem_singleton] at member
    rw [Finset.mem_range]
    omega
  have lower := Finset.sum_le_sum_of_subset (f := fun bucket => (table bucket).reduceOption.length)
    three
  rw [Finset.sum_insert (by simp [apart, leftInside.ne]),
    Finset.sum_insert (by simp [rightInside.ne]), Finset.sum_singleton] at lower
  rw [card_contents]
  have first := size left leftInside leftFull
  have second := size right rightInside rightFull
  unfold stashed
  omega

/-- The evictions never reach the stash. -/
theorem walk_stash {scheme : Scheme K} (valid : scheme.Valid) (left kick : Nat)
    (table : Buckets K) (current : K) {target : Nat} (inside : target < scheme.buckets) :
    (walk scheme left kick table current target).1 scheme.buckets = table scheme.buckets := by
  induction left generalizing kick table current target with
  | zero => rfl
  | succ left ih =>
      have kept : put table target (scheme.victim current kick) (some current) scheme.buckets =
          table scheme.buckets := put_other _ inside.ne' _ _
      rw [walk]
      split
      · exact kept
      · rename_i evicted _
        have next : scheme.other evicted target < scheme.buckets := by
          unfold Scheme.other
          split
          · exact valid.second_lt evicted
          · exact valid.first_lt evicted
        rw [ih (kick + 1) _ evicted next, kept]

theorem walk_stashed {scheme : Scheme K} (valid : scheme.Valid) (left kick : Nat)
    (table : Buckets K) (current : K) {target : Nat} (inside : target < scheme.buckets) :
    stashed scheme (walk scheme left kick table current target).1 = stashed scheme table :=
  congrArg List.reduceOption (walk_stash valid left kick table current inside)

theorem start_lt {scheme : Scheme K} (valid : scheme.Valid) (key : K) :
    scheme.start key < scheme.buckets := by
  unfold Scheme.start
  split
  · exact valid.first_lt key
  · exact valid.second_lt key

/-- Placing a key leaves the stash alone, or adds one key to it when two buckets are full. -/
theorem place_stashed {scheme : Scheme K} (valid : scheme.Valid) {table table' : Buckets K}
    (wf : Wf scheme table) {key : K} (apart : scheme.first key ≠ scheme.second key)
    (placed : place scheme table key = some table') :
    stashed scheme table' = stashed scheme table ∨
      (stashed scheme table').length = (stashed scheme table).length + 1 ∧
        2 * scheme.bucketSize + (stashed scheme table).length ≤
          Multiset.card (contents scheme table) := by
  have other : ∀ {bucket}, bucket < scheme.buckets → ∀ slot entry,
      stashed scheme (put table bucket slot entry) = stashed scheme table := by
    intro bucket inside slot entry
    rw [stashed, put_other _ inside.ne']
    rfl
  unfold place at placed
  split at placed
  · cases placed
    exact Or.inl (other (valid.first_lt key) _ _)
  rename_i firstFull
  split at placed
  · cases placed
    exact Or.inl (other (valid.second_lt key) _ _)
  rename_i secondFull
  have walked := walk_stashed valid scheme.kicks 0 table key (start_lt valid key)
  generalize walk scheme scheme.kicks 0 table key (scheme.start key) = result at *
  obtain ⟨walkedTable, left⟩ := result
  cases left with
  | none =>
      cases placed
      exact Or.inl walked
  | some homeless =>
      simp only [settle, stash, Option.map_eq_some_iff] at placed
      obtain ⟨slot, found, rfl⟩ := placed
      right
      constructor
      · rw [← walked, stashed, put_self, length_reduceOption_set (firstEmpty_some found)]
        rfl
      · exact card_contents_of_full wf (valid.first_lt key) (valid.second_lt key) apart firstFull
          secondFull

/-! Without deletions the keys of a bucket stand before its empty slots. -/

def Packed : List (Option K) → Prop
  | [] => True
  | none :: rest => ∀ slot ∈ rest, slot = none
  | some _ :: rest => Packed rest

theorem packed_of_empty {slots : List (Option K)} (empty : ∀ slot ∈ slots, slot = none) :
    Packed slots := by
  cases slots with
  | nil => trivial
  | cons head rest =>
      have here : head = none := empty head List.mem_cons_self
      subst here
      exact fun slot member => empty slot (List.mem_cons_of_mem _ member)

theorem Packed.fill {slots : List (Option K)} (packed : Packed slots) {slot : Nat}
    (found : firstEmpty slots = some slot) (key : K) : Packed (slots.set slot (some key)) := by
  induction slots generalizing slot with
  | nil => cases found
  | cons head rest ih =>
      cases head with
      | none =>
          have first : slot = 0 := by
            simpa [firstEmpty, List.findIdx?_cons] using found.symm
          have blank : Packed rest := packed_of_empty packed
          subst first
          exact blank
      | some held =>
          have later : ∃ index, firstEmpty rest = some index ∧ slot = index + 1 := by
            simpa [firstEmpty, List.findIdx?_cons, eq_comm] using found
          obtain ⟨index, inRest, rfl⟩ := later
          exact ih packed inRest

theorem Packed.swap {slots : List (Option K)} (packed : Packed slots) {slot : Nat} {old : K}
    (held : slots[slot]? = some (some old)) (key : K) : Packed (slots.set slot (some key)) := by
  induction slots generalizing slot with
  | nil => simp at held
  | cons head rest ih =>
      cases slot with
      | zero =>
          have same : head = some old := by simpa using held
          subst same
          exact packed
      | succ slot =>
          have inRest : rest[slot]? = some (some old) := by simpa using held
          cases head with
          | none => exact absurd (packed _ (List.mem_of_getElem? inRest)) (by simp)
          | some first => exact ih packed inRest

/-- Writes the overwritten keys of a log back, the last one first. -/
def undo (table : Buckets K) (log : List (Nat × Nat × K)) : Buckets K :=
  log.reverse.foldl (fun table write => put table write.1 write.2.1 (some write.2.2)) table

theorem put_back (table : Buckets K) {bucket slot : Nat} {old : Option K}
    (held : (table bucket)[slot]? = some old) (new : Option K) :
    put (put table bucket slot new) bucket slot old = table := by
  obtain ⟨inside, same⟩ := List.getElem?_eq_some_iff.mp held
  rw [put, put_self, put, Function.update_idem, List.set_set, ← same, List.set_getElem_self,
    Function.update_eq_self]

theorem undo_put (table : Buckets K) {bucket slot : Nat} {old : K}
    (held : (table bucket)[slot]? = some (some old)) (new : Option K)
    (log : List (Nat × Nat × K)) :
    undo (put table bucket slot new) (log ++ [(bucket, slot, old)]) = undo table log := by
  rw [undo, List.reverse_append, List.reverse_singleton, List.singleton_append, List.foldl_cons,
    put_back table held]
  rfl

/-! Draining a table slot by slot. -/

def Scheme.slots (scheme : Scheme K) : Nat := scheme.buckets * scheme.bucketSize + scheme.stashSize

/-- The bucket and the slot in it of one virtual slot; those of the stash come last. -/
def Scheme.locate (scheme : Scheme K) (cursor : Nat) : Nat × Nat :=
  if cursor < scheme.buckets * scheme.bucketSize then
    (cursor / scheme.bucketSize, cursor % scheme.bucketSize)
  else (scheme.buckets, cursor - scheme.buckets * scheme.bucketSize)

def slotAt (scheme : Scheme K) (table : Buckets K) (cursor : Nat) : Option K :=
  (table (scheme.locate cursor).1)[(scheme.locate cursor).2]?.join

def clear (scheme : Scheme K) (table : Buckets K) (cursor : Nat) : Buckets K :=
  put table (scheme.locate cursor).1 (scheme.locate cursor).2 none

def Drained (scheme : Scheme K) (table : Buckets K) (cursor : Nat) : Prop :=
  ∀ earlier < cursor, slotAt scheme table earlier = none

theorem locate_le (scheme : Scheme K) {cursor : Nat} :
    (scheme.locate cursor).1 ≤ scheme.buckets := by
  unfold Scheme.locate
  split
  · rename_i inside
    exact (Nat.div_lt_of_lt_mul (by rwa [Nat.mul_comm])).le
  · exact le_rfl

theorem locate_lt (scheme : Scheme K) {cursor : Nat} (bound : cursor < scheme.slots) :
    (scheme.locate cursor).2 < scheme.slotsAt (scheme.locate cursor).1 := by
  unfold Scheme.locate
  split
  · rename_i inside
    have positive : 0 < scheme.bucketSize := by
      rcases Nat.eq_zero_or_pos scheme.bucketSize with none | some
      · simp [none] at inside
      · exact some
    have bucket : cursor / scheme.bucketSize ≠ scheme.buckets :=
      (Nat.div_lt_of_lt_mul (by rwa [Nat.mul_comm])).ne
    simpa [Scheme.slotsAt, bucket] using Nat.mod_lt cursor positive
  · rename_i outside
    simp only [Scheme.slotsAt, if_true]
    unfold Scheme.slots at bound
    omega

theorem locate_inj (scheme : Scheme K) {left right : Nat}
    (same : scheme.locate left = scheme.locate right) : left = right := by
  have inBucket : ∀ cursor, cursor < scheme.buckets * scheme.bucketSize →
      cursor / scheme.bucketSize < scheme.buckets := fun cursor inside =>
    Nat.div_lt_of_lt_mul (by rwa [Nat.mul_comm])
  unfold Scheme.locate at same
  split at same <;> split at same <;> simp only [Prod.mk.injEq] at same
  · rw [← Nat.div_add_mod left scheme.bucketSize, ← Nat.div_add_mod right scheme.bucketSize,
      same.1, same.2]
  · have := inBucket left ‹_›
    omega
  · have := inBucket right ‹_›
    omega
  · omega

theorem slotAt_held {scheme : Scheme K} {table : Buckets K} (wf : Wf scheme table) {cursor : Nat}
    (bound : cursor < scheme.slots) :
    (table (scheme.locate cursor).1)[(scheme.locate cursor).2]? =
      some (slotAt scheme table cursor) := by
  have inside : (scheme.locate cursor).2 < (table (scheme.locate cursor).1).length := by
    rw [wf.shape _ (locate_le scheme)]
    exact locate_lt scheme bound
  simp [slotAt, List.getElem?_eq_getElem inside]

theorem clear_wf {scheme : Scheme K} {table : Buckets K} (wf : Wf scheme table) (cursor : Nat) :
    Wf scheme (clear scheme table cursor) := wf.put fun _ same => by cases same

theorem clear_stashed (scheme : Scheme K) (table : Buckets K) (cursor : Nat) :
    (stashed scheme (clear scheme table cursor)).length ≤ (stashed scheme table).length := by
  by_cases here : scheme.buckets = (scheme.locate cursor).1
  · rw [stashed, clear, ← here, put_self]
    exact length_reduceOption_clear _ _
  · rw [stashed, clear, put_other _ here]
    rfl

theorem contents_clear {scheme : Scheme K} {table : Buckets K} (wf : Wf scheme table) {cursor : Nat}
    (bound : cursor < scheme.slots) :
    contents scheme (clear scheme table cursor) + entry (slotAt scheme table cursor) =
      contents scheme table := by
  have counted := contents_put table (locate_le scheme) (slotAt_held wf bound) none
  simpa [clear] using counted

theorem slotAt_clear {scheme : Scheme K} (table : Buckets K) (cursor other : Nat) :
    slotAt scheme (clear scheme table cursor) other =
      if other = cursor then none else slotAt scheme table other := by
  unfold slotAt clear put
  by_cases same : other = cursor
  · subst same
    simp only [Function.update_self, if_true, List.getElem?_set]
    split <;> simp
  · rw [if_neg same]
    by_cases bucket : (scheme.locate other).1 = (scheme.locate cursor).1
    · have slot : (scheme.locate cursor).2 ≠ (scheme.locate other).2 := fun equal =>
        same (locate_inj scheme (Prod.ext bucket equal.symm))
      simp [bucket, slot]
    · simp [bucket]

theorem Drained.step {scheme : Scheme K} {table : Buckets K} {cursor : Nat}
    (drained : Drained scheme table cursor) :
    Drained scheme (clear scheme table cursor) (cursor + 1) := by
  intro earlier bound
  rw [slotAt_clear]
  split
  · rfl
  · exact drained earlier (by omega)

theorem Drained.contents_eq_zero {scheme : Scheme K} {table : Buckets K} (wf : Wf scheme table)
    {cursor : Nat} (drained : Drained scheme table cursor) (finished : scheme.slots ≤ cursor) :
    contents scheme table = 0 := by
  refine Multiset.eq_zero_of_forall_notMem fun key present => ?_
  rw [mem_contents] at present
  obtain ⟨bucket, bound, here⟩ := present
  obtain ⟨slot, inside, found⟩ := List.getElem_of_mem here
  have size : slot < scheme.slotsAt bucket := by rwa [← wf.shape bucket bound]
  have located : ∃ cursor < scheme.slots, scheme.locate cursor = (bucket, slot) := by
    rcases Nat.lt_or_eq_of_le bound with below | atStash
    · have narrow : slot < scheme.bucketSize := by
        simpa [Scheme.slotsAt, below.ne] using size
      have inBuckets : bucket * scheme.bucketSize + slot < scheme.buckets * scheme.bucketSize := by
        calc
          _ < bucket * scheme.bucketSize + scheme.bucketSize := by omega
          _ = (bucket + 1) * scheme.bucketSize := by ring
          _ ≤ _ := Nat.mul_le_mul_right _ below
      refine ⟨bucket * scheme.bucketSize + slot, by unfold Scheme.slots; omega, ?_⟩
      rw [Scheme.locate, if_pos inBuckets, Nat.mul_comm bucket, Nat.mul_add_div (by omega),
        Nat.mul_add_mod, Nat.div_eq_of_lt narrow, Nat.mod_eq_of_lt narrow, Nat.add_zero]
    · subst atStash
      have narrow : slot < scheme.stashSize := by simpa [Scheme.slotsAt] using size
      refine ⟨scheme.buckets * scheme.bucketSize + slot, by unfold Scheme.slots; omega, ?_⟩
      rw [Scheme.locate, if_neg (by omega), Nat.add_sub_cancel_left]
  obtain ⟨place, inRange, at_⟩ := located
  have empty := drained place (by omega)
  rw [slotAt, at_, List.getElem?_eq_getElem inside, found] at empty
  simp at empty

end DurableContext.BucketTable
