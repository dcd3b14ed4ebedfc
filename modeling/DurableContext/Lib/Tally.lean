import DurableContext.Lib.Table

/-! Counts in two levels: how often a value was counted with a key. A value that is no longer counted
is dropped, and so is a key without values, so that a tally is determined by its counts. -/

namespace DurableContext

abbrev Tally (κ ν : Type) := Table κ (Table ν Nat)

namespace Tally

variable {κ ν : Type} [DecidableEq κ] [DecidableEq ν]

def counts (tally : Tally κ ν) (key : κ) : Table ν Nat := (tally.lookup key).getD ∅

def count (tally : Tally κ ν) (key : κ) (value : ν) : Nat :=
  ((counts tally key).lookup value).getD 0

def increment (value : ν) (tally : Tally κ ν) (key : κ) : Tally κ ν :=
  tally.insert key ((counts tally key).insert value (count tally key value + 1))

/-- What is kept of a key's counts when one of them goes down. -/
def lowered (held : Table ν Nat) (value : ν) : Table ν Nat :=
  if (held.lookup value).getD 0 ≤ 1 then held.erase value
  else held.insert value ((held.lookup value).getD 0 - 1)

def decrement (value : ν) (tally : Tally κ ν) (key : κ) : Tally κ ν :=
  match tally.lookup key with
  | none => tally
  | some held =>
      if (lowered held value).entries = [] then tally.erase key
      else tally.insert key (lowered held value)

/-- Nothing is kept that was not counted. -/
structure Exact (tally : Tally κ ν) : Prop where
  present : ∀ key held, tally.lookup key = some held → held.entries ≠ []
  positive : ∀ key value number, (counts tally key).lookup value = some number → 0 < number

def Same (tally other : Tally κ ν) : Prop :=
  ∀ key, Option.Rel Table.Same (tally.lookup key) (other.lookup key)

variable {tally other : Tally κ ν} {key place : κ} {value item : ν}

omit [DecidableEq ν] in
theorem counts_of_lookup {held : Table ν Nat} (found : tally.lookup key = some held) :
    counts tally key = held := by
  rw [counts, found]
  rfl

omit [DecidableEq ν] in
theorem counts_of_none (absent : tally.lookup key = none) : counts tally key = ∅ := by
  rw [counts, absent]
  rfl

theorem counts_increment : counts (increment value tally key) place =
    if place = key then (counts tally key).insert value (count tally key value + 1)
    else counts tally place := by
  by_cases here : place = key
  · rw [if_pos here, here, increment]
    exact counts_of_lookup (AList.lookup_insert _)
  · rw [if_neg here, counts, increment, AList.lookup_insert_ne here]
    rfl

theorem count_increment : count (increment value tally key) place item =
    count tally place item + if place = key ∧ item = value then 1 else 0 := by
  rw [count, counts_increment]
  by_cases here : place = key
  · subst here
    rw [if_pos rfl]
    by_cases same : item = value
    · subst same
      rw [AList.lookup_insert, if_pos ⟨rfl, rfl⟩]
      rfl
    · rw [AList.lookup_insert_ne same, if_neg fun both => same both.2]
      rfl
  · rw [if_neg here, if_neg fun both => here both.1]
    rfl

theorem lookup_lowered (held : Table ν Nat) :
    ((lowered held value).lookup item).getD 0 =
      (held.lookup item).getD 0 - if item = value then 1 else 0 := by
  unfold lowered
  by_cases few : (held.lookup value).getD 0 ≤ 1
  · rw [if_pos few]
    by_cases same : item = value
    · rw [if_pos same, same, AList.lookup_erase, Option.getD_none]
      omega
    · rw [if_neg same, AList.lookup_erase_ne same, Nat.sub_zero]
  · rw [if_neg few]
    by_cases same : item = value
    · rw [if_pos same, same, AList.lookup_insert]
      rfl
    · rw [if_neg same, AList.lookup_insert_ne same, Nat.sub_zero]

theorem lowered_positive {held : Table ν Nat}
    (positive : ∀ value number, held.lookup value = some number → 0 < number) {number : Nat}
    (found : (lowered held value).lookup item = some number) : 0 < number := by
  unfold lowered at found
  by_cases few : (held.lookup value).getD 0 ≤ 1
  · rw [if_pos few] at found
    by_cases same : item = value
    · rw [same, AList.lookup_erase] at found
      cases found
    · rw [AList.lookup_erase_ne same] at found
      exact positive item number found
  · rw [if_neg few] at found
    by_cases same : item = value
    · rw [same, AList.lookup_insert] at found
      cases found
      omega
    · rw [AList.lookup_insert_ne same] at found
      exact positive item number found

omit [DecidableEq ν] in
theorem eq_empty_of_entries {held : Table ν Nat} (none : held.entries = []) : held = ∅ :=
  AList.ext none

theorem counts_decrement : counts (decrement value tally key) place =
    if place = key then lowered (counts tally key) value else counts tally place := by
  unfold decrement
  cases found : tally.lookup key with
  | none =>
      by_cases here : place = key
      · rw [if_pos here, here, counts_of_none found]
        rfl
      · rw [if_neg here]
  | some held =>
      simp only
      rw [counts_of_lookup found]
      split
      · rename_i none
        by_cases here : place = key
        · rw [if_pos here, here, counts_of_none (AList.lookup_erase _ _)]
          exact (eq_empty_of_entries none).symm
        · rw [if_neg here, counts, AList.lookup_erase_ne here]
          rfl
      · by_cases here : place = key
        · rw [if_pos here, here]
          exact counts_of_lookup (AList.lookup_insert _)
        · rw [if_neg here, counts, AList.lookup_insert_ne here]
          rfl

theorem count_decrement : count (decrement value tally key) place item =
    count tally place item - if place = key ∧ item = value then 1 else 0 := by
  rw [count, counts_decrement]
  by_cases here : place = key
  · subst here
    rw [if_pos rfl, lookup_lowered]
    by_cases same : item = value
    · rw [if_pos same, if_pos ⟨rfl, same⟩]
      rfl
    · rw [if_neg same, if_neg fun both => same both.2]
      rfl
  · rw [if_neg here, if_neg fun both => here both.1]
    rfl

theorem exact_empty : Exact (∅ : Tally κ ν) where
  present := by
    intro key held found
    cases found
  positive := by
    intro key value number found
    cases found

theorem Exact.increment (exact' : Exact tally) (value : ν) (key : κ) :
    Exact (increment value tally key) where
  present := by
    intro place held found
    by_cases here : place = key
    · rw [here, Tally.increment, AList.lookup_insert] at found
      cases found
      intro none
      have absent := eq_empty_of_entries none
      have there := AList.lookup_insert (b := count tally key value + 1) (a := value)
        (counts tally key)
      rw [absent] at there
      cases there
    · rw [Tally.increment, AList.lookup_insert_ne here] at found
      exact exact'.present place held found
  positive := by
    intro place item number found
    rw [counts_increment] at found
    by_cases here : place = key
    · rw [if_pos here] at found
      by_cases same : item = value
      · rw [same, AList.lookup_insert] at found
        cases found
        exact Nat.succ_pos _
      · rw [AList.lookup_insert_ne same] at found
        exact exact'.positive key item number found
    · rw [if_neg here] at found
      exact exact'.positive place item number found

theorem Exact.decrement (exact' : Exact tally) (value : ν) (key : κ) :
    Exact (decrement value tally key) where
  present := by
    intro place held found
    unfold Tally.decrement at found
    split at found
    · exact exact'.present place held found
    · split at found
      · by_cases here : place = key
        · rw [here, AList.lookup_erase] at found
          cases found
        · rw [AList.lookup_erase_ne here] at found
          exact exact'.present place held found
      · rename_i left
        by_cases here : place = key
        · rw [here, AList.lookup_insert] at found
          cases found
          exact left
        · rw [AList.lookup_insert_ne here] at found
          exact exact'.present place held found
  positive := by
    intro place item number found
    rw [counts_decrement] at found
    by_cases here : place = key
    · rw [if_pos here] at found
      exact lowered_positive (exact'.positive key) found
    · rw [if_neg here] at found
      exact exact'.positive place item number found

theorem Exact.lookup_isSome (exact' : Exact tally) (key : κ) (value : ν) :
    ((counts tally key).lookup value).isSome ↔ 0 < count tally key value := by
  rw [count]
  cases found : (counts tally key).lookup value with
  | none => simp
  | some number =>
      have positive := exact'.positive key value number found
      simpa using positive

theorem Exact.counts_eq (exact' : Exact tally) (key : κ) (value : ν) :
    (counts tally key).lookup value =
      if count tally key value = 0 then none else some (count tally key value) := by
  rw [count]
  cases found : (counts tally key).lookup value with
  | none => rfl
  | some number =>
      have positive := exact'.positive key value number found
      rw [Option.getD_some, if_neg (by omega)]

theorem Exact.same (exact' : Exact tally) (exact'' : Exact other)
    (counted : ∀ key value, count tally key value = count other key value) : Same tally other := by
  intro key
  have lookups : ∀ value, (counts tally key).lookup value = (counts other key).lookup value := by
    intro value
    rw [exact'.counts_eq, exact''.counts_eq, counted]
  have inner : Table.Same (counts tally key) (counts other key) := Table.same_iff.mpr lookups
  cases found : tally.lookup key with
  | none =>
      cases found' : other.lookup key with
      | none => exact Option.Rel.none
      | some held =>
          rw [counts_of_none found, counts_of_lookup found'] at inner
          exact absurd (List.perm_nil.mp inner.symm) (exact''.present key held found')
  | some held =>
      cases found' : other.lookup key with
      | none =>
          rw [counts_of_lookup found, counts_of_none found'] at inner
          exact absurd (List.perm_nil.mp inner) (exact'.present key held found)
      | some held' =>
          rw [counts_of_lookup found, counts_of_lookup found'] at inner
          exact Option.Rel.some inner

theorem count_foldl_increment (keys : List κ) (tally : Tally κ ν) :
    count (keys.foldl (increment value) tally) place item =
      count tally place item + if item = value then keys.count place else 0 := by
  induction keys generalizing tally with
  | nil => simp
  | cons key rest ih =>
      rw [List.foldl_cons, ih, count_increment, List.count_cons]
      by_cases same : item = value
      · by_cases here : place = key
        · simp [same, here]
          omega
        · simp [same, here, Ne.symm here]
      · simp [same]

theorem count_foldl_decrement (keys : List κ) (tally : Tally κ ν) :
    count (keys.foldl (decrement value) tally) place item =
      count tally place item - if item = value then keys.count place else 0 := by
  induction keys generalizing tally with
  | nil => simp
  | cons key rest ih =>
      rw [List.foldl_cons, ih, count_decrement, List.count_cons]
      by_cases same : item = value
      · by_cases here : place = key
        · simp [same, here]
          omega
        · simp [same, here, Ne.symm here]
      · simp [same]

theorem Exact.foldl_increment (exact' : Exact tally) (value : ν) (keys : List κ) :
    Exact (keys.foldl (Tally.increment value) tally) := by
  induction keys generalizing tally with
  | nil => exact exact'
  | cons key rest ih => exact ih (exact'.increment value key)

theorem Exact.foldl_decrement (exact' : Exact tally) (value : ν) (keys : List κ) :
    Exact (keys.foldl (Tally.decrement value) tally) := by
  induction keys generalizing tally with
  | nil => exact exact'
  | cons key rest ih => exact ih (exact'.decrement value key)

end Tally
end DurableContext
