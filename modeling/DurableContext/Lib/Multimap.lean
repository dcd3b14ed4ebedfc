import DurableContext.Lib.Table
import Mathlib.Data.Finset.Basic
import Mathlib.Data.Finset.Dedup

/-! Tables of finite sets: a value that is added to or discarded from the set of a key, and the sets
that are kept when one value moves from some keys to others. A key whose set becomes empty is
dropped, so that such a table is determined by the membership in its sets. -/

namespace DurableContext

abbrev Multimap (κ ν : Type) := Table κ (Finset ν)

namespace Multimap

variable {κ ν : Type} [DecidableEq κ] [DecidableEq ν]

omit [DecidableEq ν] in
def get (map : Multimap κ ν) (key : κ) : Finset ν := (map.lookup key).getD ∅

def add (map : Multimap κ ν) (key : κ) (value : ν) : Multimap κ ν :=
  map.insert key (insert value (get map key))

def discard (map : Multimap κ ν) (key : κ) (value : ν) : Multimap κ ν :=
  match map.lookup key with
  | none => map
  | some values =>
      let left := values.erase value
      if left = ∅ then map.erase key else map.insert key left

/-- The value leaves the old keys that are not new and joins the new ones that are not old. -/
def move (map : Multimap κ ν) (old new : List κ) (value : ν) : Multimap κ ν :=
  (new.filter fun key => decide (key ∉ old)).foldl (fun map key => add map key value)
    ((old.filter fun key => decide (key ∉ new)).foldl (fun map key => discard map key value) map)

/-- No key is kept with an empty set. -/
def Full (map : Multimap κ ν) : Prop := ∀ key values, map.lookup key = some values → values ≠ ∅

variable {map other : Multimap κ ν} {key place : κ} {value item : ν} {old new : List κ}

omit [DecidableEq ν] in
theorem get_of_lookup {values : Finset ν} (held : map.lookup key = some values) :
    get map key = values := by
  rw [get, held]
  rfl

omit [DecidableEq ν] in
theorem get_of_none (absent : map.lookup key = none) : get map key = ∅ := by
  rw [get, absent]
  rfl

omit [DecidableEq ν] in
theorem get_empty (key : κ) : get (∅ : Multimap κ ν) key = ∅ := rfl

omit [DecidableEq ν] in
theorem Full.of_same (full : Full other) (same : Table.Same map other) : Full map :=
  fun key values held => full key values ((Table.same_iff.mp same key).symm.trans held)

omit [DecidableEq ν] in
theorem Full.lookup_isSome (full : Full map) (key : κ) :
    (map.lookup key).isSome ↔ ∃ value, value ∈ get map key := by
  cases held : map.lookup key with
  | none => simp [get_of_none held]
  | some values =>
      rw [get_of_lookup held]
      exact ⟨fun _ => Finset.nonempty_iff_ne_empty.mpr (full key values held), fun _ => rfl⟩

theorem Full.lookup_eq (full : Full map) (key : κ) :
    map.lookup key = if get map key = ∅ then none else some (get map key) := by
  cases held : map.lookup key with
  | none => rw [get_of_none held, if_pos rfl]
  | some values => rw [get_of_lookup held, if_neg (full key values held)]

omit [DecidableEq ν] in
theorem full_empty : Full (∅ : Multimap κ ν) := by
  intro key values held
  cases held

theorem Full.same (full : Full map) (full' : Full other)
    (members : ∀ key value, value ∈ get map key ↔ value ∈ get other key) : Table.Same map other := by
  rw [Table.same_iff]
  intro key
  have sets : get map key = get other key := Finset.ext (members key)
  rw [full.lookup_eq, full'.lookup_eq, sets]

theorem mem_get_add : item ∈ get (add map key value) place ↔
    place = key ∧ item = value ∨ item ∈ get map place := by
  unfold add
  by_cases here : place = key
  · rw [here, get, AList.lookup_insert, Option.getD_some, Finset.mem_insert]
    simp
  · rw [get, AList.lookup_insert_ne here, ← get]
    simp [here]

theorem Full.add (full : Full map) (key : κ) (value : ν) : Full (add map key value) := by
  intro place values held
  unfold Multimap.add at held
  by_cases here : place = key
  · rw [here, AList.lookup_insert] at held
    cases held
    exact Finset.insert_ne_empty _ _
  · rw [AList.lookup_insert_ne here] at held
    exact full place values held

theorem mem_get_discard : item ∈ get (discard map key value) place ↔
    item ∈ get map place ∧ ¬ (place = key ∧ item = value) := by
  unfold discard
  cases held : map.lookup key with
  | none =>
      by_cases here : place = key
      · rw [here, get_of_none held]
        simp
      · simp [here]
  | some values =>
      simp only
      split
      · rename_i emptied
        by_cases here : place = key
        · rw [here, get_of_none (AList.lookup_erase key map), get_of_lookup held]
          have gone : item ∉ values.erase value := by
            rw [emptied]
            exact Finset.notMem_empty item
          rw [Finset.mem_erase] at gone
          constructor
          · intro member
            exact absurd member (Finset.notMem_empty item)
          · intro kept
            exact absurd ⟨fun same => kept.2 ⟨rfl, same⟩, kept.1⟩ gone
        · rw [get, AList.lookup_erase_ne here, ← get]
          simp [here]
      · by_cases here : place = key
        · rw [here, get, AList.lookup_insert, Option.getD_some, get_of_lookup held,
            Finset.mem_erase]
          constructor
          · intro kept
            exact ⟨kept.2, fun gone => kept.1 gone.2⟩
          · intro kept
            exact ⟨fun same => kept.2 ⟨rfl, same⟩, kept.1⟩
        · rw [get, AList.lookup_insert_ne here, ← get]
          simp [here]

theorem Full.discard (full : Full map) (key : κ) (value : ν) : Full (discard map key value) := by
  intro place values held
  unfold Multimap.discard at held
  split at held
  · exact full place values held
  · simp only at held
    split at held
    · by_cases here : place = key
      · rw [here, AList.lookup_erase] at held
        cases held
      · rw [AList.lookup_erase_ne here] at held
        exact full place values held
    · rename_i left
      by_cases here : place = key
      · rw [here, AList.lookup_insert] at held
        cases held
        exact left
      · rw [AList.lookup_insert_ne here] at held
        exact full place values held

theorem mem_get_foldl_add (keys : List κ) :
    item ∈ get (keys.foldl (fun map key => Multimap.add map key value) map) place ↔
      place ∈ keys ∧ item = value ∨ item ∈ get map place := by
  induction keys generalizing map with
  | nil => simp
  | cons key rest ih =>
      rw [List.foldl_cons, ih, mem_get_add, List.mem_cons]
      tauto

theorem mem_get_foldl_discard (keys : List κ) :
    item ∈ get (keys.foldl (fun map key => Multimap.discard map key value) map) place ↔
      item ∈ get map place ∧ ¬ (place ∈ keys ∧ item = value) := by
  induction keys generalizing map with
  | nil => simp
  | cons key rest ih =>
      rw [List.foldl_cons, ih, mem_get_discard, List.mem_cons]
      tauto

theorem Full.foldl_add (full : Full map) (keys : List κ) :
    Full (keys.foldl (fun map key => Multimap.add map key value) map) := by
  induction keys generalizing map with
  | nil => exact full
  | cons key rest ih => exact ih (full.add key value)

theorem Full.foldl_discard (full : Full map) (keys : List κ) :
    Full (keys.foldl (fun map key => Multimap.discard map key value) map) := by
  induction keys generalizing map with
  | nil => exact full
  | cons key rest ih => exact ih (full.discard key value)

theorem Full.move (full : Full map) (old new : List κ) (value : ν) :
    Full (move map old new value) :=
  (full.foldl_discard _).foldl_add _

/-- A value that was with the old keys is with the new ones afterwards; the others stay. -/
theorem mem_get_move (before : ∀ key, value ∈ get map key ↔ key ∈ old) :
    item ∈ get (move map old new value) place ↔
      if item = value then place ∈ new else item ∈ get map place := by
  unfold move
  rw [mem_get_foldl_add, mem_get_foldl_discard, List.mem_filter, List.mem_filter,
    decide_eq_true_iff, decide_eq_true_iff]
  by_cases same : item = value
  · rw [if_pos same, same, before]
    tauto
  · simp [same]

end Multimap
end DurableContext
