import DurableContext.Lib.Table
import Mathlib.Algebra.Order.Group.Multiset

/-! The values of a table's rows as a multiset, part by part: what a row that is written, replaced
or deleted changes in it. -/

namespace DurableContext

namespace Table

variable {κ ν γ : Type}

def values (table : Table κ ν) : List ν := table.entries.map Sigma.snd

variable [DecidableEq κ] [DecidableEq γ]

def within (part : κ → γ) (table : Table κ ν) (piece : γ) : Table κ ν :=
  filter (fun key _ => decide (part key = piece)) table

def valuesIn (part : κ → γ) (table : Table κ ν) (piece : γ) : Multiset ν :=
  (values (within part table piece) : Multiset ν)

variable {part : κ → γ} {table other : Table κ ν} {piece : γ} {key : κ} {value old : ν}

omit [DecidableEq κ] in
theorem Same.values (same : Same table other) :
    (Table.values table : Multiset ν) = Table.values other :=
  Multiset.coe_eq_coe.mpr (same.map _)

theorem mem_values : value ∈ values table ↔ ∃ key, table.lookup key = some value := by
  unfold values
  rw [List.mem_map]
  constructor
  · intro found
    obtain ⟨row, member, same⟩ := found
    refine ⟨row.1, ?_⟩
    rw [← Option.mem_def, AList.mem_lookup_iff, ← same]
    exact member
  · intro found
    obtain ⟨key, held⟩ := found
    rw [← Option.mem_def, AList.mem_lookup_iff] at held
    exact ⟨_, held, rfl⟩

theorem lookup_within : (within part table piece).lookup key = some value ↔
    table.lookup key = some value ∧ part key = piece := by
  rw [within, lookup_filter, Option.filter_eq_some_iff, decide_eq_true_iff]

theorem mem_valuesIn : value ∈ valuesIn part table piece ↔
    ∃ key, table.lookup key = some value ∧ part key = piece := by
  rw [valuesIn, Multiset.mem_coe, mem_values]
  exact exists_congr fun key => lookup_within

theorem valuesIn_congr (lookups : ∀ key, part key = piece → table.lookup key = other.lookup key) :
    valuesIn part table piece = valuesIn part other piece := by
  have same : Same (within part table piece) (within part other piece) := by
    rw [same_iff]
    intro key
    rw [within, within, lookup_filter, lookup_filter]
    by_cases inside : part key = piece
    · rw [lookups key inside]
    · simp [Option.filter, inside]
      cases table.lookup key <;> cases other.lookup key <;> rfl
  exact same.values

theorem values_insert_new (absent : table.lookup key = none) (value : ν) :
    (values (table.insert key value) : Multiset ν) = value ::ₘ (values table : Multiset ν) := by
  have fresh : key ∉ table.entries.keys := AList.lookup_eq_none.mp absent
  simp [values, AList.insert, List.kinsert, List.kerase_of_notMem_keys fresh]

theorem valuesIn_insert_new (absent : table.lookup key = none) (value : ν) :
    valuesIn part (table.insert key value) piece =
      (if part key = piece then {value} else 0) + valuesIn part table piece := by
  by_cases inside : part key = piece
  · have missing : (within part table piece).lookup key = none := by
      rw [within, lookup_filter, absent]
      rfl
    have same : Same (within part (table.insert key value) piece)
        ((within part table piece).insert key value) := by
      rw [same_iff]
      intro query
      rw [within, lookup_filter]
      by_cases here : query = key
      · rw [here, AList.lookup_insert, AList.lookup_insert]
        simp [Option.filter, inside]
      · rw [AList.lookup_insert_ne here, AList.lookup_insert_ne here, within, lookup_filter]
    rw [if_pos inside, valuesIn, same.values, values_insert_new missing,
      Multiset.singleton_add]
    rfl
  · rw [if_neg inside, zero_add]
    refine valuesIn_congr fun query member => AList.lookup_insert_ne fun same => ?_
    exact inside (same ▸ member)

theorem valuesIn_erase (part : κ → γ) (piece : γ) (held : table.lookup key = some value) :
    (if part key = piece then {value} else 0) + valuesIn part (table.erase key) piece =
      valuesIn part table piece := by
  have absent : (table.erase key).lookup key = none := AList.lookup_erase key table
  rw [← valuesIn_insert_new absent]
  refine valuesIn_congr fun query _ => ?_
  by_cases here : query = key
  · rw [here, AList.lookup_insert, held]
  · rw [AList.lookup_insert_ne here, AList.lookup_erase_ne here]

theorem valuesIn_replace (part : κ → γ) (piece : γ) (held : table.lookup key = some old)
    (value : ν) :
    (if part key = piece then {old} else 0) + valuesIn part (table.insert key value) piece =
      (if part key = piece then {value} else 0) + valuesIn part table piece := by
  have absent : (table.erase key).lookup key = none := AList.lookup_erase key table
  have same : valuesIn part (table.insert key value) piece =
      valuesIn part ((table.erase key).insert key value) piece := by
    refine valuesIn_congr fun query _ => ?_
    by_cases here : query = key
    · rw [here, AList.lookup_insert, AList.lookup_insert]
    · rw [AList.lookup_insert_ne here, AList.lookup_insert_ne here, AList.lookup_erase_ne here]
  rw [same, valuesIn_insert_new absent, ← valuesIn_erase part piece held]
  exact add_left_comm _ _ _

theorem values_split (part : κ → γ) {first second : γ} (apart : first ≠ second)
    (covered : ∀ key value, table.lookup key = some value → part key = first ∨ part key = second) :
    (values table : Multiset ν) = valuesIn part table first + valuesIn part table second := by
  set rows : Multiset (Sigma fun _ : κ => ν) := Multiset.ofList table.entries with rows_eq
  have inFirst : rows.filter (fun row => part row.1 = first) =
      Multiset.ofList (within part table first).entries := by
    simp [rows_eq, within, filter]
  have inSecond : rows.filter (fun row => ¬ part row.1 = first) =
      Multiset.ofList (within part table second).entries := by
    have same : rows.filter (fun row => ¬ part row.1 = first) =
        rows.filter (fun row => part row.1 = second) := by
      refine Multiset.filter_congr fun row member => ?_
      have held : table.lookup row.1 = some row.2 := by
        rw [← Option.mem_def, AList.mem_lookup_iff]
        exact member
      rcases covered _ _ held with here | here
      · simp [here, apart]
      · simp [here, apart.symm]
    rw [same]
    simp [rows_eq, within, filter]
  have whole := Multiset.filter_add_not (fun row => part row.1 = first) rows
  rw [inFirst, inSecond] at whole
  have mapped := congrArg (Multiset.map Sigma.snd) whole
  rw [Multiset.map_add] at mapped
  exact mapped.symm

end Table

end DurableContext
