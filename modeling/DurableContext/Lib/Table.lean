import Mathlib.Data.List.AList
import Mathlib.Tactic.Common

/-! A relational table with a primary key: rows by key, the deletion of the rows that meet a
condition, a table written key by key, and tables with the same rows. -/

namespace DurableContext

abbrev Table (κ ν : Type) := AList fun _ : κ => ν

namespace Table

variable {κ ν : Type} [DecidableEq κ]

def filter (keep : κ → ν → Bool) (table : Table κ ν) : Table κ ν where
  entries := table.entries.filter fun row => keep row.1 row.2
  nodupKeys := table.nodupKeys.sublist List.filter_sublist

theorem lookup_filter (keep : κ → ν → Bool) (table : Table κ ν) (key : κ) :
    (table.filter keep).lookup key = (table.lookup key).filter (keep key) := by
  ext row
  rw [← Option.mem_def, AList.mem_lookup_iff, Option.filter_eq_some_iff, ← Option.mem_def,
    AList.mem_lookup_iff]
  exact List.mem_filter

theorem filter_eq_self {keep : κ → ν → Bool} {table : Table κ ν}
    (kept : ∀ key row, table.lookup key = some row → keep key row = true) :
    table.filter keep = table := by
  apply AList.ext
  refine List.filter_eq_self.mpr fun row member => kept row.1 row.2 ?_
  rw [← Option.mem_def, AList.mem_lookup_iff]
  exact member

/-- The table with a row for the key, or without one. -/
def put (table : Table κ ν) (key : κ) : Option ν → Table κ ν
  | none => table.erase key
  | some row => table.insert key row

theorem lookup_put (table : Table κ ν) (key other : κ) (row : Option ν) :
    (put table key row).lookup other = if other = key then row else table.lookup other := by
  by_cases here : other = key
  · rw [if_pos here, here]
    cases row with
    | none => exact AList.lookup_erase key table
    | some row => exact AList.lookup_insert table
  · rw [if_neg here]
    cases row with
    | none => exact AList.lookup_erase_ne here
    | some row => exact AList.lookup_insert_ne here

/-- The rows that `row` gives the listed keys. -/
def tabulate (row : κ → Option ν) (keys : List κ) : Table κ ν :=
  keys.foldl (fun table key => match row key with | none => table | some value => table.insert key value)
    ∅

theorem lookup_foldl_tabulate (row : κ → Option ν) (keys : List κ) (table : Table κ ν) (key : κ) :
    (keys.foldl
        (fun table key => match row key with | none => table | some value => table.insert key value)
        table).lookup key =
      if key ∈ keys ∧ (row key).isSome then row key else table.lookup key := by
  induction keys generalizing table with
  | nil => simp
  | cons first rest ih =>
      rw [List.foldl_cons, ih]
      by_cases later : key ∈ rest ∧ (row key).isSome
      · rw [if_pos later, if_pos ⟨List.mem_cons_of_mem _ later.1, later.2⟩]
      · rw [if_neg later]
        by_cases same : key = first
        · subst same
          cases held : row key with
          | none => simp
          | some value => simp [AList.lookup_insert]
        · have skipped : ¬ (key ∈ first :: rest ∧ (row key).isSome) := by
            intro both
            exact later ⟨(List.mem_cons.mp both.1).resolve_left same, both.2⟩
          rw [if_neg skipped]
          cases row first with
          | none => rfl
          | some value => exact AList.lookup_insert_ne same

theorem lookup_tabulate (row : κ → Option ν) (keys : List κ) (key : κ) :
    (tabulate row keys).lookup key = if key ∈ keys then row key else none := by
  rw [tabulate, lookup_foldl_tabulate, AList.lookup_empty]
  by_cases listed : key ∈ keys
  · rw [if_pos listed]
    cases row key with
    | none => simp
    | some value => simp [listed]
  · rw [if_neg listed, if_neg fun both => listed both.1]

def ofKeys (keys : List κ) : Table κ Unit := tabulate (fun _ => some ()) keys

theorem mem_iff {table : Table κ ν} {key : κ} : key ∈ table ↔ (table.lookup key).isSome :=
  (AList.lookup_isSome).symm

theorem mem_ofKeys {keys : List κ} {key : κ} : key ∈ ofKeys keys ↔ key ∈ keys := by
  rw [mem_iff, ofKeys, lookup_tabulate]
  by_cases listed : key ∈ keys <;> simp [listed]

theorem mem_filter {table : Table κ ν} {keep : κ → Bool} {key : κ} :
    key ∈ table.filter (fun key _ => keep key) ↔ key ∈ table ∧ keep key = true := by
  rw [mem_iff, mem_iff, lookup_filter]
  cases table.lookup key with
  | none => simp
  | some value => simp [Option.filter]

theorem mem_foldl_insert {α : Type} (name : α → κ) {value : α → ν} (rows : List α)
    (table : Table κ ν) {key : κ} :
    key ∈ rows.foldl (fun table row => table.insert (name row) (value row)) table ↔
      key ∈ table ∨ ∃ row ∈ rows, key = name row := by
  induction rows generalizing table with
  | nil => simp
  | cons row rest ih =>
      rw [List.foldl_cons, ih, AList.mem_insert]
      simp only [List.exists_mem_cons_iff]
      tauto

/-- What a table holds after rows have been written is one of them, or was there before. -/
theorem lookup_foldl_insert {α : Type} {name : α → κ} {row : α → ν} {rows : List α}
    {table : Table κ ν} {key : κ} {value : ν}
    (held : (rows.foldl (fun table item => table.insert (name item) (row item)) table).lookup key =
      some value) :
    (∃ item ∈ rows, name item = key ∧ row item = value) ∨ table.lookup key = some value := by
  induction rows generalizing table with
  | nil => exact Or.inr held
  | cons item rows ih =>
      rcases ih held with ⟨other, member, same⟩ | before
      · exact Or.inl ⟨other, List.mem_cons_of_mem _ member, same⟩
      · by_cases here : key = name item
        · rw [here, AList.lookup_insert, Option.some.injEq] at before
          exact Or.inl ⟨item, List.mem_cons_self, here.symm, before⟩
        · rw [AList.lookup_insert_ne here] at before
          exact Or.inr before

theorem filter_kerase {key : κ} {rows : List (Sigma fun _ : κ => ν)}
    {keep : (Sigma fun _ : κ => ν) → Bool} (left : ∀ row ∈ rows, row.1 = key → keep row = false) :
    (rows.kerase key).filter keep = rows.filter keep := by
  induction rows with
  | nil => rfl
  | cons row rest ih =>
      have rest_left : ∀ other ∈ rest, other.1 = key → keep other = false :=
        fun other member => left other (List.mem_cons_of_mem _ member)
      by_cases same : key = row.1
      · rw [List.kerase_cons_eq same, List.filter_cons_of_neg]
        rw [left row List.mem_cons_self same.symm]
        exact Bool.false_ne_true
      · rw [List.kerase_cons_ne same, List.filter_cons, List.filter_cons, ih rest_left]

def Same (table other : Table κ ν) : Prop := table.entries.Perm other.entries

instance [DecidableEq ν] (table other : Table κ ν) : Decidable (Same table other) :=
  inferInstanceAs (Decidable (List.Perm _ _))

theorem same_iff {table other : Table κ ν} :
    Same table other ↔ ∀ key, table.lookup key = other.lookup key := by
  constructor
  · intro same key
    exact AList.perm_lookup same
  · intro lookups
    apply List.lookup_ext table.nodupKeys other.nodupKeys
    intro key value
    have held := lookups key
    simp only [AList.lookup] at held
    rw [held]

theorem same_keys_iff {table other : Table κ Unit} :
    Same table other ↔ ∀ key, key ∈ table ↔ key ∈ other := by
  rw [same_iff]
  constructor
  · intro lookups key
    rw [mem_iff, mem_iff, lookups]
  · intro members key
    have present := members key
    rw [mem_iff, mem_iff] at present
    cases held : table.lookup key with
    | none =>
        rw [held] at present
        exact (Option.not_isSome_iff_eq_none.mp fun found => nomatch present.mpr found).symm
    | some value =>
        rw [held] at present
        obtain ⟨other, found⟩ := Option.isSome_iff_exists.mp (present.mp rfl)
        rw [found]

end Table
end DurableContext
