import DurableContext.Lib.BucketTable

/-! Tables with open addressing: a key has a sequence of positions to try, and lies at the first of
them that was free when it came. Nothing is ever taken out. -/

namespace DurableContext.OpenAddressing

variable {K : Type}

inductive Ended where
  | free (position : Nat)
  | found
  | full
  deriving DecidableEq, Repr

/-- The walk along a probe sequence, with the positions it looks at. -/
def walk [DecidableEq K] (slots : List (Option K)) (key : K) : List Nat → List Nat × Ended
  | [] => ([], .full)
  | position :: rest =>
      match slots[position]?.join with
      | none => ([position], .free position)
      | some current =>
          if current = key then ([position], .found)
          else
            let (seen, ended) := walk slots key rest
            (position :: seen, ended)

/-- No key twice, and before a stored key's position its probe sequence has no gap. -/
structure Wf (sequence : K → List Nat) (slots : List (Option K)) : Prop where
  nodup : slots.reduceOption.Nodup
  reached : ∀ position key, slots[position]? = some (some key) → ∃ before after,
    sequence key = before ++ position :: after ∧
      ∀ other ∈ before, slots[other]?.join ≠ none

variable {sequence : K → List Nat} {slots : List (Option K)} {key : K}

theorem mem_reduceOption {slots : List (Option K)} {key : K} :
    key ∈ slots.reduceOption ↔ ∃ position : Nat, slots[position]? = some (some key) := by
  rw [List.reduceOption_mem_iff, List.mem_iff_getElem?]

theorem join_eq_some {position : Nat} {current : K} :
    slots[position]?.join = some current ↔ slots[position]? = some (some current) := by
  cases slots[position]? with
  | none => simp
  | some slot => simp

theorem blank_wf (sequence : K → List Nat) (capacity : Nat) :
    Wf sequence (List.replicate capacity (none : Option K)) := by
  constructor
  · rw [List.reduceOption_replicate_none]
    exact List.nodup_nil
  · intro position key held
    rw [List.getElem?_replicate] at held
    split at held <;> cases held

variable [DecidableEq K]

theorem walk_found (positions : List Nat) (found : (walk slots key positions).2 = .found) :
    key ∈ slots.reduceOption := by
  induction positions with
  | nil => cases found
  | cons position rest ih =>
      rw [walk] at found
      split at found
      · cases found
      · rename_i current held
        split at found
        · rename_i same
          rw [← same]
          exact mem_reduceOption.mpr ⟨position, join_eq_some.mp held⟩
        · exact ih found

/-- A walk gets as far as the first position that has the key, unless it meets a gap. -/
theorem walk_of_reached {before after : List Nat} {position : Nat}
    (filled : ∀ other ∈ before, slots[other]?.join ≠ none)
    (held : slots[position]? = some (some key)) :
    (walk slots key (before ++ position :: after)).2 = .found := by
  induction before with
  | nil =>
      rw [List.nil_append, walk, join_eq_some.mpr held]
      simp
  | cons other before ih =>
      have further := ih fun next member => filled next (List.mem_cons_of_mem _ member)
      rw [List.cons_append, walk]
      split
      · rename_i gap
        exact absurd gap (filled other List.mem_cons_self)
      · split
        · rfl
        · exact further

theorem walk_found_iff (wf : Wf sequence slots) :
    (walk slots key (sequence key)).2 = .found ↔ key ∈ slots.reduceOption := by
  constructor
  · exact walk_found _
  · intro stored
    obtain ⟨position, held⟩ := mem_reduceOption.mp stored
    obtain ⟨before, after, split, filled⟩ := wf.reached position key held
    rw [split]
    exact walk_of_reached filled held

theorem walk_free {positions : List Nat} {position : Nat}
    (free : (walk slots key positions).2 = .free position) :
    slots[position]?.join = none ∧ ∃ before after, positions = before ++ position :: after ∧
      ∀ other ∈ before, slots[other]?.join ≠ none := by
  induction positions with
  | nil => cases free
  | cons first rest ih =>
      rw [walk] at free
      split at free
      · rename_i gap
        cases free
        exact ⟨gap, [], rest, rfl, by simp⟩
      · rename_i current held
        split at free
        · cases free
        · obtain ⟨gap, before, after, split, filled⟩ := ih free
          refine ⟨gap, first :: before, after, by rw [split]; rfl, ?_⟩
          intro other member
          rcases List.mem_cons.mp member with rfl | later
          · rw [held]
            simp
          · exact filled other later

theorem walk_full {positions : List Nat} (full : (walk slots key positions).2 = .full) :
    ∀ position ∈ positions, slots[position]?.join ≠ none := by
  induction positions with
  | nil => simp
  | cons first rest ih =>
      rw [walk] at full
      split at full
      · cases full
      · rename_i current held
        split at full
        · cases full
        · intro position member
          rcases List.mem_cons.mp member with rfl | later
          · rw [held]
            simp
          · exact ih full position later

/-- Where every position is tried, a new key finds a free one unless the table is full. -/
theorem walk_new (wf : Wf sequence slots) (covers : ∀ position < slots.length, position ∈ sequence key)
    (inside : ∀ position ∈ sequence key, position < slots.length)
    (fresh : key ∉ slots.reduceOption) (room : slots.reduceOption.length < slots.length) :
    ∃ position, (walk slots key (sequence key)).2 = .free position ∧
      slots[position]? = some none := by
  cases ended : (walk slots key (sequence key)).2 with
  | found => exact absurd ((walk_found_iff wf).mp ended) fresh
  | full =>
      have filled := walk_full ended
      obtain ⟨slot, member, gap⟩ : ∃ slot ∈ slots, slot = none := by
        by_contra all
        push Not at all
        have whole : slots.reduceOption.length = slots.length :=
          List.reduceOption_length_eq_iff.mpr fun slot member =>
            Option.isSome_iff_ne_none.mpr (all slot member)
        omega
      obtain ⟨position, bound, held⟩ := List.getElem_of_mem member
      refine absurd ?_ (filled position (covers position bound))
      rw [List.getElem?_eq_getElem bound, held, gap]
      rfl
  | free position =>
      obtain ⟨gap, before, after, split, _⟩ := walk_free ended
      have bound := inside position (by rw [split]; simp)
      refine ⟨position, rfl, ?_⟩
      rw [List.getElem?_eq_getElem bound] at gap ⊢
      exact congrArg some gap

omit [DecidableEq K] in
theorem contents_set {position : Nat} (free : slots[position]? = some none) (key : K) :
    ((slots.set position (some key)).reduceOption : Multiset K) = key ::ₘ slots.reduceOption := by
  have moved := BucketTable.reduceOption_set slots free (some key)
  rw [BucketTable.entry_none, add_zero, BucketTable.entry_some] at moved
  rw [moved, add_comm, Multiset.singleton_add]

theorem Wf.set (wf : Wf sequence slots) {position : Nat}
    (ended : (walk slots key (sequence key)).2 = .free position)
    (free : slots[position]? = some none) (fresh : key ∉ slots.reduceOption) :
    Wf sequence (slots.set position (some key)) := by
  have filled : ∀ other : Nat, slots[other]?.join ≠ none →
      (slots.set position (some key))[other]?.join ≠ none := by
    intro other held
    rw [List.getElem?_set]
    split
    · split
      · simp
      · rename_i same outside
        rw [← same, List.getElem?_eq_none (not_lt.mp outside)] at held
        exact absurd rfl held
    · exact held
  constructor
  · have grown := contents_set free key
    rw [← Multiset.coe_nodup, grown, Multiset.nodup_cons]
    exact ⟨fresh, Multiset.coe_nodup.mpr wf.nodup⟩
  · intro place other held
    by_cases same : place = position
    · subst same
      have bound : place < slots.length := (List.getElem?_eq_some_iff.mp free).1
      rw [List.getElem?_set_self bound] at held
      cases held
      obtain ⟨_, before, after, split, path⟩ := walk_free ended
      exact ⟨before, after, split, fun next member => filled next (path next member)⟩
    · rw [List.getElem?_set_ne (Ne.symm same)] at held
      obtain ⟨before, after, split, path⟩ := wf.reached place other held
      exact ⟨before, after, split, fun next member => filled next (path next member)⟩

end DurableContext.OpenAddressing
