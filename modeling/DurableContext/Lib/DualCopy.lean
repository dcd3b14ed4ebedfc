import Mathlib.Logic.Function.Basic
import Mathlib.Data.Bool.Basic

/-! Records kept in two copies, each tagged with the epoch that wrote it.

A reader at an epoch takes the newest copy that is not younger than the epoch; a writer replaces
a copy the reader does not take. Nothing here knows what the records are. -/

namespace DurableContext.DualCopy

variable {α : Type}

/-- A copy that can be read back, with the epoch it is tagged with. -/
abbrev Copy (α : Type) := Option (Nat × α)

/-- The two copies of one record, by slot: `false` is the first slot. -/
abbrev Copies (α : Type) := Bool → Copy α

def visible (epoch : Nat) (copy : Copy α) : Copy α :=
  copy.filter fun tagged => decide (tagged.1 ≤ epoch)

/-- The copy with the largest tag; the first slot wins a tie. -/
def newest (copies : Copies α) : Option (Bool × Nat × α) :=
  match copies false, copies true with
  | none, none => none
  | some first, none => some (false, first)
  | none, some second => some (true, second)
  | some first, some second =>
      if first.1 < second.1 then some (true, second) else some (false, first)

def select (epoch : Nat) (copies : Copies α) : Option (Bool × Nat × α) :=
  newest fun slot => visible epoch (copies slot)

/-- The slot a writer may overwrite: the one not selected, or with nothing selected the first
slot that can be read back at all. -/
def writeTarget (epoch : Nat) (copies : Copies α) : Bool :=
  match select epoch copies with
  | some (slot, _) => !slot
  | none => !(copies false).isSome && (copies true).isSome

theorem visible_eq_some {epoch : Nat} {copy : Copy α} {tagged : Nat × α} :
    visible epoch copy = some tagged ↔ copy = some tagged ∧ tagged.1 ≤ epoch := by
  simp [visible, Option.filter_eq_some_iff]

theorem visible_eq_none {epoch : Nat} {copy : Copy α} :
    visible epoch copy = none ↔ ∀ tagged, copy = some tagged → epoch < tagged.1 := by
  cases copy with
  | none => simp [visible]
  | some tagged => simp [visible, Option.filter]

theorem newest_mem {copies : Copies α} {slot : Bool} {tagged : Nat × α}
    (selected : newest copies = some (slot, tagged)) : copies slot = some tagged := by
  unfold newest at selected
  split at selected
  · simp at selected
  · simp_all
  · simp_all
  · split at selected <;> simp_all

theorem newest_eq_none {copies : Copies α} : newest copies = none ↔ ∀ slot, copies slot = none := by
  unfold newest
  split
  · simp_all
  · simp_all
  · simp_all
  · split <;> simp_all

theorem select_mem {epoch : Nat} {copies : Copies α} {slot : Bool} {tagged : Nat × α}
    (selected : select epoch copies = some (slot, tagged)) :
    copies slot = some tagged ∧ tagged.1 ≤ epoch :=
  visible_eq_some.mp (newest_mem selected)

theorem select_eq_none {epoch : Nat} {copies : Copies α} :
    select epoch copies = none ↔ ∀ slot tagged, copies slot = some tagged → epoch < tagged.1 := by
  simp only [select, newest_eq_none, visible_eq_none]

/-- A reader sees no difference between two epochs when no tag lies strictly after the first and
not after the second. -/
theorem select_epoch {earlier later : Nat} {copies : Copies α} (order : earlier ≤ later)
    (gap : ∀ slot tagged, copies slot = some tagged → tagged.1 ≤ later → tagged.1 ≤ earlier) :
    select later copies = select earlier copies := by
  unfold select
  congr 1
  funext slot
  cases held : copies slot with
  | none => rfl
  | some tagged =>
      have same : (tagged.1 ≤ later) ↔ (tagged.1 ≤ earlier) :=
        ⟨gap slot tagged held, fun bound => Nat.le_trans bound order⟩
      simp [visible, Option.filter, same]

/-- Overwriting the copy that is not selected, by a younger one or by garbage, is invisible. -/
theorem select_update_other {epoch : Nat} {copies : Copies α} {slot : Bool} {tagged : Nat × α}
    (selected : select epoch copies = some (slot, tagged)) (copy : Copy α)
    (young : ∀ found, copy = some found → epoch < found.1) :
    select epoch (Function.update copies (!slot) copy) = some (slot, tagged) := by
  have hidden : visible epoch copy = none := visible_eq_none.mpr young
  have kept : visible epoch (copies slot) = some tagged := newest_mem selected
  cases slot <;> simp_all [select, newest, Function.update]

/-- A write at the next epoch to the target slot leaves the reader at this epoch alone. -/
theorem select_write_preserves (epoch : Nat) (copies : Copies α) (copy : Copy α)
    (young : ∀ found, copy = some found → epoch < found.1) :
    select epoch (Function.update copies (writeTarget epoch copies) copy) =
      select epoch copies := by
  cases selected : select epoch copies with
  | some chosen =>
      obtain ⟨slot, tagged⟩ := chosen
      simpa [writeTarget, selected] using select_update_other selected copy young
  | none =>
      rw [select_eq_none] at selected ⊢
      intro slot tagged present
      by_cases here : slot = writeTarget epoch copies
      · subst here
        exact young tagged (by simpa using present)
      · exact selected slot tagged (by simpa [here] using present)

theorem newest_eq {copies : Copies α} {slot : Bool} {tagged : Nat × α}
    (held : copies slot = some tagged)
    (rest : ∀ found, copies (!slot) = some found →
      found.1 < tagged.1 ∨ slot = false ∧ found.1 ≤ tagged.1) :
    newest copies = some (slot, tagged) := by
  cases other : copies (!slot) with
  | none => cases slot <;> simp_all [newest]
  | some found =>
      have bound := rest found other
      cases slot
      · have notYounger : ¬ tagged.1 < found.1 := by omega
        simp_all [newest]
      · have older : found.1 < tagged.1 := by simpa using bound
        simp_all [newest]

/-- Losing the copy that is not selected changes nothing. -/
theorem newest_forget {copies others : Copies α} {slot : Bool} {tagged : Nat × α}
    (selected : newest copies = some (slot, tagged)) (kept : others slot = copies slot)
    (rest : others (!slot) = copies (!slot) ∨ others (!slot) = none) :
    newest others = some (slot, tagged) := by
  have held := newest_mem selected
  rcases rest with same | lost
  · have equal : others = copies := by
      funext other
      cases slot <;> cases other <;> simp_all
    rw [equal, selected]
  · exact newest_eq (kept.trans held) fun found present => by
      rw [lost] at present
      cases present

/-- The reader at the next epoch gets what was just written, whatever abandoned writers left. -/
theorem select_write_next (epoch : Nat) (copies : Copies α) (value : α) :
    select (epoch + 1)
        (Function.update copies (writeTarget epoch copies) (some (epoch + 1, value))) =
      some (writeTarget epoch copies, epoch + 1, value) := by
  apply newest_eq
  · simp [visible]
  · intro found seen
    have present : copies (!writeTarget epoch copies) = some found ∧ found.1 ≤ epoch + 1 := by
      simpa [visible_eq_some] using seen
    cases selected : select epoch copies with
    | some chosen =>
        have held := select_mem selected
        have same : found = chosen.2 := by
          have here := present.1
          simp only [writeTarget, selected, Bool.not_not, held.1, Option.some.injEq] at here
          exact here.symm
        exact Or.inl (by rw [same]; omega)
    | none =>
        cases first : copies false with
        | none =>
            cases second : copies true <;> simp [writeTarget, selected, first, second] at present
        | some _ => exact Or.inr ⟨by simp [writeTarget, selected, first], present.2⟩

end DurableContext.DualCopy
