import DurableContext.Storage.FixedPageCrash

/-! What one page write and one superblock write do to the copies that readers select, whatever the
copies are. -/

namespace DurableContext

namespace FixedPage

open Program

variable {E : Type} [SuperFields E] {disk : Disk (Block E)} {log : List (Effect (Block E))}
  {page slots epoch : Nat} {keys : Slots} {info new : Meta E} {active : Bool}

omit [SuperFields E] in
theorem copies_written (disk : Disk (Block E)) (epoch page newEpoch : Nat) (keys : Slots) :
    copiesAt Block.asAnyPage (disk.pwrite (target disk epoch page) (.page newEpoch keys))
        (2 + 2 * page) =
      Function.update (copiesAt Block.asAnyPage disk (2 + 2 * page))
        (DualCopy.writeTarget epoch (copiesAt Block.asAnyPage disk (2 + 2 * page)))
        (some (newEpoch, keys)) := by
  unfold target
  generalize DualCopy.writeTarget epoch (copiesAt Block.asAnyPage disk (2 + 2 * page)) = chosen
  funext slot
  rw [copiesAt, Disk.pread_pwrite]
  by_cases here : slot = chosen
  · rw [here, if_pos rfl, Function.update_self]
    rfl
  · have apart : 2 + 2 * page + slot.toNat ≠ 2 + 2 * page + chosen.toNat := by
      intro same
      apply here
      cases slot <;> cases chosen <;> simp_all
    rw [if_neg apart, Function.update_of_ne here]
    rfl

omit [SuperFields E] in
theorem uniform_written (uniform : Uniform disk slots page) (count : keys.length = slots)
    (epoch newEpoch : Nat) :
    Uniform (disk.pwrite (target disk epoch page) (.page newEpoch keys)) slots page := by
  intro slot tag held found
  rw [Disk.pread_pwrite] at found
  split at found
  · cases found
    exact count
  · exact uniform slot tag held found

omit [SuperFields E] in
/-- The block that is written is not the one that a reader at the committed epoch selects. -/
theorem target_ne_selected (uniform : Uniform disk slots page) {slot : Bool} {tagged : Nat × Slots}
    (selected : DualCopy.select epoch (copiesAt (Block.asPage slots) disk (2 + 2 * page)) =
      some (slot, tagged)) : target disk epoch page ≠ 2 + 2 * page + slot.toNat := by
  rw [uniform.copies] at selected
  have other : DualCopy.writeTarget epoch (copiesAt Block.asAnyPage disk (2 + 2 * page)) = !slot := by
    rw [DualCopy.writeTarget, selected]
  rw [target, other]
  cases slot <;> simp

omit [SuperFields E] in
theorem readLogicalPage_uniform (uniform : Uniform disk slots page) (epoch : Nat) :
    readLogicalPage disk page epoch slots =
      match DualCopy.select epoch (copiesAt Block.asAnyPage disk (2 + 2 * page)) with
      | some (_, _, keys) => .ok keys
      | none => .ok (List.replicate slots none) := by
  rw [← uniform.copies]
  rfl

omit [SuperFields E] in
theorem readLogicalPage_written (uniform : Uniform disk slots page) (count : keys.length = slots) :
    readLogicalPage (disk.pwrite (target disk epoch page) (.page (epoch + 1) keys)) page epoch slots =
        readLogicalPage disk page epoch slots ∧
      readLogicalPage (disk.pwrite (target disk epoch page) (.page (epoch + 1) keys)) page
        (epoch + 1) slots = .ok keys := by
  have kept := uniform_written uniform count epoch (epoch + 1)
  rw [readLogicalPage_uniform kept, readLogicalPage_uniform kept, readLogicalPage_uniform uniform,
    copies_written, DualCopy.select_write_next]
  refine ⟨?_, rfl⟩
  rw [DualCopy.select_write_preserves]
  intro found same
  cases same
  exact Nat.lt_succ_self epoch

omit [SuperFields E] in
theorem copies_superblock (disk : Disk (Block E)) (chosen : Bool) (block : Block E) :
    copiesAt Block.asSuperblock (disk.pwrite chosen.toNat block) 0 =
      Function.update (copiesAt Block.asSuperblock disk 0) chosen block.asSuperblock := by
  funext slot
  rw [copiesAt_zero, Disk.pread_pwrite]
  by_cases here : slot = chosen
  · rw [here, if_pos rfl, Function.update_self]
  · have apart : slot.toNat ≠ chosen.toNat := by
      intro same
      apply here
      cases slot <;> cases chosen <;> simp_all
    rw [if_neg apart, Function.update_of_ne here, copiesAt_zero]

omit [SuperFields E] in
theorem readSuper_torn (super : readSuper disk = .ok (epoch, info, active)) {block : Block E}
    (invalid : block.asSuperblock = none) :
    readSuper (disk.pwrite (!active).toNat block) = .ok (epoch, info, active) := by
  rw [readSuper_ok] at super ⊢
  rw [copies_superblock, invalid]
  refine DualCopy.newest_forget super (Function.update_of_ne (by cases active <;> simp) _ _) ?_
  exact Or.inr (Function.update_self _ _ _)

omit [SuperFields E] in
theorem readSuper_written (super : readSuper disk = .ok (epoch, info, active)) (newEpoch : Nat)
    (new : Meta E) :
    (readSuper (disk.pwrite (!active).toNat (.superblock newEpoch new)) =
        .ok (newEpoch, new, !active) ∨
      readSuper (disk.pwrite (!active).toNat (.superblock newEpoch new)) =
        .ok (epoch, info, active)) ∧
    (epoch < newEpoch → readSuper (disk.pwrite (!active).toNat (.superblock newEpoch new)) =
      .ok (newEpoch, new, !active)) := by
  have selected := DualCopy.newest_mem (readSuper_ok.mp super)
  have written : copiesAt Block.asSuperblock
      (disk.pwrite (!active).toNat (.superblock newEpoch new)) 0 (!active) =
        some (newEpoch, new) := by
    rw [copies_superblock, Function.update_self]
    rfl
  have kept : copiesAt Block.asSuperblock
      (disk.pwrite (!active).toNat (.superblock newEpoch new)) 0 active = some (epoch, info) := by
    rw [copies_superblock, Function.update_of_ne (by cases active <;> simp), selected]
  have younger : epoch < newEpoch → readSuper (disk.pwrite (!active).toNat
      (.superblock newEpoch new)) = .ok (newEpoch, new, !active) := by
    intro less
    rw [readSuper_ok]
    refine DualCopy.newest_eq written fun found other => Or.inl ?_
    rw [Bool.not_not, kept] at other
    cases other
    exact less
  refine ⟨?_, younger⟩
  rcases Nat.lt_trichotomy epoch newEpoch with less | same | more
  · exact Or.inl (younger less)
  · cases active with
    | true =>
        refine Or.inl (readSuper_ok.mpr (DualCopy.newest_eq written fun found other => ?_))
        rw [Bool.not_not, kept] at other
        cases other
        exact Or.inr ⟨rfl, same.le⟩
    | false =>
        refine Or.inr (readSuper_ok.mpr (DualCopy.newest_eq kept fun found other => ?_))
        rw [written] at other
        cases other
        exact Or.inr ⟨rfl, same.symm.le⟩
  · refine Or.inr (readSuper_ok.mpr (DualCopy.newest_eq kept fun found other => Or.inl ?_))
    rw [written] at other
    cases other
    exact more

theorem writeSuper_outcome (super : readSuper disk = .ok (epoch, info, active))
    (committed newEpoch : Nat) (new : Meta E) :
    Outcome (writeSuper committed newEpoch new) (⟨disk, log⟩ : File E)
      (fun _ file => file.disk = disk.pwrite (!active).toNat (.superblock newEpoch new))
      fun _ file => file = ⟨disk, log⟩ := by
  cases packed : (packSuper newEpoch new : Except StoreError (Block E)) with
  | error error => exact Outcome.of_error (writeSuper_refused super packed committed) rfl
  | ok block =>
      exact Outcome.of_ok (writeSuper_packed super packed committed) (by rw [(packSuper_ok packed).1])

omit [SuperFields E] in
theorem writeLogicalPage_outcome (disk : Disk (Block E)) (log : List (Effect (Block E)))
    (page epoch newEpoch : Nat) (keys : Slots) :
    Outcome (writeLogicalPage page epoch newEpoch keys) (⟨disk, log⟩ : File E)
      (fun _ file => file = ⟨disk.pwrite (target disk epoch page) (.page newEpoch keys),
        log ++ [.pwrite (target disk epoch page) (.page newEpoch keys)]⟩)
      fun _ file => file = ⟨disk, log⟩ := by
  unfold Outcome
  rw [writeLogicalPage_run]
  cases (packPage newEpoch keys : Except StoreError (Block E)) with
  | error error => rfl
  | ok block => rfl

omit [SuperFields E] in
/-- A page is written if and only if its payload and its epoch have room. -/
theorem writeLogicalPage_returns (page epoch newEpoch : Nat) (keys : Slots) (file : File E) :
    returned (writeLogicalPage page epoch newEpoch keys file) = true ↔
      pagePayloadLength keys ≤ MAX_PAYLOAD ∧ newEpoch < 2 ^ 64 := by
  rw [writeLogicalPage_run, packPage]
  by_cases large : MAX_PAYLOAD < pagePayloadLength keys
  · rw [if_pos large]
    exact iff_of_false Bool.false_ne_true fun fits => Nat.not_lt.mpr fits.1 large
  rw [if_neg large]
  by_cases late : 2 ^ 64 ≤ newEpoch
  · rw [if_pos late]
    exact iff_of_false Bool.false_ne_true fun fits => Nat.not_lt.mpr late fits.2
  · rw [if_neg late]
    exact iff_of_true rfl ⟨Nat.not_lt.mp large, Nat.not_le.mp late⟩

theorem writeSuper_returns (super : readSuper disk = .ok (epoch, info, active))
    (committed newEpoch : Nat) (new : Meta E) :
    returned (writeSuper committed newEpoch new (⟨disk, log⟩ : File E)) = true ↔
      superPayloadLength new ≤ MAX_PAYLOAD ∧ newEpoch < 2 ^ 64 := by
  cases packed : (packSuper newEpoch new : Except StoreError (Block E)) with
  | error error =>
      rw [@writeSuper_refused _ _ ⟨disk, log⟩ _ _ _ _ _ _ super packed committed]
      refine iff_of_false Bool.false_ne_true fun fits => ?_
      rcases (packSuper_error packed).1 with large | late
      · exact Nat.not_lt.mpr fits.1 large
      · exact Nat.not_lt.mpr late.2 fits.2
  | ok block =>
      rw [@writeSuper_packed _ _ ⟨disk, log⟩ _ _ _ _ _ _ super packed committed]
      exact iff_of_true rfl (packSuper_ok packed).2

/-- A page write at the next epoch spares the copy that is selected and shows its keys from then on
only; a superblock write shows the new superblock or the one before. A write that raises leaves the
file as it is. -/
theorem writes_keep_selected (disk : Disk (Block E)) (log : List (Effect (Block E)))
    (page slots epoch : Nat) (keys : Slots) (new : Meta E) (uniform : Uniform disk slots page)
    (count : keys.length = slots) :
    Outcome (writeLogicalPage page epoch (epoch + 1) keys) (⟨disk, log⟩ : File E)
      (fun _ file =>
        (∃ index, file.log = log ++ [.pwrite index (.page (epoch + 1) keys)] ∧
          ∀ slot tagged, DualCopy.select epoch
            (copiesAt (Block.asPage slots) disk (2 + 2 * page)) = some (slot, tagged) →
            index ≠ 2 + 2 * page + slot.toNat) ∧
        readLogicalPage file.disk page epoch slots = readLogicalPage disk page epoch slots ∧
        readLogicalPage file.disk page (epoch + 1) slots = .ok keys)
      (fun _ file => file = ⟨disk, log⟩) ∧
    ∀ tag info active, readSuper disk = .ok (tag, info, active) →
      Outcome (writeSuper epoch (epoch + 1) new) (⟨disk, log⟩ : File E)
        (fun _ file =>
          (readSuper file.disk = .ok (epoch + 1, new, !active) ∨
            readSuper file.disk = .ok (tag, info, active)) ∧
          (tag = epoch → readSuper file.disk = .ok (epoch + 1, new, !active)))
        (fun _ file => file = ⟨disk, log⟩) ∧
      ∀ block : Block E, block.asSuperblock = none →
        readSuper (disk.pwrite (!active).toNat block) = .ok (tag, info, active) := by
  refine ⟨?_, fun tag info active super => ⟨?_, fun block invalid => readSuper_torn super invalid⟩⟩
  · refine (writeLogicalPage_outcome disk log page epoch (epoch + 1) keys).mono ?_ fun _ _ same => same
    intro _ file same
    subst same
    refine ⟨⟨_, rfl, fun slot tagged selected => target_ne_selected uniform selected⟩, ?_⟩
    exact readLogicalPage_written uniform count
  · refine (writeSuper_outcome super epoch (epoch + 1) new).mono ?_ fun _ _ same => same
    intro _ file same
    obtain ⟨either, younger⟩ := readSuper_written super (epoch + 1) new
    rw [same]
    exact ⟨either, fun here => younger (by omega)⟩

def plainInfo : Meta Unit := initialMeta 2 ⟨1 / 2, "0.5", 1, 1, 1, 1, true⟩ ()

/-- A page with a committed copy and one that an abandoned transaction has left. -/
def tornDisk : Disk (Block Unit) :=
  ((createdDisk plainInfo).pwrite 2 (.page 1 [some "a"])).pwrite 3 (.page 4 [some "z"])

theorem writes_keep_selected_sample : Uniform tornDisk 1 0 ∧
    Outcome (writeLogicalPage 0 1 2 [some "b"]) (⟨tornDisk, []⟩ : File Unit)
      (fun _ file => readLogicalPage file.disk 0 1 1 = readLogicalPage tornDisk 0 1 1 ∧
        readLogicalPage file.disk 0 2 1 = .ok [some "b"])
      (fun _ file => file = ⟨tornDisk, []⟩) := by
  have uniform : Uniform tornDisk 1 0 := by
    intro slot tag keys held
    cases slot
    · cases held
      rfl
    · cases held
      rfl
  exact ⟨uniform, (writes_keep_selected tornDisk [] 0 1 1 [some "b"] plainInfo uniform rfl).1.mono
    (fun _ _ kept => kept.2) fun _ _ same => same⟩

end FixedPage
end DurableContext
