import DurableContext.Storage.FixedPageCommit

/-! What an insert that did not commit leaves in the file, and what one that commits makes of it. -/

namespace DurableContext.FixedPage

open BucketTable Program

variable {E : Type} [SuperFields E] {hash : Hash} {initialCapacity : Nat} {disk disk' : Disk (Block E)}
  {epoch : Nat} {info : Meta E} {key : String}

/-- An effect that no reader at `epoch` can see: a page copy of the next epoch in the place of the
copy that is not selected, a file no shorter than the next generation needs, or the superblock
that is not active torn. -/
inductive Harmless (initialCapacity : Nat) (disk : Disk (Block E)) (epoch : Nat) (info : Meta E) :
    Effect (Block E) → Prop
  | page (page : Nat) (keys : Slots)
      (shape : keys.length = (layout info.config initialCapacity).role info.config page)
      (inside : page < info.startMigration.nextPageId) :
      Harmless initialCapacity disk epoch info (pageWrite disk epoch (epoch + 1) (page, keys))
  | grown (pages : Nat) (bound : info.startMigration.nextPageId ≤ pages) :
      Harmless initialCapacity disk epoch info (.ftruncate (2 + 2 * pages))
  | torn (active : Bool) (super : readSuper disk = .ok (epoch, info, active)) :
      Harmless initialCapacity disk epoch info (.pwrite (!active).toNat .blank)

structure Abandoned (initialCapacity : Nat) (disk : Disk (Block E)) (epoch : Nat) (info : Meta E)
    (disk' : Disk (Block E)) : Prop where
  pages : ∀ page (slot : Bool),
    disk'.pread (2 + 2 * page + slot.toNat) = disk.pread (2 + 2 * page + slot.toNat) ∨
      2 + 2 * page + slot.toNat = target disk epoch page ∧
        page < info.startMigration.nextPageId ∧ ∃ keys,
          disk'.pread (2 + 2 * page + slot.toNat) = .page (epoch + 1) keys ∧
          keys.length = (layout info.config initialCapacity).role info.config page
  super : ∀ active, readSuper disk = .ok (epoch, info, active) →
    disk'.pread active.toNat = disk.pread active.toNat ∧
      (disk'.pread (!active).toNat = disk.pread (!active).toNat ∨
        disk'.pread (!active).toNat = .blank)

omit [SuperFields E] in
theorem Abandoned.refl (disk : Disk (Block E)) : Abandoned initialCapacity disk epoch info disk :=
  ⟨fun _ _ => Or.inl rfl, fun _ _ => ⟨rfl, Or.inl rfl⟩⟩

theorem toNat_le (slot : Bool) : slot.toNat ≤ 1 := by cases slot <;> simp

omit [SuperFields E] in
theorem Abandoned.step (committed : Committed hash initialCapacity disk epoch info)
    (abandoned : Abandoned initialCapacity disk epoch info disk') {effect : Effect (Block E)}
    (harmless : Harmless initialCapacity disk epoch info effect) :
    Abandoned initialCapacity disk epoch info (disk'.apply effect) := by
  cases harmless with
  | page written keys shape inside =>
      have apart : ∀ slot : Bool, slot.toNat ≠ target disk epoch written := by
        intro slot
        have := toNat_le slot
        unfold target
        omega
      constructor
      · intro page slot
        by_cases here : 2 + 2 * page + slot.toNat = target disk epoch written
        · have same : page = written := by
            by_contra different
            exact target_ne different slot here.symm
          subst same
          exact Or.inr ⟨here, inside, keys, by simp [Disk.apply, pageWrite, here], shape⟩
        · rcases abandoned.pages page slot with kept | young
          · exact Or.inl (by simpa [Disk.apply, pageWrite, here] using kept)
          · exact Or.inr (by simpa [Disk.apply, pageWrite, here] using young)
      · intro active super
        simpa [Disk.apply, pageWrite, apart] using abandoned.super active super
  | grown pages bound =>
      constructor
      · intro page slot
        have small := toNat_le slot
        by_cases inside : page < pages
        · have kept : 2 + 2 * page + slot.toNat < 2 + 2 * pages := by omega
          simpa [Disk.apply, kept] using abandoned.pages page slot
        · have past : ¬ 2 + 2 * page + slot.toNat < 2 + 2 * pages := by omega
          refine Or.inl ?_
          rw [committed.beyond page (by omega) slot]
          simp [Disk.apply, past]
      · intro active super
        have first := toNat_le active
        have second := toNat_le (!active)
        have kept : active.toNat < 2 + 2 * pages := by omega
        have kept' : (!active).toNat < 2 + 2 * pages := by omega
        simpa only [Disk.apply, Disk.pread_ftruncate, kept, kept', if_true] using
          abandoned.super active super
  | torn active super =>
      constructor
      · intro page slot
        have apart : 2 + 2 * page + slot.toNat ≠ (!active).toNat := by
          have := toNat_le (!active)
          omega
        simpa only [Disk.apply, Disk.pread_pwrite, apart, if_false] using abandoned.pages page slot
      · intro other found
        have same : other = active := by
          rw [super] at found
          simpa using found.symm
        subst same
        refine ⟨?_, Or.inr (by simp [Disk.apply])⟩
        have apart : other.toNat ≠ (!other).toNat := by cases other <;> simp
        simpa only [Disk.apply, Disk.pread_pwrite, apart, if_false] using
          (abandoned.super other super).1

omit [SuperFields E] in
theorem readSuper_ok {active : Bool} :
    readSuper disk = .ok (epoch, info, active) ↔
      DualCopy.newest (copiesAt Block.asSuperblock disk 0) = some (active, epoch, info) := by
  unfold readSuper
  split
  · rename_i slot tag held selected
    rw [selected]
    simp only [Except.ok.injEq, Option.some.injEq, Prod.mk.injEq]
    tauto
  · rename_i none
    simp [none]

omit [SuperFields E] in
theorem copiesAt_zero (decode : Block E → DualCopy.Copy (Meta E)) (disk : Disk (Block E))
    (slot : Bool) : copiesAt decode disk 0 slot = decode (disk.pread slot.toNat) := by
  simp [copiesAt]

omit [SuperFields E] in
theorem Abandoned.readSuper (abandoned : Abandoned initialCapacity disk epoch info disk')
    {active : Bool} (super : readSuper disk = .ok (epoch, info, active)) :
    readSuper disk' = .ok (epoch, info, active) := by
  obtain ⟨kept, other⟩ := abandoned.super active super
  rw [readSuper_ok] at super ⊢
  refine DualCopy.newest_forget super (by rw [copiesAt_zero, copiesAt_zero, kept]) ?_
  rw [copiesAt_zero, copiesAt_zero]
  rcases other with same | blank
  · exact Or.inl (by rw [same])
  · exact Or.inr (by rw [blank]; rfl)

omit [SuperFields E] in
theorem target_iff (disk : Disk (Block E)) (epoch page : Nat) (slot : Bool) :
    2 + 2 * page + slot.toNat = target disk epoch page ↔
      slot = DualCopy.writeTarget epoch (copiesAt Block.asAnyPage disk (2 + 2 * page)) := by
  unfold target
  generalize DualCopy.writeTarget epoch (copiesAt Block.asAnyPage disk (2 + 2 * page)) = other
  cases slot <;> cases other <;> simp

omit [SuperFields E] in
/-- The copies of a page after harmless effects: as before, or with the one not selected young. -/
theorem Abandoned.copies (abandoned : Abandoned initialCapacity disk epoch info disk')
    (page : Nat) :
    copiesAt Block.asAnyPage disk' (2 + 2 * page) = copiesAt Block.asAnyPage disk (2 + 2 * page) ∨
      ∃ keys, copiesAt Block.asAnyPage disk' (2 + 2 * page) =
        Function.update (copiesAt Block.asAnyPage disk (2 + 2 * page))
          (DualCopy.writeTarget epoch (copiesAt Block.asAnyPage disk (2 + 2 * page)))
          (some (epoch + 1, keys)) := by
  have slots := target_iff disk epoch page
  rcases abandoned.pages page (DualCopy.writeTarget epoch
      (copiesAt Block.asAnyPage disk (2 + 2 * page))) with kept | ⟨_, _, keys, young, _⟩
  · left
    funext slot
    simp only [copiesAt]
    rcases abandoned.pages page slot with same | ⟨here, _⟩
    · rw [same]
    · rw [← (slots slot).mp here] at kept
      rw [kept]
  · right
    refine ⟨keys, ?_⟩
    funext slot
    by_cases here : slot = DualCopy.writeTarget epoch
        (copiesAt Block.asAnyPage disk (2 + 2 * page))
    · rw [← here] at young ⊢
      rw [Function.update_self]
      simp only [copiesAt, young, Block.asAnyPage]
    · rw [Function.update_of_ne here]
      rcases abandoned.pages page slot with same | ⟨there, _⟩
      · simp only [copiesAt, same]
      · exact absurd ((slots slot).mp there) here

omit [SuperFields E] in
theorem Abandoned.roles (committed : Committed hash initialCapacity disk epoch info)
    (abandoned : Abandoned initialCapacity disk epoch info disk') (page : Nat) (slot : Bool)
    (tag : Nat) (keys : Slots)
    (held : disk'.pread (2 + 2 * page + slot.toNat) = .page tag keys) :
    keys.length = (layout info.config initialCapacity).role info.config page := by
  rcases abandoned.pages page slot with same | ⟨_, _, written, young, shape⟩
  · exact committed.roles page slot tag keys (same ▸ held)
  · rw [young] at held
    cases held
    exact shape

/-- Each copy of the page is unreadable or has the slots that are asked for. -/
def Uniform (disk : Disk (Block E)) (slots page : Nat) : Prop :=
  ∀ (slot : Bool) tag keys, disk.pread (2 + 2 * page + slot.toNat) = .page tag keys →
    keys.length = slots

omit [SuperFields E] in
theorem Uniform.copies {slots page : Nat} (uniform : Uniform disk slots page) :
    copiesAt (Block.asPage slots) disk (2 + 2 * page) =
      copiesAt Block.asAnyPage disk (2 + 2 * page) := by
  funext slot
  simp only [copiesAt]
  cases held : disk.pread (2 + 2 * page + slot.toNat) with
  | page tag keys => simp [Block.asPage, Block.asAnyPage, uniform slot tag keys held]
  | _ => rfl

omit [SuperFields E] in
theorem pageAt_any {config : Config} {epoch page : Nat}
    (roles : ∀ (slot : Bool) tag keys, disk.pread (2 + 2 * page + slot.toNat) = .page tag keys →
      keys.length = (layout config initialCapacity).role config page) :
    pageAt disk epoch ((layout config initialCapacity).role config page) page =
      match DualCopy.select epoch (copiesAt Block.asAnyPage disk (2 + 2 * page)) with
      | some (_, _, keys) => keys
      | none => List.replicate ((layout config initialCapacity).role config page) none := by
  have same := Uniform.copies roles
  exact congrArg (fun copies => match DualCopy.select epoch copies with
    | some (_, _, keys) => keys
    | none => List.replicate ((layout config initialCapacity).role config page) none) same

omit [SuperFields E] in
theorem Abandoned.view (committed : Committed hash initialCapacity disk epoch info)
    (abandoned : Abandoned initialCapacity disk epoch info disk') :
    view info.config initialCapacity disk' epoch = view info.config initialCapacity disk epoch := by
  funext page
  unfold FixedPage.view
  rw [pageAt_any (abandoned.roles committed page), pageAt_any (committed.roles page)]
  rcases abandoned.copies page with same | ⟨keys, young⟩
  · rw [same]
  · rw [young, DualCopy.select_write_preserves]
    intro found equal
    cases equal
    exact Nat.lt_succ_self epoch

omit [SuperFields E] in
/-- Whatever an insert leaves short of its commit, the committed state is as it was. -/
theorem Committed.abandoned (committed : Committed hash initialCapacity disk epoch info)
    (abandoned : Abandoned initialCapacity disk epoch info disk') :
    Committed hash initialCapacity disk' epoch info where
  super := by
    obtain ⟨active, super⟩ := committed.super
    exact ⟨active, abandoned.readSuper super⟩
  laid := committed.laid
  roles := abandoned.roles committed
  unborn := by
    intro page past
    rw [abandoned.view committed]
    exact committed.unborn page past
  beyond := by
    intro page past slot
    rcases abandoned.pages page slot with same | ⟨_, inside, _⟩
    · rw [same]
      exact committed.beyond page past slot
    · omega
  wf := by
    rw [abandoned.view committed]
    exact committed.wf

omit [SuperFields E] in
theorem Committed.replay (committed : Committed hash initialCapacity disk epoch info)
    {effects : List (Effect (Block E))}
    (harmless : ∀ effect ∈ effects, Harmless initialCapacity disk epoch info effect) :
    Abandoned initialCapacity disk epoch info (disk.replay effects) :=
  Disk.replay_induction (Abandoned.refl disk)
    fun effect member _ kept => kept.step committed (harmless effect member)

omit [SuperFields E] in
theorem Committed.truncated (committed : Committed hash initialCapacity disk epoch info) :
    Committed hash initialCapacity (disk.ftruncate (2 + 2 * info.nextPageId)) epoch info ∧
      view info.config initialCapacity (disk.ftruncate (2 + 2 * info.nextPageId)) epoch =
        view info.config initialCapacity disk epoch := by
  have kept : ∀ page < 2 + 2 * info.nextPageId,
      (disk.ftruncate (2 + 2 * info.nextPageId)).pread page = disk.pread page := by
    intro page inside
    simp [inside]
  have gone : ∀ page, info.nextPageId ≤ page → ∀ slot : Bool,
      (disk.ftruncate (2 + 2 * info.nextPageId)).pread (2 + 2 * page + slot.toNat) = .blank := by
    intro page past slot
    have outside : ¬ 2 + 2 * page + slot.toNat < 2 + 2 * info.nextPageId := by omega
    simp [outside]
  have same : view info.config initialCapacity (disk.ftruncate (2 + 2 * info.nextPageId)) epoch =
      view info.config initialCapacity disk epoch := by
    funext page
    by_cases inside : page < info.nextPageId
    · refine pageAt_congr fun slot => kept _ ?_
      have := toNat_le slot
      omega
    · rw [committed.unborn page (by omega), view, pageAt_blank (gone page (by omega))]
  obtain ⟨active, super⟩ := committed.super
  refine ⟨⟨⟨active, ?_⟩, committed.laid, ?_, ?_, ?_, by rw [same]; exact committed.wf⟩, same⟩
  · rw [readSuper_ok] at super ⊢
    rw [← super]
    congr 1
    funext slot
    have := toNat_le slot
    rw [copiesAt_zero, copiesAt_zero, kept _ (by omega)]
  · intro page slot tag keys held
    by_cases inside : page < info.nextPageId
    · rw [kept _ (by have := toNat_le slot; omega)] at held
      exact committed.roles page slot tag keys held
    · rw [gone page (by omega) slot] at held
      cases held
  · intro page past
    rw [same]
    exact committed.unborn page past
  · intro page past slot
    exact gone page ((Nat.le_add_right _ _).trans past) slot

/-- The file once an insert has committed: every changed page written and the superblock too. -/
def committedDisk (disk : Disk (Block E)) (epoch : Nat) (tx : Txn E) (active : Bool) :
    Disk (Block E) :=
  (disk.replay (tx.sortedChanges.map (pageWrite disk epoch (epoch + 1)))).pwrite (!active).toNat
    (.superblock (epoch + 1) tx.info)

section Commit

variable {tx : Txn E} {active : Bool}

omit [SuperFields E] in
theorem committedDisk_page (page : Nat) (slot : Bool) :
    (committedDisk disk epoch tx active).pread (2 + 2 * page + slot.toNat) =
      (disk.replay (tx.sortedChanges.map (pageWrite disk epoch (epoch + 1)))).pread
        (2 + 2 * page + slot.toNat) := by
  have apart : 2 + 2 * page + slot.toNat ≠ (!active).toNat := by
    have := toNat_le (!active)
    omega
  simp only [committedDisk, Disk.pread_pwrite, apart, if_false]

omit [SuperFields E] in
theorem readSuper_advance {active : Bool} (super : readSuper disk = .ok (epoch, info, active))
    (info' : Meta E) :
    readSuper (disk.pwrite (!active).toNat (.superblock (epoch + 1) info')) =
      .ok (epoch + 1, info', !active) := by
  rw [readSuper_ok] at super ⊢
  have held := DualCopy.newest_mem super
  have older : copiesAt Block.asSuperblock
      (disk.pwrite (!active).toNat (.superblock (epoch + 1) info')) 0 active =
      some (epoch, info) := by
    have apart : active.toNat ≠ (!active).toNat := by cases active <;> simp
    rw [copiesAt_zero] at held ⊢
    simp only [Disk.pread_pwrite, apart, if_false, held]
  refine DualCopy.newest_eq ?_ ?_
  · simp [copiesAt_zero, Block.asSuperblock]
  · intro found present
    rw [Bool.not_not, older] at present
    cases present
    exact Or.inl (Nat.lt_succ_self epoch)

omit [SuperFields E] in
theorem committedDisk_super (super : readSuper disk = .ok (epoch, info, active)) :
    readSuper (committedDisk disk epoch tx active) = .ok (epoch + 1, tx.info, !active) := by
  have unread : readSuper (disk.replay (tx.sortedChanges.map (pageWrite disk epoch (epoch + 1)))) =
      .ok (epoch, info, active) := by
    rw [readSuper_ok] at super ⊢
    rw [← super]
    congr 1
    funext slot
    rw [copiesAt_zero, copiesAt_zero, Disk.pread_replay_other fun effect member => ?_]
    obtain ⟨change, _, rfl⟩ := List.mem_map.mp member
    refine ⟨_, _, rfl, ?_⟩
    have := toNat_le slot
    unfold target
    omega
  exact readSuper_advance unread tx.info

omit [SuperFields E] in
theorem committedDisk_block (page : Nat) (slot : Bool) :
    (committedDisk disk epoch tx active).pread (2 + 2 * page + slot.toNat) =
      match tx.changes.lookup page with
      | some keys =>
          if slot = DualCopy.writeTarget epoch (copiesAt Block.asAnyPage disk (2 + 2 * page)) then
            .page (epoch + 1) keys
          else disk.pread (2 + 2 * page + slot.toNat)
      | none => disk.pread (2 + 2 * page + slot.toNat) := by
  have written := pread_written disk disk epoch (epoch + 1) (sortedChanges_nodup tx) page slot
  rw [committedDisk_page]
  cases held : tx.changes.lookup page with
  | none =>
      refine written.2 (Or.inl fun member => ?_)
      obtain ⟨⟨_, keys⟩, inside, rfl⟩ := List.mem_map.mp member
      rw [mem_sortedChanges, held] at inside
      cases inside
  | some keys =>
      simp only
      split
      · rename_i here
        exact written.1 keys (mem_sortedChanges.mpr held) ((target_iff disk epoch page slot).mpr here)
      · rename_i elsewhere
        exact written.2 (Or.inr (mt (target_iff disk epoch page slot).mp elsewhere))

omit [SuperFields E] in
theorem committedDisk_roles (active : Bool) (committed : Committed hash initialCapacity disk epoch info)
    (shape : ∀ page keys, tx.changes.lookup page = some keys →
      keys.length = (layout info.config initialCapacity).role info.config page) (page : Nat)
    (slot : Bool) (tag : Nat) (keys : Slots)
    (held : (committedDisk disk epoch tx active).pread (2 + 2 * page + slot.toNat) =
      .page tag keys) :
    keys.length = (layout info.config initialCapacity).role info.config page := by
  rw [committedDisk_block] at held
  cases changed : tx.changes.lookup page with
  | none =>
      rw [changed] at held
      exact committed.roles page slot tag keys held
  | some written =>
      simp only [changed] at held
      split at held
      · cases held
        exact shape page _ changed
      · exact committed.roles page slot tag keys held

omit [SuperFields E] in
/-- After a commit a changed page shows what was written, and any other what the file showed at
the new epoch before. -/
theorem committedDisk_pageAt (committed : Committed hash initialCapacity disk epoch info)
    (shape : ∀ page keys, tx.changes.lookup page = some keys →
      keys.length = (layout info.config initialCapacity).role info.config page) (page : Nat) :
    pageAt (committedDisk disk epoch tx active) (epoch + 1)
        ((layout info.config initialCapacity).role info.config page) page =
      match tx.changes.lookup page with
      | some keys => keys
      | none => pageAt disk (epoch + 1)
          ((layout info.config initialCapacity).role info.config page) page := by
  cases held : tx.changes.lookup page with
  | none => exact pageAt_congr fun slot => by rw [committedDisk_block, held]
  | some keys =>
      have copies : copiesAt Block.asAnyPage (committedDisk disk epoch tx active) (2 + 2 * page) =
          Function.update (copiesAt Block.asAnyPage disk (2 + 2 * page))
            (DualCopy.writeTarget epoch (copiesAt Block.asAnyPage disk (2 + 2 * page)))
            (some (epoch + 1, keys)) := by
        funext slot
        simp only [copiesAt, committedDisk_block, held, Function.update_apply]
        split <;> simp [Block.asAnyPage]
      rw [pageAt_any (committedDisk_roles active committed shape page), copies,
        DualCopy.select_write_next]

omit [SuperFields E] in
/-- The insert that commits: its file is committed at the next epoch and shows what its
transaction showed, given that no page it leaves alone changes its looks with the epoch. -/
theorem Committed.commit (committed : Committed hash initialCapacity disk epoch info)
    (super : readSuper disk = .ok (epoch, info, active))
    (shape : ∀ page keys, tx.changes.lookup page = some keys →
      page < tx.info.nextPageId ∧
        keys.length = (layout info.config initialCapacity).role info.config page)
    (laid : Laid (layout info.config initialCapacity) tx.info)
    (grows : info.nextPageId ≤ tx.info.nextPageId)
    (conf : tx.info.config = info.config)
    (wf : (tx.logical (view info.config initialCapacity disk epoch)).Wf hash info.config)
    (settled : ∀ page, tx.changes.lookup page = none → ∀ slots,
      pageAt disk (epoch + 1) slots page = pageAt disk epoch slots page) :
    Committed hash initialCapacity (committedDisk disk epoch tx active) (epoch + 1) tx.info ∧
      view info.config initialCapacity (committedDisk disk epoch tx active) (epoch + 1) =
        tx.view (view info.config initialCapacity disk epoch) := by
  have shown : view info.config initialCapacity (committedDisk disk epoch tx active) (epoch + 1) =
      tx.view (view info.config initialCapacity disk epoch) := by
    funext page
    rw [view, committedDisk_pageAt committed fun page keys held => (shape page keys held).2]
    unfold Txn.view
    cases held : tx.changes.lookup page with
    | none => exact settled page held _
    | some keys => rfl
  have kept : ∀ page, tx.info.nextPageId ≤ page → tx.changes.lookup page = none := by
    intro page past
    cases held : tx.changes.lookup page with
    | none => rfl
    | some keys => exact absurd (shape page keys held).1 (by omega)
  have roles := committedDisk_roles active committed
    fun page keys held => (shape page keys held).2
  refine ⟨⟨⟨!active, committedDisk_super super⟩, by rw [conf]; exact laid,
    by rw [conf]; exact roles, ?_, ?_, ?_⟩, shown⟩
  · intro page past
    rw [conf, shown, Txn.view, kept page past]
    exact committed.unborn page (grows.trans past)
  · intro page past slot
    have order : info.currentGeneration ≤ tx.info.currentGeneration := by
      refine (layout_apart info.config initialCapacity).le_of_finish ?_
      have next := laid.next
      rw [conf] at next
      rw [← committed.laid.next, ← next]
      exact grows
    have further : info.startMigration.nextPageId ≤ tx.info.startMigration.nextPageId := by
      have laid' := laid
      rw [← conf] at laid'
      rw [startMigration_next committed.laid committed.wf.next, startMigration_next laid' wf.next,
        conf]
      exact (layout_apart _ _).finish_mono (Nat.succ_le_succ order)
    rw [committedDisk_block, kept page ((Nat.le_add_right _ _).trans past)]
    exact committed.beyond page (further.trans past) slot
  · rw [conf, shown]
    exact wf

end Commit

/-- The file once an insert that started from it has committed. -/
def File.commit (file : File E) (epoch : Nat) (tx : Txn E) (active : Bool) : File E :=
  ⟨committedDisk file.disk epoch tx active, (file.written epoch (epoch + 1) tx.sortedChanges).log ++
    [.pwrite (!active).toNat (.superblock (epoch + 1) tx.info)]⟩

theorem writeSuper_packed {file : File E} {info new : Meta E} {epoch newEpoch : Nat} {active : Bool}
    {block : Block E} (super : readSuper file.disk = .ok (epoch, info, active))
    (packed : packSuper newEpoch new = .ok block) (committed : Nat) :
    writeSuper committed newEpoch new file =
      .ok ⟨⟩ ⟨file.disk.pwrite (!active).toNat block,
        file.log ++ [.pwrite (!active).toNat block]⟩ := by
  unfold writeSuper
  rw [bind_of_ok (get_run _), super, bind_of_ok (ofResult_ok _ _), packed]
  exact (bind_of_ok (ofResult_ok block _)).trans rfl

theorem writeSuper_refused {file : File E} {info new : Meta E} {epoch newEpoch : Nat} {active : Bool}
    {error : StoreError} (super : readSuper file.disk = .ok (epoch, info, active))
    (refused : (packSuper newEpoch new : Except StoreError (Block E)) = .error error)
    (committed : Nat) : writeSuper committed newEpoch new file = .error error file := by
  unfold writeSuper
  rw [bind_of_ok (get_run _), super, bind_of_ok (ofResult_ok _ _), refused]
  exact bind_of_error (ofResult_error error _)

theorem writeSuper_run {file : File E} {tx : Txn E} {active : Bool}
    (super : readSuper (file.written epoch (epoch + 1) tx.sortedChanges).disk =
      .ok (epoch, info, active)) :
    writeSuper epoch (epoch + 1) tx.info (file.written epoch (epoch + 1) tx.sortedChanges) =
        .ok ⟨⟩ (file.commit epoch tx active) ∧ epoch + 1 < 2 ^ 64 ∨
      ∃ error, writeSuper epoch (epoch + 1) tx.info
          (file.written epoch (epoch + 1) tx.sortedChanges) =
        .error error (file.written epoch (epoch + 1) tx.sortedChanges) ∧
        (packSuper (epoch + 1) tx.info : Except StoreError (Block E)) = .error error := by
  cases packed : (packSuper (epoch + 1) tx.info : Except StoreError (Block E)) with
  | error error => exact Or.inr ⟨error, writeSuper_refused super packed epoch, rfl⟩
  | ok block =>
      obtain ⟨rfl, _, early⟩ := packSuper_ok packed
      exact Or.inl ⟨writeSuper_packed super packed epoch, early⟩

omit [SuperFields E] in
theorem Extended.abandoned (committed : Committed hash initialCapacity disk epoch info)
    {log : List (Effect (Block E))} {file : File E}
    (extended : Extended disk log info.startMigration.nextPageId file) :
    Abandoned initialCapacity disk epoch info file.disk := by
  cases extended with
  | same => exact .refl disk
  | grown => exact (Abandoned.refl disk).step committed (.grown _ le_rfl)

omit [SuperFields E] in
theorem Ready.harmless {tx : Txn E}
    (ready : Ready hash initialCapacity disk epoch info key tx) {done rest : List (Nat × Slots)}
    (split : tx.sortedChanges = done ++ rest) {disk' : Disk (Block E)} :
    ∀ effect ∈ done.map (pageWrite disk' epoch (epoch + 1)),
      Harmless initialCapacity disk' epoch info effect := by
  intro effect member
  obtain ⟨⟨page, keys⟩, inside, rfl⟩ := List.mem_map.mp member
  have changed : tx.changes.lookup page = some keys := by
    rw [← mem_sortedChanges, split]
    exact List.mem_append_left _ inside
  obtain ⟨bound, shape⟩ := ready.shape page keys changed
  exact .page page keys shape (bound.trans_le ready.room)

omit [SuperFields E] in
theorem Ready.kept {tx : Txn E} (ready : Ready hash initialCapacity disk epoch info key tx)
    (committed : Committed hash initialCapacity disk epoch info) {active : Bool}
    (super : readSuper disk = .ok (epoch, info, active)) {log : List (Effect (Block E))}
    {file : File E} (extended : Extended disk log info.startMigration.nextPageId file) :
    readSuper (file.written epoch (epoch + 1) tx.sortedChanges).disk =
      .ok (epoch, info, active) := by
  have grown := extended.abandoned committed
  exact ((committed.abandoned grown).replay
    (ready.harmless (List.append_nil _).symm)).readSuper (grown.readSuper super)

/-- An insert that has a transaction to write, from its first page write on. -/
theorem insert_begun {active : Bool} (super : readSuper disk = .ok (epoch, info, active))
    {log : List (Effect (Block E))} {tx : Txn E} {prepared : Prepared} {file : File E}
    (ran : prepareInsert hash (methods hash) epoch info key ⟨disk, log⟩ = .ok (tx, prepared) file)
    (new : prepared.duplicate = false) (failpoint : String → Bool) :
    insert hash (methods hash) failpoint key ⟨disk, log⟩ = (do
      writePages (methods hash) epoch (epoch + 1) tx.sortedChanges
      reach failpoint "pages_written"
      reach failpoint "data_synced"
      (methods hash).writeSuper epoch (epoch + 1) tx.info
      reach failpoint "committed"
      pure ⟨false, epoch + 1, prepared.migrationStarted, prepared.migrationCompleted,
        prepared.scanned, prepared.moved, prepared.work, tx.changes.keys.length, tx.info.liveSize,
        tx.info.currentCapacity, tx.info.old.isSome, tx.info.migrationCursor⟩ :
        Op StoreError (File E) InsertTrace) file := by
  have read : (methods hash).readSuper (⟨disk, log⟩ : File E) = .ok (epoch, info, active) := super
  unfold insert
  rw [bind_of_ok (get_run _), read, bind_of_ok (ofResult_ok _ _)]
  simp only
  rw [bind_of_ok ran]
  simp only [new, Bool.false_eq_true, if_false]

/-- Why an insert stopped after its first page write and before its superblock write. -/
def Interruption (failpoint : String → Bool) (tx : Txn E) (newEpoch : Nat) (error : StoreError) :
    Prop :=
  error.isExhausted = false ∧ ((∃ label, failpoint label = true) ∨ ¬ Fits tx newEpoch)

/-- The ways an insert can end: a duplicate, a refusal, an interruption short of the superblock,
and a commit, which a failpoint may still turn into an exception. -/
theorem insert_run (committed : Committed hash initialCapacity disk epoch info) {active : Bool}
    (super : readSuper disk = .ok (epoch, info, active)) (log : List (Effect (Block E)))
    (failpoint : String → Bool) (key : String) :
    (∃ trace, insert hash (methods hash) failpoint key ⟨disk, log⟩ = .ok trace ⟨disk, log⟩ ∧
      trace.duplicate = true ∧
      key ∈ (info.logical (view info.config initialCapacity disk epoch)).keys hash info.config ∧
      trace.migrationStarted = false) ∨
    (∃ error file', insert hash (methods hash) failpoint key ⟨disk, log⟩ = .error error file' ∧
      Extended disk log info.startMigration.nextPageId file' ∧
      prepareInsert hash (methods hash) epoch info key ⟨disk, log⟩ = .error error file' ∧
      Refusal hash initialCapacity disk epoch info key error) ∨
    (∃ tx prepared file', prepareInsert hash (methods hash) epoch info key ⟨disk, log⟩ =
        .ok (tx, prepared) file' ∧ prepared.duplicate = false ∧
      Extended disk log info.startMigration.nextPageId file' ∧
      Ready hash initialCapacity disk epoch info key tx ∧
      ((∃ done rest error, tx.sortedChanges = done ++ rest ∧
          insert hash (methods hash) failpoint key ⟨disk, log⟩ =
            .error error (file'.written epoch (epoch + 1) done) ∧
          Interruption failpoint tx (epoch + 1) error) ∨
        (∃ trace, insert hash (methods hash) failpoint key ⟨disk, log⟩ =
            .ok trace (file'.commit epoch tx active) ∧ trace.duplicate = false ∧
            trace.migrationStarted = prepared.migrationStarted) ∨
        insert hash (methods hash) failpoint key ⟨disk, log⟩ =
          .error (.interrupted "committed") (file'.commit epoch tx active) ∧
          failpoint "committed" = true)) := by
  have read : (methods hash).readSuper (⟨disk, log⟩ : File E) = .ok (epoch, info, active) := super
  rcases prepareInsert_ok committed log key with ⟨tx, ran, _, member⟩ | ⟨tx, prepared, file', ran, new,
    extended, ready⟩ | ⟨error, file', ran, extended, reason⟩
  · left
    unfold insert
    rw [bind_of_ok (get_run _), read, bind_of_ok (ofResult_ok _ _)]
    simp only
    rw [bind_of_ok ran]
    exact ⟨_, rfl, rfl, member, rfl⟩
  · right
    right
    refine ⟨tx, prepared, file', ran, new, extended, ready, ?_⟩
    rw [insert_begun super ran new failpoint]
    obtain ⟨done, rest, split, written | ⟨error, failed, page, keys, member, packed⟩⟩ :=
      writePages_run hash epoch (epoch + 1) tx.sortedChanges file' (sortedChanges_nodup tx)
    · obtain ⟨ran', rfl⟩ := written
      rw [List.append_nil] at split
      subst split
      have kept := ready.kept committed super extended
      rw [bind_of_ok ran']
      by_cases first : failpoint "pages_written"
      · left
        refine ⟨tx.sortedChanges, [], .interrupted "pages_written", by simp, ?_,
          rfl, Or.inl ⟨_, first⟩⟩
        rw [bind_of_error (by rw [reach_run, if_pos first])]
      rw [bind_of_ok (by rw [reach_run, if_neg first])]
      by_cases second : failpoint "data_synced"
      · left
        refine ⟨tx.sortedChanges, [], .interrupted "data_synced", by simp, ?_,
          rfl, Or.inl ⟨_, second⟩⟩
        rw [bind_of_error (by rw [reach_run, if_pos second])]
      rw [bind_of_ok (by rw [reach_run, if_neg second])]
      rcases writeSuper_run kept with ⟨wrote, _⟩ | ⟨error, failed, packed⟩
      · right
        rw [bind_of_ok (show (methods hash).writeSuper _ _ _ _ = _ from wrote)]
        by_cases third : failpoint "committed"
        · right
          rw [bind_of_error (by rw [reach_run, if_pos third])]
          exact ⟨rfl, third⟩
        · left
          rw [bind_of_ok (by rw [reach_run, if_neg third])]
          exact ⟨_, rfl, rfl, rfl⟩
      · left
        obtain ⟨reason, sort⟩ := packSuper_error packed
        refine ⟨tx.sortedChanges, [], error, by simp, ?_, sort, Or.inr fun fits => ?_⟩
        · rw [bind_of_error (show (methods hash).writeSuper _ _ _ _ = _ from failed)]
        · rcases reason with large | ⟨_, late⟩
          · exact absurd fits.2.superblock (Nat.not_le.mpr large)
          · exact absurd fits.1 (Nat.not_lt.mpr late)
    · rw [bind_of_error failed]
      obtain ⟨reason, sort⟩ := packPage_error packed
      refine Or.inl ⟨done, rest, error, split, rfl, sort, Or.inr fun fits => ?_⟩
      have short := fits.2.pages page keys (mem_sortedChanges.mp member)
      have early := fits.1
      omega
  · right
    left
    unfold insert
    rw [bind_of_ok (get_run _), read, bind_of_ok (ofResult_ok _ _)]
    simp only
    rw [bind_of_error ran]
    exact ⟨error, file', rfl, extended, ran, reason⟩

omit [SuperFields E] in
theorem Extended.unread (committed : Committed hash initialCapacity disk epoch info) {file : File E}
    {log : List (Effect (Block E))}
    (extended : Extended disk log info.startMigration.nextPageId file) (page : Nat) :
    file.disk.pread page = disk.pread page := by
  cases extended with
  | same => rfl
  | grown =>
      by_cases inside : page < 2 + 2 * info.startMigration.nextPageId
      · simp [inside]
      · obtain ⟨logical, slot, rfl⟩ : ∃ logical, ∃ slot : Bool, page = 2 + 2 * logical + slot.toNat :=
          ⟨page / 2 - 1, decide (page % 2 = 1), by
            rcases Nat.mod_two_eq_zero_or_one page with even | odd <;> simp_all <;> omega⟩
        have small := toNat_le slot
        simp [inside, committed.beyond logical (by omega) slot]

omit [SuperFields E] in
theorem Extended.harmless (initialCapacity epoch : Nat) {file : File E}
    (extended : Extended disk [] info.startMigration.nextPageId file) :
    file.disk = disk.replay file.log ∧
      ∀ effect ∈ file.log, Harmless initialCapacity disk epoch info effect := by
  cases extended with
  | same => exact ⟨rfl, by simp⟩
  | grown =>
      refine ⟨rfl, fun effect member => ?_⟩
      rw [List.nil_append, List.mem_singleton] at member
      subst member
      exact .grown _ le_rfl

omit [SuperFields E] in
theorem written_harmless (committed : Committed hash initialCapacity disk epoch info) {file : File E}
    (extended : Extended disk [] info.startMigration.nextPageId file) {tx : Txn E}
    (ready : Ready hash initialCapacity disk epoch info key tx) {done rest : List (Nat × Slots)}
    (split : tx.sortedChanges = done ++ rest) :
    (file.written epoch (epoch + 1) done).disk =
        disk.replay (file.written epoch (epoch + 1) done).log ∧
      ∀ effect ∈ (file.written epoch (epoch + 1) done).log,
        Harmless initialCapacity disk epoch info effect := by
  obtain ⟨replayed, grown⟩ := extended.harmless initialCapacity epoch
  have same : done.map (pageWrite file.disk epoch (epoch + 1)) =
      done.map (pageWrite disk epoch (epoch + 1)) :=
    pageWrite_congr fun page _ slot => extended.pread committed.beyond page slot
  constructor
  · simp only [File.written]
    rw [Disk.replay_append, ← replayed]
  · intro effect member
    simp only [File.written, same, List.mem_append] at member
    rcases member with early | late
    · exact grown effect early
    · exact ready.harmless split effect late

theorem insert_trail (committed : Committed hash initialCapacity disk epoch info) {active : Bool}
    (super : readSuper disk = .ok (epoch, info, active)) (failpoint : String → Bool)
    (key : String) :
    ∃ effects, (∀ effect ∈ effects, Harmless initialCapacity disk epoch info effect) ∧
      (finalState (insert hash (methods hash) failpoint key ⟨disk, []⟩) =
          ⟨disk.replay effects, effects⟩ ∨
        ∃ tx prepared file', prepareInsert hash (methods hash) epoch info key ⟨disk, []⟩ =
            .ok (tx, prepared) file' ∧ prepared.duplicate = false ∧
          Extended disk [] info.startMigration.nextPageId file' ∧
          Ready hash initialCapacity disk epoch info key tx ∧
          (file'.written epoch (epoch + 1) tx.sortedChanges).log = effects ∧
          finalState (insert hash (methods hash) failpoint key ⟨disk, []⟩) =
            file'.commit epoch tx active) := by
  rcases insert_run committed super [] failpoint key with ⟨trace, ran, _, _⟩ | ⟨error, file', ran,
    extended, _⟩ | ⟨tx, prepared, file', ready_run, new, extended, ready, outcome⟩
  · exact ⟨[], by simp, Or.inl (by rw [ran]; rfl)⟩
  · obtain ⟨replayed, harmless⟩ := extended.harmless initialCapacity epoch
    refine ⟨file'.log, harmless, Or.inl ?_⟩
    rw [ran, ← replayed]
    rfl
  · rcases outcome with ⟨done, rest, error, split, ran, _⟩ | committing
    · obtain ⟨replayed, harmless⟩ := written_harmless committed extended ready split
      refine ⟨_, harmless, Or.inl ?_⟩
      rw [ran, ← replayed]
      rfl
    · obtain ⟨_, harmless⟩ := written_harmless committed extended ready (List.append_nil _).symm
      refine ⟨_, harmless, Or.inr ⟨tx, prepared, file', ready_run, new, extended, ready, rfl, ?_⟩⟩
      rcases committing with ⟨trace, ran, _⟩ | ⟨ran, _⟩ <;> rw [ran] <;> rfl

end DurableContext.FixedPage
