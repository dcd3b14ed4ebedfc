import DurableContext.Lifecycle.Commit

/-! What a reader of the committed epoch sees while an operation is under way: the same as before. -/

namespace DurableContext.Lifecycle

open Program RadixMap

variable {start after : World} {epoch : Nat} {info : Info} {ledger : Ledger}

/-- Only some pages hold something else, and nothing that a reader at the epoch takes. -/
def Veiled (start : Disk PhysicalPage) (epoch : Nat) (spare : Nat → Prop)
    (disk : Disk PhysicalPage) : Prop :=
  ∀ page, disk.pread page = start.pread page ∨ spare page ∧ Young epoch (disk.pread page)

theorem Veiled.pwrite {disk file : Disk PhysicalPage} {spare : Nat → Prop} {page : Nat}
    {block : PhysicalPage} (veiled : Veiled disk epoch spare file) (fine : spare page)
    (young : Young epoch block) : Veiled disk epoch spare (file.pwrite page block) := by
  intro other
  rw [Disk.pread_pwrite]
  by_cases here : other = page
  · rw [if_pos here, here]
    exact Or.inr ⟨fine, young⟩
  · rw [if_neg here]
    exact veiled other

theorem Veiled.select {α : Type} {decode : PhysicalPage → DualCopy.Copy α}
    {disk file : Disk PhysicalPage} {spare : Nat → Prop} {base : Nat}
    (veiled : Veiled disk epoch spare file) (tagged : Tagged decode)
    (read : ∀ slot found, DualCopy.select epoch (copiesAt decode disk base) = some (slot, found) →
      ¬ spare (base + slot.toNat)) :
    DualCopy.select epoch (copiesAt decode file base) =
      DualCopy.select epoch (copiesAt decode disk base) := by
  have hidden : ∀ slot : Bool, Young epoch (file.pread (base + slot.toNat)) → ∀ found,
      copiesAt decode file base slot = some found → epoch < found.1 :=
    fun slot young found held => young found.1 (tagged _ _ held)
  cases selected : DualCopy.select epoch (copiesAt decode disk base) with
  | none =>
      rw [DualCopy.select_eq_none] at selected ⊢
      intro slot found held
      rcases veiled (base + slot.toNat) with same | ⟨_, young⟩
      · exact selected slot found ((congrArg decode same).symm.trans held)
      · exact hidden slot young found held
  | some chosen =>
      obtain ⟨slot, found⟩ := chosen
      have here : copiesAt decode file base slot = copiesAt decode disk base slot :=
        congrArg decode ((veiled _).resolve_right fun spare => read slot found selected spare.1)
      have copies : copiesAt decode file base = Function.update (copiesAt decode disk base) (!slot)
          (copiesAt decode file base (!slot)) := by
        funext other
        cases slot <;> cases other <;> simp_all
      rcases veiled (base + (!slot).toNat) with same | ⟨_, young⟩
      · have there : copiesAt decode file base (!slot) = copiesAt decode disk base (!slot) :=
          congrArg decode same
        rw [copies, there, Function.update_eq_self, selected]
      · rw [copies]
        exact DualCopy.select_update_other selected _ (hidden (!slot) young)

theorem Traced.veiled (traced : Traced start after (Harmless start epoch ledger)) :
    Veiled start.primary epoch (Spare start epoch ledger) after.primary := by
  obtain ⟨effects, _, primary, _, fine⟩ := traced
  have begun : Veiled start.primary epoch (Spare start epoch ledger) start.primary :=
    fun _ => Or.inl rfl
  rw [primary]
  refine @Disk.replay_induction _ _ (fun file => Veiled start.primary epoch
    (Spare start epoch ledger) file) _ _ begun ?_
  intro effect member file veiled
  obtain ⟨logged, listed, same⟩ := List.mem_filterMap.mp member
  cases fine logged listed with
  | primaryWrite spare young =>
      cases same
      exact veiled.pwrite spare young
  | arenaWrite spare young => cases same

/-! ### The pages that are read -/

theorem Stored.spare_high (sound : Stored start epoch info ledger) {page : Nat}
    (spare : Spare start epoch ledger page) : 2 ≤ page := by
  cases spare with
  | past beyond =>
      have room := sound.begin.room
      have room' : 4 ≤ start.primary.size := room
      omega
  | node visited read =>
      have low := sound.spaced.low _ _ visited
      omega
  | header member selected =>
      have high := (sound.spaced.inside _ (Ledger.mem_bases member)).1
      omega

theorem Stored.node_read (sound : Stored start epoch info ledger) {path : List Nat} {nodeBase : Nat}
    (visited : Visits (committed start.primary epoch) path nodeBase) {slot : Bool}
    {found : Nat × RadixNode} (selected : DualCopy.select epoch
      (copiesAt Block.asNode start.primary nodeBase) = some (slot, found)) :
    ¬ Spare start epoch ledger (nodeBase + slot.toNat) := by
  have small := Bool.toNat_le slot
  have below := sound.shape.below path nodeBase visited
  rw [RADIX_NODE_COPIES] at below
  generalize at_ : nodeBase + slot.toNat = page
  intro spare
  cases spare with
  | past beyond => omega
  | @node path' nodeBase' node slot' visited' read =>
      obtain ⟨tag, selected'⟩ := readNode_ok.mp read
      have small' := Bool.toNat_le (!slot')
      by_cases same : nodeBase = nodeBase'
      · subst same
        rw [selected'] at selected
        cases selected
        cases slot <;> simp at at_
      · have apart := sound.shape.spaced _ _ _ _ visited visited' same
        rw [RADIX_NODE_COPIES] at apart
        omega
  | @header entry slot' found' member selected' =>
      have small' := Bool.toNat_le (!slot')
      have apart := sound.spaced.nodes entry.1 (Ledger.mem_bases member) path nodeBase visited
      rw [RADIX_NODE_COPIES, EXTENT_PAGES, LIFECYCLE_COPIES] at apart
      omega

theorem Stored.data_read (sound : Stored start epoch info ledger) {entry : Nat × LifecycleHeader}
    (member : entry ∈ ledger.entries) {page : Nat} (above : entry.1 + LIFECYCLE_COPIES ≤ page)
    (within : page < entry.1 + EXTENT_PAGES) : ¬ Spare start epoch ledger page := by
  have inside := sound.spaced.inside entry.1 (Ledger.mem_bases member)
  intro spare
  cases spare with
  | past beyond => omega
  | @node path nodeBase node slot visited read =>
      have small := Bool.toNat_le (!slot)
      have apart := sound.spaced.nodes entry.1 (Ledger.mem_bases member) path nodeBase visited
      rw [RADIX_NODE_COPIES] at apart
      omega
  | @header other slot found member' selected =>
      have small := Bool.toNat_le (!slot)
      rw [LIFECYCLE_COPIES] at above
      by_cases same : other.1 = entry.1
      · omega
      · have clear := sound.spaced.of_ne (Ledger.mem_bases member') (Ledger.mem_bases member) same
        rw [Clear, EXTENT_PAGES, LIFECYCLE_COPIES] at clear
        rw [EXTENT_PAGES, LIFECYCLE_COPIES] at within
        omega

/-! ### Readers -/

theorem Stored.same_super (sound : Stored start epoch info ledger)
    (traced : Traced start after (Harmless start epoch ledger)) :
    readSuper after.primary = readSuper start.primary := by
  have copies : copiesAt Block.asSuperblock after.primary 0 =
      copiesAt Block.asSuperblock start.primary 0 := by
    refine copiesAt_same fun slot => (traced.veiled _).resolve_right fun spare => ?_
    have high := sound.spare_high spare.1
    have small := Bool.toNat_le slot
    omega
  rw [readSuper, readSuper, copies]

theorem Stored.same_nodes (sound : Stored start epoch info ledger)
    (traced : Traced start after (Harmless start epoch ledger)) :
    Kept start.primary epoch after.primary := by
  intro path nodeBase visited
  rw [readNode, readNode, traced.veiled.select tagged_node fun slot found selected =>
    sound.node_read visited selected]

theorem Stored.same_page (sound : Stored start epoch info ledger)
    (traced : Traced start after (Harmless start epoch ledger)) (pageId slots : Nat) :
    readLogicalPage after.primary pageId epoch slots =
      readLogicalPage start.primary pageId epoch slots := by
  rw [readLogicalPage, readLogicalPage,
    (sound.same_nodes traced).readSegment sound.shape (pageId / SEGMENT_BUCKET_PAGES)]
  by_cases named : pageId / SEGMENT_BUCKET_PAGES < 2 ^ LOGICAL_SEGMENT_BITS
  · rw [sound.shape.readSegment named, ok_bind rfl, ok_bind rfl]
    cases mapped : find (committed start.primary epoch) (digitsOf (pageId / SEGMENT_BUCKET_PAGES)) with
    | none => rfl
    | some base =>
        obtain ⟨entry, member, rfl, _⟩ := sound.books.mapped _ base named mapped
        have same : DualCopy.select epoch (copiesAt (Block.asPage slots) after.primary
              (entry.1 + LIFECYCLE_COPIES + localPage pageId)) =
            DualCopy.select epoch (copiesAt (Block.asPage slots) start.primary
              (entry.1 + LIFECYCLE_COPIES + localPage pageId)) := by
          refine traced.veiled.select (tagged_page slots) fun slot found _ => ?_
          have small := Bool.toNat_le slot
          refine sound.data_read (Ledger.mem_entries.mpr (Or.inl member)) (by omega) ?_
          rw [localPage, DATA_PAGE_COPIES, SEGMENT_BUCKET_PAGES, EXTENT_PAGES, SEGMENT_DATA_PAGES]
          omega
        simp only [readPageAt, same]
  · have refused : ∃ error, readSegment start.primary (pageId / SEGMENT_BUCKET_PAGES) epoch =
        .error error := by
      rw [readSegment_eq]
      exact ⟨_, by rw [radixDigits, if_pos (Nat.not_lt.mp named)]; rfl⟩
    obtain ⟨error, failed⟩ := refused
    rw [failed]
    rfl

end DurableContext.Lifecycle
