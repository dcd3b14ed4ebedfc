import DurableContext.Lifecycle.Store
import DurableContext.Storage.RadixTrail

/-! What the records of either file say at an epoch, and how a transaction writes them. -/

namespace DurableContext.Lifecycle

open Program RadixMap

variable {α : Type}

def tagOf : PhysicalPage → Option Nat
  | .blank => none
  | .superblock epoch _ | .page epoch _ | .node epoch _ | .lifecycle epoch _
  | .retirement epoch _ | .tagged epoch _ => some epoch

/-- No page is younger than the epoch. -/
def UpTo (disk : Disk PhysicalPage) (epoch : Nat) : Prop :=
  ∀ page tag, tagOf (disk.pread page) = some tag → tag ≤ epoch

/-- A block that no reader at the epoch takes for one of its own. -/
def Young (epoch : Nat) (block : PhysicalPage) : Prop :=
  ∀ tag, tagOf block = some tag → epoch < tag

/-- A way to read pages that goes by their epoch. -/
def Tagged (decode : PhysicalPage → DualCopy.Copy α) : Prop :=
  ∀ block tagged, decode block = some tagged → tagOf block = some tagged.1

theorem tagged_lifecycle : Tagged Block.asLifecycle := by
  intro block tagged held
  cases block <;> cases held
  rfl

theorem tagged_descriptor : Tagged Block.asTagged := by
  intro block tagged held
  cases block <;> cases held
  rfl

theorem tagged_node : Tagged Block.asNode := by
  intro block tagged held
  cases block <;> cases held
  rfl

theorem tagged_page (slots : Nat) : Tagged (Block.asPage slots) := by
  intro block tagged held
  cases block with
  | page epoch keys =>
      simp only [Block.asPage] at held
      split at held <;> cases held
      rfl
  | _ => cases held

/-- What the copies of a record say at an epoch. -/
def recordAt (decode : PhysicalPage → DualCopy.Copy α) (disk : Disk PhysicalPage)
    (epoch base : Nat) : Option α :=
  (DualCopy.select epoch (copiesAt decode disk base)).map fun chosen => chosen.2.2

section Reading

variable {decode : PhysicalPage → DualCopy.Copy α} {disk other : Disk PhysicalPage}
  {epoch base tag : Nat} {slot : Bool} {value : α} {block : PhysicalPage}

theorem recordAt_eq_some : recordAt decode disk epoch base = some value ↔
    ∃ slot tag, DualCopy.select epoch (copiesAt decode disk base) = some (slot, tag, value) := by
  simp only [recordAt, Option.map_eq_some_iff]
  constructor
  · rintro ⟨⟨slot, tag, found⟩, selected, rfl⟩
    exact ⟨slot, tag, selected⟩
  · rintro ⟨slot, tag, selected⟩
    exact ⟨_, selected, rfl⟩

theorem recordAt_of (selected : DualCopy.select epoch (copiesAt decode disk base) =
    some (slot, tag, value)) : recordAt decode disk epoch base = some value :=
  recordAt_eq_some.mpr ⟨slot, tag, selected⟩

theorem copiesAt_same (same : ∀ slot : Bool, other.pread (base + slot.toNat) =
    disk.pread (base + slot.toNat)) : copiesAt decode other base = copiesAt decode disk base :=
  copiesAt_congr decode (same false) (same true)

theorem recordAt_congr (same : ∀ slot : Bool, other.pread (base + slot.toNat) =
    disk.pread (base + slot.toNat)) :
    recordAt decode other epoch base = recordAt decode disk epoch base := by
  rw [recordAt, recordAt, copiesAt_same same]

theorem UpTo.select_next (upTo : UpTo disk epoch) (tagged : Tagged decode) (base : Nat) :
    DualCopy.select (epoch + 1) (copiesAt decode disk base) =
      DualCopy.select epoch (copiesAt decode disk base) :=
  DualCopy.select_epoch (Nat.le_succ epoch) fun slot found held _ =>
    upTo (base + slot.toNat) found.1 (tagged _ _ held)

theorem UpTo.recordAt_next (upTo : UpTo disk epoch) (tagged : Tagged decode) (base : Nat) :
    recordAt decode disk (epoch + 1) base = recordAt decode disk epoch base := by
  rw [recordAt, recordAt, upTo.select_next tagged]

theorem UpTo.mono (upTo : UpTo disk epoch) {later : Nat} (order : epoch ≤ later) :
    UpTo disk later :=
  fun page tag held => (upTo page tag held).trans order

theorem UpTo.pwrite (upTo : UpTo disk epoch) (page : Nat)
    (fine : ∀ tag, tagOf block = some tag → tag ≤ epoch) : UpTo (disk.pwrite page block) epoch := by
  intro other tag held
  rw [Disk.pread_pwrite] at held
  split at held
  · exact fine tag held
  · exact upTo other tag held

theorem UpTo.ftruncate (upTo : UpTo disk epoch) (pages : Nat) :
    UpTo (disk.ftruncate pages) epoch := by
  intro other tag held
  rw [Disk.pread_ftruncate] at held
  split at held
  · exact upTo other tag held
  · cases held

/-! ### Writing -/

/-- The copy that a committed reader does not take is where the next epoch is written. -/
theorem select_rewrite (selected : DualCopy.select epoch (copiesAt decode disk base) =
    some (slot, tag, value)) {new : α} (decoded : decode block = some (epoch + 1, new)) :
    DualCopy.select (epoch + 1) (copiesAt decode (disk.pwrite (base + (!slot).toNat) block) base) =
      some (!slot, epoch + 1, new) := by
  have target : DualCopy.writeTarget epoch (copiesAt decode disk base) = !slot := by
    simp only [DualCopy.writeTarget, selected]
  have written := DualCopy.select_write_next epoch (copiesAt decode disk base) new
  rw [target, ← decoded] at written
  rw [copiesAt_pwrite]
  exact written

end Reading

/-! ### Headers and descriptors -/

theorem readLifecycle_ok {disk : Disk PhysicalPage} {base epoch : Nat} {header : LifecycleHeader}
    {slot : Bool} : readLifecycle disk base epoch = .ok (header, slot) ↔
      ∃ tag, DualCopy.select epoch (copiesAt Block.asLifecycle disk base) =
        some (slot, tag, header) := by
  rw [readLifecycle]
  cases DualCopy.select epoch (copiesAt Block.asLifecycle disk base) with
  | none => simp
  | some chosen =>
      obtain ⟨slot', tag, header'⟩ := chosen
      simp only [Except.ok.injEq, Prod.mk.injEq, Option.some.injEq]
      constructor
      · intro same
        exact ⟨tag, same.2, rfl, same.1⟩
      · rintro ⟨_, same, _, same'⟩
        exact ⟨same', same⟩

/-- A header of a segment that exists, linked to a page that exists. -/
structure HeaderFits (header : LifecycleHeader) : Prop where
  named : header.segmentId < 2 ^ LOGICAL_SEGMENT_BITS
  linked : ∀ page ∈ header.nextHeaderPage, page < NULL_PAGE

theorem packLifecycle_ok {epoch : Nat} {header : LifecycleHeader} {block : PhysicalPage}
    (packed : packLifecycle epoch header = .ok block) (fits : HeaderFits header) :
    block = .lifecycle epoch header := by
  unfold packLifecycle at packed
  split at packed
  · cases packed
  · split at packed
    · cases packed
    · split at packed
      · cases packed
      · split at packed
        · cases packed
        · have kept : (header.nextHeaderPage.filter fun page => decide (page ≠ NULL_PAGE)) =
              header.nextHeaderPage := by
            cases next : header.nextHeaderPage with
            | none => rfl
            | some page =>
                have fine := (fits.linked page (by rw [next]; rfl)).ne
                simp [Option.filter, fine]
          rw [kept] at packed
          cases packed
          rfl

theorem packLifecycle_error {epoch : Nat} {header : LifecycleHeader} {error : StoreError}
    (packed : packLifecycle epoch header = .error error) (fits : HeaderFits header) :
    (2 ^ 64 ≤ epoch ∧ error = .valueError "epoch exceeds uint64") ∨
      (2 ^ 64 ≤ header.generation ∧ error = .valueError "generation exceeds uint64") := by
  unfold packLifecycle at packed
  by_cases late : 2 ^ 64 ≤ epoch
  · rw [if_pos late] at packed
    cases packed
    exact Or.inl ⟨late, rfl⟩
  by_cases large : 2 ^ 64 ≤ header.generation
  · rw [if_neg late, if_pos large] at packed
    cases packed
    exact Or.inr ⟨large, rfl⟩
  rw [if_neg late, if_neg large, if_neg (Nat.not_le.mpr fits.named), if_neg] at packed
  · cases packed
  · rintro ⟨page, held, beyond⟩
    have short := fits.linked page held
    rw [NULL_PAGE] at short
    omega

theorem encodeReference_ok (next : Option DescriptorRef) {found : Option DescriptorRef}
    (encoded : encodeReference (next.map DescriptorRef.page) (next.map DescriptorRef.incarnation) =
      .ok found) : found = next := by
  cases next with
  | none =>
      cases encoded
      rfl
  | some ref =>
      simp only [encodeReference, Option.map_some] at encoded
      split at encoded
      · cases encoded
      · split at encoded
        · cases encoded
        · split at encoded <;> cases encoded
          rfl

def payloadOf (descriptor : TaggedDescriptor) : DescriptorPayload :=
  ⟨descriptor.incarnation, descriptor.status, descriptor.generation, descriptor.cursorHeaderPage,
    descriptor.remainingSegments, descriptor.next.map DescriptorRef.page,
    descriptor.next.map DescriptorRef.incarnation⟩

/-- What a descriptor of this status says of a generation. -/
inductive Ownership : DescriptorStatus → Option Nat → Option Nat → Nat → Prop
  | queued {generation cursor remaining : Nat} (short : cursor < NULL_PAGE)
      (more : 0 < remaining) (few : remaining < 2 ^ 64) :
      Ownership .queued (some generation) (some cursor) remaining
  | free : Ownership .free none none 0

/-- A descriptor that says what its status asks for, and points at pages that exist. -/
structure DescriptorFits (descriptor : TaggedDescriptor) : Prop where
  positive : 0 < descriptor.incarnation
  owns : Ownership descriptor.status descriptor.generation descriptor.cursorHeaderPage
    descriptor.remainingSegments
  linked : ∀ ref ∈ descriptor.next, ref.page ≠ NULL_PAGE ∧ 0 < ref.incarnation

/-- The numbers of a descriptor that fits which its page has no room for. -/
inductive DescriptorLimit (epoch : Nat) (descriptor : TaggedDescriptor) : StoreError → Prop
  | epoch (large : 2 ^ 64 ≤ epoch) :
      DescriptorLimit epoch descriptor (.valueError "retirement epoch exceeds uint64")
  | incarnation (large : 2 ^ 64 ≤ descriptor.incarnation) : DescriptorLimit epoch descriptor
      (.valueError "retirement incarnation must be positive uint64")
  | generation {generation : Nat} (held : descriptor.generation = some generation)
      (large : 2 ^ 64 ≤ generation) : DescriptorLimit epoch descriptor
      (.valueError "queued descriptor requires uint64 generation")
  | page {ref : DescriptorRef} (next : descriptor.next = some ref) (large : 2 ^ 64 ≤ ref.page) :
      DescriptorLimit epoch descriptor (.valueError "descriptor page exceeds uint64")
  | linked {ref : DescriptorRef} (next : descriptor.next = some ref)
      (large : 2 ^ 64 ≤ ref.incarnation) :
      DescriptorLimit epoch descriptor (.valueError "descriptor incarnation exceeds uint64")

section Descriptors

variable {epoch : Nat} {descriptor : TaggedDescriptor} {error : StoreError}

theorem checkOwnership_error (fits : DescriptorFits descriptor)
    (checked : checkOwnership (payloadOf descriptor) = .error error) :
    DescriptorLimit epoch descriptor error := by
  obtain ⟨incarnation, status, generation, cursor, remaining, next⟩ := descriptor
  cases fits.owns with
  | free => cases checked
  | @queued generation cursor remaining short more few =>
      have counts : ¬ (remaining = 0 ∨ 2 ^ 64 ≤ remaining) := by
        rintro (none_ | many)
        · exact more.ne' none_
        · exact Nat.not_lt.mpr many few
      have inside : ¬ 2 ^ 64 ≤ cursor := by
        rw [NULL_PAGE] at short
        omega
      simp only [checkOwnership, payloadOf, if_neg counts, if_neg inside] at checked
      by_cases large : 2 ^ 64 ≤ generation
      · rw [if_pos large] at checked
        cases checked
        exact .generation rfl large
      · rw [if_neg large] at checked
        cases checked

theorem encodeReference_error (fits : DescriptorFits descriptor)
    (encoded : encodeReference (payloadOf descriptor).nextPage
      (payloadOf descriptor).nextIncarnation = .error error) :
    DescriptorLimit epoch descriptor error := by
  simp only [payloadOf] at encoded
  cases next : descriptor.next with
  | none =>
      rw [next] at encoded
      cases encoded
  | some ref =>
      have positive := (fits.linked ref next).2
      rw [next] at encoded
      simp only [encodeReference, Option.map_some, if_neg positive.ne'] at encoded
      by_cases large : 2 ^ 64 ≤ ref.page
      · rw [if_pos large] at encoded
        cases encoded
        exact .page next large
      rw [if_neg large] at encoded
      by_cases later : 2 ^ 64 ≤ ref.incarnation
      · rw [if_pos later] at encoded
        cases encoded
        exact .linked next later
      · rw [if_neg later] at encoded
        cases encoded

theorem packDescriptor_error (fits : DescriptorFits descriptor)
    (packed : packDescriptor epoch (payloadOf descriptor) = .error error) :
    DescriptorLimit epoch descriptor error := by
  unfold packDescriptor at packed
  by_cases late : 2 ^ 64 ≤ epoch
  · rw [if_pos late] at packed
    cases packed
    exact .epoch late
  rw [if_neg late] at packed
  by_cases outside : (payloadOf descriptor).incarnation = 0 ∨
      2 ^ 64 ≤ (payloadOf descriptor).incarnation
  · rw [if_pos outside] at packed
    cases packed
    exact .incarnation (outside.resolve_left fits.positive.ne')
  rw [if_neg outside] at packed
  cases checked : checkOwnership (payloadOf descriptor) with
  | error other =>
      rw [checked] at packed
      cases packed
      exact checkOwnership_error fits checked
  | ok _ =>
      rw [checked, ok_bind rfl] at packed
      cases encoded : encodeReference (payloadOf descriptor).nextPage
          (payloadOf descriptor).nextIncarnation with
      | error other =>
          rw [encoded] at packed
          cases packed
          exact encodeReference_error fits encoded
      | ok next =>
          rw [encoded, ok_bind rfl] at packed
          split at packed <;> cases packed

theorem packDescriptor_ok {block : PhysicalPage} (fits : DescriptorFits descriptor)
    (packed : packDescriptor epoch (payloadOf descriptor) = .ok block) :
    block = .tagged epoch descriptor := by
  unfold packDescriptor at packed
  split at packed
  · cases packed
  split at packed
  · cases packed
  obtain ⟨_, _, packed⟩ := of_bind_ok packed
  obtain ⟨found, encoded, packed⟩ := of_bind_ok packed
  rw [encodeReference_ok descriptor.next encoded, if_neg] at packed
  · cases packed
    rfl
  rintro (null | null)
  · obtain ⟨incarnation, status, generation, cursor, remaining, next⟩ := descriptor
    cases fits.owns with
    | free => cases null
    | queued short more few => exact short.ne (Option.some.inj null)
  · obtain ⟨ref, held, same⟩ := Option.map_eq_some_iff.mp null
    exact (fits.linked ref held).1 same

end Descriptors

theorem readDescriptor_ok {arena : Disk PhysicalPage} {base epoch : Nat}
    {descriptor : TaggedDescriptor}
    (held : recordAt Block.asTagged arena epoch base = some descriptor) : ∃ slot tag,
      DualCopy.select epoch (copiesAt Block.asTagged arena base) = some (slot, tag, descriptor) ∧
      readDescriptor arena base epoch descriptor.incarnation descriptor.status =
        .ok (descriptor, slot) := by
  obtain ⟨slot, tag, selected⟩ := recordAt_eq_some.mp held
  refine ⟨slot, tag, selected, ?_⟩
  rw [readDescriptor, selected]
  simp

end DurableContext.Lifecycle
