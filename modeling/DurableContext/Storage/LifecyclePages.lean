import DurableContext.Storage.RadixNodePage

/-! The pages that carry lifecycle headers and retirement descriptors, byte by byte.

A record is a magic, integers of fixed widths and a checksum, and zeros fill the page. The
checksum is an arbitrary function of the bytes it covers. Arguments are the integers that the
callers pass, before any range check. -/

namespace DurableContext

open ByteLayout

def NULL_PAGE : Int := 2 ^ 64 - 1

namespace LifecyclePages

def pageOrNull (value : Option Int) : Int := value.getD NULL_PAGE

def nullOrPage (value : Int) : Option Int := if value = NULL_PAGE then none else some value

def inUint64 (value : Int) : Prop := 0 ≤ value ∧ value ≤ NULL_PAGE

instance (value : Int) : Decidable (inUint64 value) := inferInstanceAs (Decidable (_ ∧ _))

structure LifecycleFields where
  status : Int
  generation : Int
  segmentId : Int
  nextHeaderPage : Option Int
  deriving DecidableEq, Repr

structure RetirementFields where
  generation : Int
  cursorHeaderPage : Option Int
  remainingSegments : Int
  nextDescriptorPage : Option Int
  deriving DecidableEq, Repr

structure DescriptorFields where
  incarnation : Int
  status : Int
  generation : Option Int
  cursorHeaderPage : Option Int
  remainingSegments : Int
  nextDescriptorPage : Option Int
  nextDescriptorIncarnation : Option Int
  deriving DecidableEq, Repr

section Records

variable (crc32 : Bytes → Nat)

/-- Packs the fields behind the magic, adds the checksum and fills the page with zeros. -/
def encodeRecord (magic : Bytes) (widths : List Nat) (drifted : String) (values : List Int) :
    Except StoreError Bytes :=
  match pack widths values with
  | none => .error .structError
  | some fields =>
      let covered := magic ++ fields
      let record := covered ++ bigEndian 4 (crc32 covered % 2 ^ 32)
      if record.length ≠ magic.length + widths.sum + 4 ∨ PAGE_SIZE < record.length then
        .error (.assertionError drifted)
      else .ok (record ++ List.replicate (PAGE_SIZE - record.length) 0)

/-- The fields of a page with this magic and the right checksum. -/
def decodeRecord (magic : Bytes) (widths : List Nat) (data : Bytes) : Option (List Int) :=
  let size := magic.length + widths.sum
  if data.length ≠ PAGE_SIZE then none
  else do
    let values ← unpack widths (slice data magic.length size)
    let stored ← unpack [4] (slice data size (size + 4))
    if data.take magic.length ≠ magic then none
    else if stored ≠ [((crc32 (data.take size) % 2 ^ 32 : Nat) : Int)] then none
    else some values

/-! Lifecycle headers. -/

def LIFECYCLE_MAGIC : Bytes := ascii "DICLIF32"

def LIFECYCLE_OWNED : Int := 1

def LIFECYCLE_FREE : Int := 2

/-- `>8sQBQQQ` after the magic. -/
def LIFECYCLE_WIDTHS : List Nat := [8, 1, 8, 8, 8]

def encodeLifecycleHeader (epoch : Int) (header : LifecycleFields) : Except StoreError Bytes :=
  if header.status ≠ LIFECYCLE_OWNED ∧ header.status ≠ LIFECYCLE_FREE then
    .error (.valueError "invalid lifecycle status")
  else if ¬ inUint64 epoch then .error (.valueError "epoch exceeds uint64")
  else if ¬ inUint64 header.generation then .error (.valueError "generation exceeds uint64")
  else if ¬ (0 ≤ header.segmentId ∧ header.segmentId < 2 ^ LOGICAL_SEGMENT_BITS) then
    .error (.valueError "segment id exceeds fixed radix namespace")
  else
    let pointer := pageOrNull header.nextHeaderPage
    if pointer < 0 ∨ MAX_PHYSICAL_PAGE_ID < pointer then
      .error (.valueError "lifecycle next pointer exceeds uint64")
    else encodeRecord crc32 LIFECYCLE_MAGIC LIFECYCLE_WIDTHS "lifecycle header layout drifted"
      [epoch, header.status, header.generation, header.segmentId, pointer]

def decodeLifecycleHeader (data : Bytes) : Option (Int × LifecycleFields) :=
  match decodeRecord crc32 LIFECYCLE_MAGIC LIFECYCLE_WIDTHS data with
  | some [epoch, status, generation, segmentId, nextPage] =>
      if status ≠ LIFECYCLE_OWNED ∧ status ≠ LIFECYCLE_FREE then none
      else some (epoch, ⟨status, generation, segmentId, nullOrPage nextPage⟩)
  | _ => none

/-! Retirement descriptors of the queue. -/

def RETIREMENT_MAGIC : Bytes := ascii "DICRET34"

/-- `>8sQQQQQ` after the magic. -/
def RETIREMENT_WIDTHS : List Nat := [8, 8, 8, 8, 8]

def encodeRetirementDescriptor (epoch : Int) (descriptor : RetirementFields) :
    Except StoreError Bytes :=
  if ¬ inUint64 epoch then .error (.valueError "retirement epoch exceeds uint64")
  else if ¬ inUint64 descriptor.generation then
    .error (.valueError "retirement generation exceeds uint64")
  else if descriptor.remainingSegments ≤ 0 ∨ NULL_PAGE < descriptor.remainingSegments then
    .error (.valueError "retirement descriptor requires positive remaining count")
  else
    let cursor := pageOrNull descriptor.cursorHeaderPage
    let next := pageOrNull descriptor.nextDescriptorPage
    if ∃ pointer ∈ [cursor, next], pointer < 0 ∨ MAX_PHYSICAL_PAGE_ID < pointer then
      .error (.valueError "retirement descriptor pointer exceeds uint64")
    else encodeRecord crc32 RETIREMENT_MAGIC RETIREMENT_WIDTHS
      "retirement descriptor layout drifted"
      [epoch, descriptor.generation, cursor, descriptor.remainingSegments, next]

def decodeRetirementDescriptor (data : Bytes) : Option (Int × RetirementFields) :=
  match decodeRecord crc32 RETIREMENT_MAGIC RETIREMENT_WIDTHS data with
  | some [epoch, generation, cursor, remaining, next] =>
      if remaining ≤ 0 then none
      else some (epoch, ⟨generation, nullOrPage cursor, remaining, nullOrPage next⟩)
  | _ => none

/-! Retirement descriptors of the pool. -/

def RETIREMENT35_MAGIC : Bytes := ascii "DICRET35"

def RETIREMENT_STATUS_QUEUED : Int := 1

def RETIREMENT_STATUS_FREE : Int := 2

/-- `>8sQQQQQQQQ` after the magic. -/
def RETIREMENT35_WIDTHS : List Nat := [8, 8, 8, 8, 8, 8, 8, 8]

def encodeReference : Option Int → Option Int → Except StoreError (Int × Int)
  | none, some _ => .error (.valueError "null descriptor page requires null incarnation")
  | none, none => .ok (NULL_PAGE, 0)
  | some _, none => .error (.valueError "descriptor reference requires positive incarnation")
  | some page, some incarnation =>
      if incarnation ≤ 0 then
        .error (.valueError "descriptor reference requires positive incarnation")
      else if page < 0 ∨ MAX_PHYSICAL_PAGE_ID < page then
        .error (.valueError "descriptor page exceeds uint64")
      else if NULL_PAGE < incarnation then
        .error (.valueError "descriptor incarnation exceeds uint64")
      else .ok (page, incarnation)

def decodeReference (page incarnation : Int) : Except StoreError (Option Int × Option Int) :=
  if page = NULL_PAGE then
    if incarnation ≠ 0 then
      .error (.valueError "null descriptor page has non-null incarnation")
    else .ok (none, none)
  else if page < 0 ∨ MAX_PHYSICAL_PAGE_ID < page then
    .error (.valueError "descriptor page exceeds uint64")
  else if incarnation ≤ 0 ∨ NULL_PAGE < incarnation then
    .error (.valueError "descriptor incarnation is invalid")
  else .ok (some page, some incarnation)

/-- The generation and the cursor that a descriptor of either status puts into its record. -/
def ownershipValues (descriptor : DescriptorFields) : Except StoreError (Int × Int) :=
  if descriptor.status = RETIREMENT_STATUS_QUEUED then
    match descriptor.generation with
    | none => .error (.valueError "queued descriptor requires uint64 generation")
    | some generation =>
      if ¬ inUint64 generation then
        .error (.valueError "queued descriptor requires uint64 generation")
      else
        match descriptor.cursorHeaderPage with
        | none => .error (.valueError "queued descriptor requires ownership cursor")
        | some cursor =>
          if descriptor.remainingSegments ≤ 0 ∨ NULL_PAGE < descriptor.remainingSegments then
            .error (.valueError "queued descriptor requires positive remaining count")
          else if cursor < 0 ∨ MAX_PHYSICAL_PAGE_ID < cursor then
            .error (.valueError "retirement cursor exceeds uint64")
          else .ok (generation, cursor)
  else if descriptor.generation ≠ none ∨ descriptor.cursorHeaderPage ≠ none ∨
      descriptor.remainingSegments ≠ 0 then
    .error (.valueError "free descriptor cannot retain retirement ownership")
  else .ok (NULL_PAGE, NULL_PAGE)

def encodeDescriptor (epoch : Int) (descriptor : DescriptorFields) : Except StoreError Bytes :=
  if ¬ inUint64 epoch then .error (.valueError "retirement epoch exceeds uint64")
  else if descriptor.incarnation ≤ 0 ∨ NULL_PAGE < descriptor.incarnation then
    .error (.valueError "retirement incarnation must be positive uint64")
  else if descriptor.status ≠ RETIREMENT_STATUS_QUEUED ∧
      descriptor.status ≠ RETIREMENT_STATUS_FREE then
    .error (.valueError "unknown retirement descriptor status")
  else do
    let (generation, cursor) ← ownershipValues descriptor
    let (nextPage, nextIncarnation) ← encodeReference descriptor.nextDescriptorPage
      descriptor.nextDescriptorIncarnation
    encodeRecord crc32 RETIREMENT35_MAGIC RETIREMENT35_WIDTHS
      "v0.35 retirement descriptor layout drifted"
      [epoch, descriptor.incarnation, descriptor.status, generation, cursor,
        descriptor.remainingSegments, nextPage, nextIncarnation]

def decodeDescriptor (data : Bytes) : Option (Int × DescriptorFields) :=
  match decodeRecord crc32 RETIREMENT35_MAGIC RETIREMENT35_WIDTHS data with
  | some [epoch, incarnation, status, generation, cursor, remaining, nextPage,
      nextIncarnation] =>
      if incarnation ≤ 0 then none
      else if status ≠ RETIREMENT_STATUS_QUEUED ∧ status ≠ RETIREMENT_STATUS_FREE then none
      else
        match decodeReference nextPage nextIncarnation with
        | .error _ => none
        | .ok (decodedPage, decodedIncarnation) =>
          if status = RETIREMENT_STATUS_QUEUED then
            if remaining ≤ 0 ∨ cursor = NULL_PAGE then none
            else some (epoch, ⟨incarnation, status, some generation, some cursor, remaining,
              decodedPage, decodedIncarnation⟩)
          else if generation ≠ NULL_PAGE ∨ cursor ≠ NULL_PAGE ∨ remaining ≠ 0 then none
          else some (epoch, ⟨incarnation, status, none, none, remaining, decodedPage,
            decodedIncarnation⟩)
  | _ => none

end Records

/-! ### Round trips -/

section RoundTrips

variable {crc32 : Bytes → Nat}

theorem decodeRecord_of_parts {data magic fields zeros : Bytes} {widths : List Nat}
    {values : List Int}
    (same : data = magic ++ fields ++ bigEndian 4 (crc32 (magic ++ fields) % 2 ^ 32) ++ zeros)
    (full : data.length = PAGE_SIZE) (width : fields.length = widths.sum)
    (fieldsRead : unpack widths fields = some values) :
    decodeRecord crc32 magic widths data = some values := by
  have covered : (magic ++ fields).length = magic.length + widths.sum := by
    rw [List.length_append, width]
  have fieldsAt : slice data magic.length (magic.length + widths.sum) = fields := by
    have split : data = magic ++ fields ++
        (bigEndian 4 (crc32 (magic ++ fields) % 2 ^ 32) ++ zeros) := by
      rw [same, List.append_assoc _ _ zeros]
    exact slice_of_append split rfl (by rw [width])
  have checksumAt : slice data (magic.length + widths.sum) (magic.length + widths.sum + 4) =
      bigEndian 4 (crc32 (magic ++ fields) % 2 ^ 32) :=
    slice_of_append same covered.symm (by rw [covered, length_bigEndian])
  have coveredAt : data.take (magic.length + widths.sum) = magic ++ fields := by
    rw [← covered]
    exact take_of_append (same.trans (List.append_assoc _ _ _))
  have magicAt : data.take magic.length = magic := by
    have split : data = magic ++
        (fields ++ (bigEndian 4 (crc32 (magic ++ fields) % 2 ^ 32) ++ zeros)) := by
      rw [same, List.append_assoc, List.append_assoc]
    exact take_of_append split
  have stored := unpack_checksum (crc32 (magic ++ fields))
  simp only [decodeRecord, full, fieldsAt, checksumAt, coveredAt, magicAt, fieldsRead, stored, ne_eq,
    not_true_eq_false, if_false, Option.bind_eq_bind, Option.bind_some]

theorem decodeRecord_encodeRecord {magic : Bytes} {widths : List Nat} {drifted : String}
    {values : List Int} {page : Bytes}
    (encoded : encodeRecord crc32 magic widths drifted values = .ok page) :
    decodeRecord crc32 magic widths page = some values := by
  unfold encodeRecord at encoded
  cases packed : pack widths values with
  | none =>
      rw [packed] at encoded
      cases encoded
  | some fields =>
      simp only [packed] at encoded
      split at encoded
      · cases encoded
      rename_i fits
      push Not at fits
      cases encoded
      refine decodeRecord_of_parts rfl ?_ (length_pack packed) (unpack_pack packed)
      rw [List.length_append, List.length_replicate]
      omega

theorem nullOrPage_pageOrNull (pointer : Option Int) :
    nullOrPage (pageOrNull pointer) = pointer ↔ pointer ≠ some NULL_PAGE := by
  cases pointer with
  | none => simp [nullOrPage, pageOrNull]
  | some page =>
      by_cases null : page = NULL_PAGE
      · simp [nullOrPage, pageOrNull, null]
      · simp [nullOrPage, pageOrNull, null]

theorem decodeLifecycleHeader_encoded {epoch : Int} {header : LifecycleFields} {page : Bytes}
    (encoded : encodeLifecycleHeader crc32 epoch header = .ok page) :
    decodeLifecycleHeader crc32 page = some (epoch,
      { header with nextHeaderPage := nullOrPage (pageOrNull header.nextHeaderPage) }) := by
  unfold encodeLifecycleHeader at encoded
  split at encoded
  · cases encoded
  rename_i status
  split at encoded
  · cases encoded
  split at encoded
  · cases encoded
  split at encoded
  · cases encoded
  simp only at encoded
  split at encoded
  · cases encoded
  rw [decodeLifecycleHeader, decodeRecord_encodeRecord encoded]
  exact if_neg status

theorem decodeRetirementDescriptor_encoded {epoch : Int} {descriptor : RetirementFields}
    {page : Bytes} (encoded : encodeRetirementDescriptor crc32 epoch descriptor = .ok page) :
    decodeRetirementDescriptor crc32 page = some (epoch, { descriptor with
      cursorHeaderPage := nullOrPage (pageOrNull descriptor.cursorHeaderPage)
      nextDescriptorPage := nullOrPage (pageOrNull descriptor.nextDescriptorPage) }) := by
  unfold encodeRetirementDescriptor at encoded
  split at encoded
  · cases encoded
  split at encoded
  · cases encoded
  split at encoded
  · cases encoded
  rename_i remaining
  push Not at remaining
  simp only at encoded
  split at encoded
  · cases encoded
  rw [decodeRetirementDescriptor, decodeRecord_encodeRecord encoded]
  exact if_neg (not_le.mpr remaining.1)

theorem decodeReference_encoded {page incarnation : Option Int} {values : Int × Int}
    (encoded : encodeReference page incarnation = .ok values) :
    (decodeReference values.1 values.2 = .ok (page, incarnation) ∧ page ≠ some NULL_PAGE) ∨
      page = some NULL_PAGE ∧ ∃ message, decodeReference values.1 values.2 =
        .error (.valueError message) := by
  cases page with
  | none =>
      cases incarnation with
      | none =>
          cases encoded
          exact Or.inl ⟨rfl, by simp⟩
      | some incarnation => cases encoded
  | some page =>
      cases incarnation with
      | none => cases encoded
      | some incarnation =>
          unfold encodeReference at encoded
          simp only at encoded
          split at encoded
          · cases encoded
          rename_i positive
          split at encoded
          · cases encoded
          rename_i range
          split at encoded
          · cases encoded
          rename_i small
          cases encoded
          by_cases null : page = NULL_PAGE
          · refine Or.inr ⟨congrArg some null, "null descriptor page has non-null incarnation", ?_⟩
            rw [decodeReference, if_pos null, if_pos (by omega)]
          · refine Or.inl ⟨?_, fun same => null (Option.some.inj same)⟩
            rw [decodeReference, if_neg null, if_neg range, if_neg (not_or.mpr ⟨positive, small⟩)]

theorem ownershipValues_ok {descriptor : DescriptorFields} {values : Int × Int}
    (owned : ownershipValues descriptor = .ok values) :
    (descriptor.status = RETIREMENT_STATUS_QUEUED ∧ descriptor.generation = some values.1 ∧
      descriptor.cursorHeaderPage = some values.2 ∧ 0 < descriptor.remainingSegments) ∨
    (descriptor.status ≠ RETIREMENT_STATUS_QUEUED ∧ descriptor.generation = none ∧
      descriptor.cursorHeaderPage = none ∧ descriptor.remainingSegments = 0 ∧
      values = (NULL_PAGE, NULL_PAGE)) := by
  unfold ownershipValues at owned
  by_cases queued : descriptor.status = RETIREMENT_STATUS_QUEUED
  · rw [if_pos queued] at owned
    cases generation : descriptor.generation with
    | none =>
        rw [generation] at owned
        cases owned
    | some number =>
        simp only [generation] at owned
        split at owned
        · cases owned
        cases cursor : descriptor.cursorHeaderPage with
        | none =>
            rw [cursor] at owned
            cases owned
        | some page =>
            simp only [cursor] at owned
            split at owned
            · cases owned
            rename_i remaining
            split at owned
            · cases owned
            cases owned
            exact Or.inl ⟨queued, rfl, rfl, by omega⟩
  · rw [if_neg queued] at owned
    split at owned
    · cases owned
    rename_i nothing
    push Not at nothing
    cases owned
    exact Or.inr ⟨queued, nothing.1, nothing.2.1, nothing.2.2, rfl⟩

theorem decodeDescriptor_encoded {epoch : Int} {descriptor : DescriptorFields} {page : Bytes}
    (encoded : encodeDescriptor crc32 epoch descriptor = .ok page) :
    decodeDescriptor crc32 page = some (epoch, descriptor) ↔
      descriptor.cursorHeaderPage ≠ some NULL_PAGE ∧
        descriptor.nextDescriptorPage ≠ some NULL_PAGE := by
  unfold encodeDescriptor at encoded
  split at encoded
  · cases encoded
  split at encoded
  · cases encoded
  rename_i incarnation
  push Not at incarnation
  split at encoded
  · cases encoded
  rename_i status
  obtain ⟨⟨generation, cursor⟩, owned, encoded⟩ := Program.of_bind_ok encoded
  obtain ⟨⟨nextPage, nextIncarnation⟩, reference, encoded⟩ := Program.of_bind_ok encoded
  have read := decodeRecord_encodeRecord encoded
  simp only [decodeDescriptor, read, if_neg (not_le.mpr incarnation.1), if_neg status]
  rcases decodeReference_encoded reference with ⟨pointer, notNull⟩ | ⟨null, message, pointer⟩
  · simp only [pointer]
    rcases ownershipValues_ok owned with ⟨queued, generationIs, cursorIs, remaining⟩ |
      ⟨free, generationIs, cursorIs, remaining, values⟩
    · rw [if_pos queued]
      by_cases null : cursor = NULL_PAGE
      · rw [if_pos (Or.inr null), cursorIs, null]
        simp
      · rw [if_neg (by omega)]
        refine iff_of_true ?_ ⟨?_, notNull⟩
        · rw [← generationIs, ← cursorIs]
        · rw [cursorIs]
          exact fun same => null (Option.some.inj same)
    · cases values
      rw [if_neg free, if_neg (by simp [remaining])]
      refine iff_of_true ?_ ⟨by simp [cursorIs], notNull⟩
      obtain ⟨_, _, generation, cursor, _, _, _⟩ := descriptor
      cases generationIs
      cases cursorIs
      rfl
  · simp [pointer, null]

/-- Whatever the encoders accept is read back, except for a page number that stands for none. -/
theorem encoded_pages_read_back_iff (crc32 : Bytes → Nat) (epoch : Int) (page : Bytes) :
    (∀ header, encodeLifecycleHeader crc32 epoch header = .ok page →
      (decodeLifecycleHeader crc32 page = some (epoch, header) ↔
        header.nextHeaderPage ≠ some NULL_PAGE)) ∧
    (∀ descriptor, encodeRetirementDescriptor crc32 epoch descriptor = .ok page →
      (decodeRetirementDescriptor crc32 page = some (epoch, descriptor) ↔
        descriptor.cursorHeaderPage ≠ some NULL_PAGE ∧
          descriptor.nextDescriptorPage ≠ some NULL_PAGE)) ∧
    (∀ descriptor, encodeDescriptor crc32 epoch descriptor = .ok page →
      (decodeDescriptor crc32 page = some (epoch, descriptor) ↔
        descriptor.cursorHeaderPage ≠ some NULL_PAGE ∧
          descriptor.nextDescriptorPage ≠ some NULL_PAGE)) := by
  refine ⟨fun header encoded => ?_, fun descriptor encoded => ?_,
    fun descriptor encoded => decodeDescriptor_encoded encoded⟩
  · obtain ⟨status, generation, segmentId, next⟩ := header
    rw [decodeLifecycleHeader_encoded encoded, ← nullOrPage_pageOrNull]
    simp only [Option.some.injEq, Prod.mk.injEq, LifecycleFields.mk.injEq, true_and]
  · obtain ⟨generation, cursor, remaining, next⟩ := descriptor
    rw [decodeRetirementDescriptor_encoded encoded, ← nullOrPage_pageOrNull,
      ← nullOrPage_pageOrNull]
    simp only [Option.some.injEq, Prod.mk.injEq, RetirementFields.mk.injEq, true_and]

end RoundTrips

def sampleHeader : LifecycleFields := ⟨LIFECYCLE_OWNED, 3, 7, some 12⟩

def sampleQueued : RetirementFields := ⟨3, some 12, 5, none⟩

def samplePooled : DescriptorFields := ⟨1, RETIREMENT_STATUS_QUEUED, some 3, some 12, 5, none, none⟩

/-- The page that an encoder has written, if it accepts its arguments. -/
def written (result : Except StoreError Bytes) : Bytes := result.toOption.getD []

theorem written_ok {result : Except StoreError Bytes} (accepted : result.toOption.isSome = true) :
    result = .ok (written result) := by
  cases result with
  | error error => cases accepted
  | ok page => rfl

theorem encoded_pages_read_back_iff_sample :
    decodeLifecycleHeader List.length
        (written (encodeLifecycleHeader List.length 9 sampleHeader)) = some (9, sampleHeader) ∧
      decodeRetirementDescriptor List.length
        (written (encodeRetirementDescriptor List.length 9 sampleQueued)) =
          some (9, sampleQueued) ∧
      decodeDescriptor List.length
        (written (encodeDescriptor List.length 9 samplePooled)) = some (9, samplePooled) := by
  refine ⟨?_, ?_, ?_⟩
  · exact ((encoded_pages_read_back_iff List.length 9 _).1 sampleHeader
      (written_ok (by decide +kernel))).mpr (by decide)
  · exact ((encoded_pages_read_back_iff List.length 9 _).2.1 sampleQueued
      (written_ok (by decide +kernel))).mpr (by decide)
  · exact ((encoded_pages_read_back_iff List.length 9 _).2.2 samplePooled
      (written_ok (by decide +kernel))).mpr (by decide)

/-- The last page number passes the checks of every encoder and is not read back by any decoder. -/
theorem last_page_not_read_back :
    (¬ ∀ (crc32 : Bytes → Nat) (epoch : Int) (header : LifecycleFields) (page : Bytes),
      encodeLifecycleHeader crc32 epoch header = .ok page →
        decodeLifecycleHeader crc32 page = some (epoch, header)) ∧
    (¬ ∀ (crc32 : Bytes → Nat) (epoch : Int) (descriptor : RetirementFields) (page : Bytes),
      encodeRetirementDescriptor crc32 epoch descriptor = .ok page →
        decodeRetirementDescriptor crc32 page = some (epoch, descriptor)) ∧
    (¬ ∀ (crc32 : Bytes → Nat) (epoch : Int) (descriptor : DescriptorFields) (page : Bytes),
      encodeDescriptor crc32 epoch descriptor = .ok page →
        decodeDescriptor crc32 page = some (epoch, descriptor)) := by
  refine ⟨fun reads => ?_, fun reads => ?_, fun reads => ?_⟩
  · have encoded := @written_ok (encodeLifecycleHeader List.length 9
      { sampleHeader with nextHeaderPage := some NULL_PAGE }) (by decide +kernel)
    have decoded := reads _ _ _ _ encoded
    rw [decodeLifecycleHeader_encoded encoded] at decoded
    exact absurd decoded (by decide)
  · have encoded := @written_ok (encodeRetirementDescriptor List.length 9
      { sampleQueued with nextDescriptorPage := some NULL_PAGE }) (by decide +kernel)
    have decoded := reads _ _ _ _ encoded
    rw [decodeRetirementDescriptor_encoded encoded] at decoded
    exact absurd decoded (by decide)
  · have encoded := @written_ok (encodeDescriptor List.length 9
      { samplePooled with cursorHeaderPage := some NULL_PAGE }) (by decide +kernel)
    have decoded := (decodeDescriptor_encoded encoded).mp (reads _ _ _ _ encoded)
    exact absurd rfl decoded.1

end LifecyclePages

end DurableContext
