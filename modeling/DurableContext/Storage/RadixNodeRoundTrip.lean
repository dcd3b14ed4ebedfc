import DurableContext.Storage.RadixNodePage
import Mathlib.Data.List.Perm.Basic

/-! Radix node pages are read back: the bitmap and the pointer table line up digit by digit. -/

namespace DurableContext.RadixNodePage

open ByteLayout

/-! ### Digits as text -/

set_option maxRecDepth 10000 in
theorem readInt_digits : ∀ digit ∈ List.range RADIX_FANOUT,
    readInt (toString digit) = some (digit : Int) := by
  decide +kernel

theorem readInt_toString {digit : Nat} (small : digit < RADIX_FANOUT) :
    readInt (toString digit) = some (digit : Int) :=
  readInt_digits digit (List.mem_range.mpr small)

theorem toString_digit_inj {left right : Nat} (leftSmall : left < RADIX_FANOUT)
    (rightSmall : right < RADIX_FANOUT) (same : toString left = toString right) : left = right := by
  have read := readInt_toString leftSmall
  rw [same, readInt_toString rightSmall, Option.some.injEq] at read
  exact_mod_cast read.symm

/-! ### The two halves -/

/-- The bitmap marks the digits that have a pointer, and the table holds it at its place. -/
structure Halves (halves : Bytes × Bytes) (pointers : Nat → Option Nat) : Prop where
  bitmap : halves.1.length = NODE_BITMAP_BYTES
  table : halves.2.length = NODE_POINTER_BYTES
  marked : ∀ digit < RADIX_FANOUT, hasBit halves.1 digit = (pointers digit).isSome
  stored : ∀ digit < RADIX_FANOUT, ∀ pointer, pointers digit = some pointer →
    slice halves.2 (digit * 8) (digit * 8 + 8) = bigEndian 8 pointer

theorem halves_blank : Halves (List.replicate NODE_BITMAP_BYTES 0,
    List.replicate NODE_POINTER_BYTES 0) fun _ => none where
  bitmap := List.length_replicate
  table := List.length_replicate
  marked _ _ := hasBit_replicate _ _
  stored _ _ _ held := by cases held

theorem Halves.write {halves : Bytes × Bytes} {pointers : Nat → Option Nat}
    (lined : Halves halves pointers) {digit : Nat} (pointer : Nat) (small : digit < RADIX_FANOUT) :
    Halves (writeEntry halves ⟨digit, pointer⟩) (Function.update pointers digit (some pointer)) := by
  have size : (bigEndian 8 pointer).length = 8 := length_bigEndian 8 pointer
  have place : digit * 8 + (bigEndian 8 pointer).length ≤ halves.2.length := by
    rw [lined.table, size, NODE_POINTER_BYTES]
    omega
  refine ⟨?_, ?_, fun other bound => ?_, fun other bound held atOther => ?_⟩
  · rw [writeEntry, length_setBit, lined.bitmap]
  · rw [writeEntry, length_splice place, lined.table]
  · have inside : digit / 8 < halves.1.length := by
      rw [lined.bitmap, NODE_BITMAP_BYTES]
      simp only [RADIX_FANOUT] at small ⊢
      omega
    rw [writeEntry, hasBit_setBit inside, lined.marked other bound]
    by_cases same : other = digit
    · simp [same]
    · simp [same]
  · rw [writeEntry]
    by_cases same : other = digit
    · rw [same, Function.update_self, Option.some.injEq] at atOther
      rw [same, ← atOther]
      exact slice_splice_self (by rwa [size] at place) (by rw [size])
    · rw [Function.update_of_ne same] at atOther
      rw [slice_splice_other place (by rw [size]; omega)]
      exact lined.stored other bound held atOther

theorem halves_of_items (items : List (Σ _ : Nat, Nat)) (distinct : items.NodupKeys)
    (small : ∀ item ∈ items, item.1 < RADIX_FANOUT) {halves : Bytes × Bytes}
    {pointers : Nat → Option Nat} (lined : Halves halves pointers) :
    Halves (items.foldl writeEntry halves)
      fun digit => (items.dlookup digit).or (pointers digit) := by
  induction items generalizing halves pointers with
  | nil => simpa using lined
  | cons item items ih =>
      obtain ⟨digit, pointer⟩ := item
      obtain ⟨absent, restDistinct⟩ := List.nodupKeys_cons.mp distinct
      have after := ih restDistinct (fun item member => small item (List.mem_cons_of_mem _ member))
        (lined.write pointer (small _ List.mem_cons_self))
      have same : (fun other => (List.dlookup other items).or
          (Function.update pointers digit (some pointer) other)) =
          fun other => (List.dlookup other (⟨digit, pointer⟩ :: items)).or (pointers other) := by
        funext other
        by_cases here : other = digit
        · have notLater : List.dlookup digit items = none := List.dlookup_eq_none.mpr absent
          rw [here, notLater, Function.update_self, List.dlookup_cons_eq]
          rfl
        · rw [Function.update_of_ne here, List.dlookup_cons_ne _ _ here]
      rw [← same]
      exact after

/-! ### Reading the entries -/

/-- The dict of the digits that have a pointer, in the order of the digits. -/
def gather (pointers : Nat → Option Int) (digits : List Nat) (entries : TextDict Int) :
    TextDict Int :=
  digits.foldl (fun entries digit =>
    (pointers digit).elim entries fun pointer => entries.insert (toString digit) pointer) entries

theorem gather_cons (pointers : Nat → Option Int) (digit : Nat) (digits : List Nat)
    (entries : TextDict Int) : gather pointers (digit :: digits) entries =
      gather pointers digits ((pointers digit).elim entries
        fun pointer => entries.insert (toString digit) pointer) := rfl

theorem gather_congr {left right : Nat → Option Int} {digits : List Nat}
    (same : ∀ digit ∈ digits, left digit = right digit) (entries : TextDict Int) :
    gather left digits entries = gather right digits entries := by
  induction digits generalizing entries with
  | nil => rfl
  | cons digit digits ih =>
      rw [gather_cons, gather_cons, same digit List.mem_cons_self]
      exact ih (fun later member => same later (List.mem_cons_of_mem _ member)) _

/-- The pointer of a digit that the bitmap marks. -/
def shown (bitmap table : Bytes) (digit : Nat) : Option Int :=
  if hasBit bitmap digit then
    some ((number (slice table (digit * 8) (digit * 8 + 8)) : Nat) : Int)
  else none

theorem readEntries_eq (bitmap table : Bytes) (size : table.length = NODE_POINTER_BYTES)
    (digits : List Nat) (small : ∀ digit ∈ digits, digit < RADIX_FANOUT)
    (entries : TextDict Int) :
    readEntries bitmap table digits entries =
      some (gather (shown bitmap table) digits entries) := by
  induction digits generalizing entries with
  | nil => rfl
  | cons digit digits ih =>
      have here := small digit List.mem_cons_self
      have later := ih fun digit member => small digit (List.mem_cons_of_mem _ member)
      have width : (slice table (digit * 8) (digit * 8 + 8)).length = 8 := by
        rw [length_slice]
        · omega
        · rw [size, NODE_POINTER_BYTES]
          omega
      rw [readEntries, gather_cons, shown]
      by_cases marked : hasBit bitmap digit = true
      · simp only [marked, if_true, unpack_one _ width]
        exact later _
      · simp only [marked]
        exact later _

theorem lookup_gather {pointers : Nat → Option Int} {digits : List Nat}
    (small : ∀ digit ∈ digits, digit < RADIX_FANOUT) (entries : TextDict Int) {digit : Nat}
    (inside : digit < RADIX_FANOUT) :
    (gather pointers digits entries).lookup (toString digit) =
      if digit ∈ digits then (pointers digit).or (entries.lookup (toString digit))
      else entries.lookup (toString digit) := by
  induction digits generalizing entries with
  | nil => rfl
  | cons first digits ih =>
      have firstSmall := small first List.mem_cons_self
      rw [gather_cons, ih fun digit member => small digit (List.mem_cons_of_mem _ member)]
      by_cases same : digit = first
      · subst same
        rw [if_pos List.mem_cons_self]
        cases pointers digit with
        | none => exact ite_self _
        | some pointer =>
            rw [Option.elim_some, AList.lookup_insert]
            exact ite_self _
      · have apart : toString digit ≠ toString first := fun equal =>
          same (toString_digit_inj inside firstSmall equal)
        have kept : ((pointers first).elim entries
            fun pointer => entries.insert (toString first) pointer).lookup (toString digit) =
            entries.lookup (toString digit) := by
          cases pointers first with
          | none => rfl
          | some pointer => exact AList.lookup_insert_ne apart
        rw [kept]
        simp [same]

theorem mem_gather {pointers : Nat → Option Int} {digits : List Nat} {entries : TextDict Int}
    {key : String} (held : key ∈ gather pointers digits entries) :
    key ∈ entries ∨ ∃ digit ∈ digits, key = toString digit := by
  induction digits generalizing entries with
  | nil => exact Or.inl held
  | cons first digits ih =>
      rw [gather_cons] at held
      rcases ih held with before | ⟨digit, member, same⟩
      · cases atFirst : pointers first with
        | none =>
            rw [atFirst] at before
            exact Or.inl before
        | some pointer =>
            rw [atFirst, Option.elim_some, AList.mem_insert] at before
            rcases before with here | before
            · exact Or.inr ⟨first, List.mem_cons_self, here⟩
            · exact Or.inl before
      · exact Or.inr ⟨digit, List.mem_cons_of_mem _ member, same⟩

theorem length_gather {pointers : Nat → Option Int} {digits : List Nat} (distinct : digits.Nodup)
    (small : ∀ digit ∈ digits, digit < RADIX_FANOUT) {entries : TextDict Int}
    (fresh : ∀ digit ∈ digits, toString digit ∉ entries) :
    (gather pointers digits entries).keys.length =
      entries.keys.length + (digits.filter fun digit => (pointers digit).isSome).length := by
  induction digits generalizing entries with
  | nil => rfl
  | cons first digits ih =>
      obtain ⟨notLater, restDistinct⟩ := List.nodup_cons.mp distinct
      have restSmall := fun digit member => small digit (List.mem_cons_of_mem first member)
      rw [gather_cons]
      cases atFirst : pointers first with
      | none =>
          rw [Option.elim_none, ih restDistinct restSmall
            fun digit member => fresh digit (List.mem_cons_of_mem _ member)]
          simp [atFirst]
      | some pointer =>
          have freshLater : ∀ digit ∈ digits,
              toString digit ∉ entries.insert (toString first) pointer := by
            intro digit member held
            rcases (AList.mem_insert _).mp held with same | before
            · have equal := toString_digit_inj (restSmall digit member)
                (small first List.mem_cons_self) same
              exact notLater (equal ▸ member)
            · exact fresh digit (List.mem_cons_of_mem _ member) before
          have absent : toString first ∉ entries.keys := fresh first List.mem_cons_self
          have marked : (pointers first).isSome = true := by rw [atFirst, Option.isSome_some]
          rw [Option.elim_some, ih restDistinct restSmall freshLater, AList.keys_insert,
            List.erase_of_not_mem absent, List.length_cons, List.filter_cons, if_pos marked,
            List.length_cons]
          omega

/-! ### Normalising the entries -/

/-- The keys are the decimal texts of digits and the values are page numbers. -/
def DigitEntries (items : List (Σ _ : String, Int)) : Prop :=
  ∀ item ∈ items, (∃ digit < RADIX_FANOUT, item.1 = toString digit) ∧
    0 ≤ item.2 ∧ item.2 ≤ MAX_PHYSICAL_PAGE_ID

theorem normalizeEntries_ok (items : List (Σ _ : String, Int)) (distinct : items.NodupKeys)
    (fine : DigitEntries items) {normalized : Dict Nat}
    (small : ∀ digit ∈ normalized, digit < RADIX_FANOUT)
    (fresh : ∀ digit ∈ normalized, toString digit ∉ items.keys) :
    ∃ entries, normalizeEntries items normalized = .ok entries ∧
      (∀ digit ∈ entries, digit < RADIX_FANOUT) ∧
      ∀ digit < RADIX_FANOUT, entries.lookup digit =
        ((items.dlookup (toString digit)).map Int.toNat).or (normalized.lookup digit) := by
  induction items generalizing normalized with
  | nil => exact ⟨normalized, rfl, small, fun _ _ => rfl⟩
  | cons item items ih =>
      obtain ⟨key, value⟩ := item
      obtain ⟨⟨digit, inside, named⟩, low, high⟩ := fine _ List.mem_cons_self
      simp only at named low high
      subst named
      obtain ⟨absent, restDistinct⟩ := List.nodupKeys_cons.mp distinct
      have unused : digit ∉ normalized := fun held =>
        fresh digit held (by rw [List.keys_cons]; exact List.mem_cons_self)
      have smallAfter : ∀ other ∈ normalized.insert digit value.toNat, other < RADIX_FANOUT := by
        intro other held
        rcases (AList.mem_insert _).mp held with same | before
        · rwa [same]
        · exact small other before
      have freshAfter : ∀ other ∈ normalized.insert digit value.toNat,
          toString other ∉ List.keys items := by
        intro other held
        rcases (AList.mem_insert _).mp held with same | before
        · rw [same]
          exact absent
        · intro later
          exact fresh other before (by rw [List.keys_cons]; exact List.mem_cons_of_mem _ later)
      obtain ⟨entries, ran, bounded, held⟩ := ih restDistinct
        (fun item member => fine item (List.mem_cons_of_mem _ member)) smallAfter freshAfter
      refine ⟨entries, ?_, bounded, fun other bound => ?_⟩
      · have range : ¬ ((digit : Int) < 0 ∨ (RADIX_FANOUT : Int) ≤ digit) := by omega
        have value_range : ¬ (value < 0 ∨ MAX_PHYSICAL_PAGE_ID < value) := by omega
        simp only [normalizeEntries, readInt_toString inside]
        rw [if_neg range, if_neg value_range, Int.toNat_natCast, if_neg unused]
        exact ran
      · rw [held other bound]
        by_cases same : other = digit
        · have notLater : List.dlookup (toString digit) items = none :=
            List.dlookup_eq_none.mpr absent
          rw [same, notLater, AList.lookup_insert, List.dlookup_cons_eq]
          rfl
        · have apart : toString other ≠ toString digit := fun equal =>
            same (toString_digit_inj bound inside equal)
          rw [AList.lookup_insert_ne same, List.dlookup_cons_ne _ _ apart]

theorem normalizeEntries_payload {entries : TextDict Int} (fine : DigitEntries entries.entries) :
    ∃ normalized, normalizeEntries entries.entries ∅ = .ok normalized ∧
      (∀ digit ∈ normalized, digit < RADIX_FANOUT) ∧
      ∀ digit < RADIX_FANOUT,
        normalized.lookup digit = (entries.lookup (toString digit)).map Int.toNat := by
  obtain ⟨normalized, ran, small, held⟩ := normalizeEntries_ok entries.entries entries.nodupKeys
    fine (fun digit member => absurd member (AList.notMem_empty digit))
    (fun digit member => absurd member (AList.notMem_empty digit))
  refine ⟨normalized, ran, small, fun digit inside => ?_⟩
  rw [held digit inside, AList.lookup_empty, Option.or_none]
  rfl

theorem length_keys_eq {normalized : Dict Nat}
    (small : ∀ digit ∈ normalized, digit < RADIX_FANOUT) :
    normalized.keys.length = ((List.range RADIX_FANOUT).filter fun digit =>
      (normalized.lookup digit).isSome).length := by
  refine List.Perm.length_eq ?_
  rw [List.perm_ext_iff_of_nodup normalized.keys_nodup (List.nodup_range.filter _)]
  intro digit
  rw [List.mem_filter, List.mem_range, AList.lookup_isSome, AList.mem_keys]
  exact ⟨fun held => ⟨small digit held, held⟩, fun held => held.2⟩

/-! ### Whole pages -/

section Pages

variable {crc32 : Bytes → Nat}

theorem length_magic : NODE31_MAGIC.length = 8 := by decide

theorem decodeFixedRadixNode_of_parts {data fields bitmap table zeros : Bytes}
    {epoch depth count : Int} {pointers : Nat → Option Int}
    (same : data = NODE31_MAGIC ++ fields ++
      bigEndian 4 (crc32 (NODE31_MAGIC ++ fields ++ (bitmap ++ table)) % 2 ^ 32) ++
        (bitmap ++ table) ++ zeros)
    (full : data.length = PAGE_SIZE) (packed : pack NODE_WIDTHS [epoch, depth, count] = some fields)
    (bitmapSize : bitmap.length = NODE_BITMAP_BYTES) (tableSize : table.length = NODE_POINTER_BYTES)
    (shallow : depth < RADIX_LEVELS) (narrow : count ≤ RADIX_FANOUT)
    (held : ∀ digit < RADIX_FANOUT, pointers digit = shown bitmap table digit)
    (counted : count = ((List.range RADIX_FANOUT).filter fun digit =>
      (pointers digit).isSome).length) :
    decodeFixedRadixNode crc32 data =
      some (epoch, ⟨depth, gather pointers (List.range RADIX_FANOUT) ∅⟩) := by
  have width : fields.length = 11 := length_pack packed
  have headSize : (NODE31_MAGIC ++ fields).length = NODE_HEADER_SIZE := by
    rw [List.length_append, length_magic, width]
    rfl
  have bodySize : (bitmap ++ table).length = NODE_BITMAP_BYTES + NODE_POINTER_BYTES := by
    rw [List.length_append, bitmapSize, tableSize]
  have checksum := unpack_checksum (crc32 (NODE31_MAGIC ++ fields ++ (bitmap ++ table)))
  generalize sumIs : bigEndian 4 (crc32 (NODE31_MAGIC ++ fields ++ (bitmap ++ table)) % 2 ^ 32) =
    sum at same checksum
  have sumSize : sum.length = 4 := by rw [← sumIs, length_bigEndian]
  have magicAt : data.take NODE31_MAGIC.length = NODE31_MAGIC := by
    have split : data = NODE31_MAGIC ++ (fields ++ sum ++ (bitmap ++ table) ++ zeros) := by
      rw [same]
      simp only [List.append_assoc]
    exact take_of_append split
  have fieldsAt : slice data NODE31_MAGIC.length NODE_HEADER_SIZE = fields := by
    have split : data = NODE31_MAGIC ++ fields ++ (sum ++ (bitmap ++ table) ++ zeros) := by
      rw [same]
      simp only [List.append_assoc]
    exact slice_of_append split rfl (by rw [width, length_magic]; rfl)
  have headAt : data.take NODE_HEADER_SIZE = NODE31_MAGIC ++ fields := by
    rw [← headSize]
    have split : data = (NODE31_MAGIC ++ fields) ++ (sum ++ (bitmap ++ table) ++ zeros) := by
      rw [same]
      simp only [List.append_assoc]
    exact take_of_append split
  have sumAt : slice data NODE_HEADER_SIZE (NODE_HEADER_SIZE + 4) = sum := by
    have split : data = (NODE31_MAGIC ++ fields) ++ sum ++ ((bitmap ++ table) ++ zeros) := by
      rw [same]
      simp only [List.append_assoc]
    exact slice_of_append split headSize.symm (by rw [headSize, sumSize])
  have bodyAt : slice data (NODE_HEADER_SIZE + 4) FIXED_NODE_USED_BYTES = bitmap ++ table := by
    have before : (NODE31_MAGIC ++ fields ++ sum).length = NODE_HEADER_SIZE + 4 := by
      rw [List.length_append, headSize, sumSize]
    exact slice_of_append same before.symm (by rw [before, bodySize]; rfl)
  have bitmapAt : (bitmap ++ table).take NODE_BITMAP_BYTES = bitmap := List.take_left' bitmapSize
  have tableAt : (bitmap ++ table).drop NODE_BITMAP_BYTES = table := List.drop_left' bitmapSize
  have inRange : ∀ digit ∈ List.range RADIX_FANOUT, digit < RADIX_FANOUT := fun digit member =>
    List.mem_range.mp member
  have entries := readEntries_eq bitmap table tableSize (List.range RADIX_FANOUT) inRange ∅
  rw [← gather_congr fun digit member => held digit (inRange digit member)] at entries
  have size : (gather pointers (List.range RADIX_FANOUT) ∅).keys.length =
      ((List.range RADIX_FANOUT).filter fun digit => (pointers digit).isSome).length := by
    rw [length_gather List.nodup_range inRange fun digit _ => AList.notMem_empty _]
    exact Nat.zero_add _
  have enough : ¬ data.length < FIXED_NODE_USED_BYTES := by
    rw [full]
    decide
  have header : ¬ (data.take NODE31_MAGIC.length ≠ NODE31_MAGIC ∨ (RADIX_LEVELS : Int) ≤ depth ∨
      (RADIX_FANOUT : Int) < count) := by
    rw [magicAt]
    push Not
    exact ⟨rfl, shallow, narrow⟩
  simp only [decodeFixedRadixNode, fieldsAt, sumAt, unpack_pack packed, checksum, bodyAt, headAt,
    bitmapAt, tableAt, entries]
  rw [if_neg (not_not.mpr full), if_neg enough, if_neg header, if_neg (not_not.mpr rfl),
    if_neg (by rw [size, counted]; exact not_not.mpr rfl)]

/-- A payload over digits is encoded, and read back in the order of the digits. -/
theorem encodeFixedRadixNode_read_back {epoch depth : Int} {entries : TextDict Int}
    (low : 0 ≤ epoch) (high : epoch < 2 ^ 64) (top : 0 ≤ depth) (shallow : depth < RADIX_LEVELS)
    (fine : DigitEntries entries.entries) :
    ∃ page, encodeFixedRadixNode crc32 epoch ⟨depth, entries⟩ = .ok page ∧
      decodeFixedRadixNode crc32 page = some (epoch, ⟨depth,
        gather (fun digit => entries.lookup (toString digit)) (List.range RADIX_FANOUT) ∅⟩) := by
  obtain ⟨normalized, ran, small, held⟩ := normalizeEntries_payload fine
  have count := length_keys_eq small
  have narrow : normalized.keys.length ≤ RADIX_FANOUT := by
    rw [count]
    exact (List.length_filter_le _ _).trans_eq List.length_range
  have lined := halves_of_items normalized.entries normalized.nodupKeys
    (fun item member => small item.1 (List.mem_keys_of_mem member)) halves_blank
  have packs : ∃ fields, pack NODE_WIDTHS [epoch, depth, (normalized.keys.length : Int)] =
      some fields := by
    have fanout : RADIX_FANOUT = 256 := rfl
    have levels : RADIX_LEVELS = 8 := rfl
    rw [levels] at shallow
    refine pack_some (.cons ⟨low, by norm_num; exact high⟩ (.cons ⟨top, by norm_num; omega⟩
      (.cons ⟨Int.natCast_nonneg _, by norm_num; omega⟩ .nil)))
  obtain ⟨fields, packed⟩ := packs
  have pointersAt : ∀ digit < RADIX_FANOUT, entries.lookup (toString digit) =
      (normalized.lookup digit).map Int.ofNat := by
    intro digit inside
    rw [held digit inside]
    cases found : entries.lookup (toString digit) with
    | none => rfl
    | some value =>
        have range := (fine ⟨_, value⟩ (AList.mem_lookup_iff.mp found)).2
        simp [Int.toNat_of_nonneg range.1]
  have bounded : ∀ digit < RADIX_FANOUT, ∀ pointer, normalized.lookup digit = some pointer →
      pointer < 256 ^ 8 := by
    intro digit inside pointer found
    have value := pointersAt digit inside
    rw [found, Option.map_some] at value
    have range := (fine ⟨_, (pointer : Int)⟩ (AList.mem_lookup_iff.mp value)).2.2
    simp only [MAX_PHYSICAL_PAGE_ID] at range
    omega
  have blank : (fun digit => (List.dlookup digit normalized.entries).or (none : Option Nat)) =
      fun digit => normalized.lookup digit := funext fun digit => Option.or_none
  rw [blank] at lined
  generalize halvesIs : normalized.entries.foldl writeEntry
    (List.replicate NODE_BITMAP_BYTES 0, List.replicate NODE_POINTER_BYTES 0) = halves at lined
  obtain ⟨bitmap, table⟩ := halves
  have width : fields.length = 11 := length_pack packed
  have size : (NODE31_MAGIC ++ fields ++
      bigEndian 4 (crc32 (NODE31_MAGIC ++ fields ++ (bitmap ++ table)) % 2 ^ 32) ++
        (bitmap ++ table)).length = FIXED_NODE_USED_BYTES := by
    have bitmapSize := lined.bitmap
    have tableSize := lined.table
    simp only at bitmapSize tableSize
    simp only [List.length_append, length_magic, width, length_bigEndian, bitmapSize, tableSize]
    rfl
  refine ⟨NODE31_MAGIC ++ fields ++
      bigEndian 4 (crc32 (NODE31_MAGIC ++ fields ++ (bitmap ++ table)) % 2 ^ 32) ++
        (bitmap ++ table) ++ List.replicate (PAGE_SIZE - FIXED_NODE_USED_BYTES) 0, ?_, ?_⟩
  · have depthRange : ¬ (depth < 0 ∨ (RADIX_LEVELS : Int) ≤ depth) := by omega
    simp only [encodeFixedRadixNode]
    rw [if_neg depthRange, Program.ok_bind ran, if_neg (not_lt.mpr narrow)]
    simp only [halvesIs, packed]
    rw [size, if_neg (not_not.mpr rfl), if_neg (by decide)]
  · refine decodeFixedRadixNode_of_parts rfl ?_ packed lined.bitmap lined.table shallow
      (by exact_mod_cast narrow) (fun digit inside => ?_) ?_
    · rw [List.length_append, size, List.length_replicate]
      rfl
    · have marked := lined.marked digit inside
      have stored := lined.stored digit inside
      simp only at marked stored
      rw [pointersAt digit inside, shown, marked]
      cases found : normalized.lookup digit with
      | none => rfl
      | some pointer =>
          rw [stored pointer found, number_bigEndian (bounded digit inside pointer found)]
          rfl
    · rw [count]
      congr 2
      refine List.filter_congr fun digit member => ?_
      rw [pointersAt digit (List.mem_range.mp member), Option.isSome_map]

/-- What the decoder accepts: a depth and an epoch in range, and entries over digits. -/
theorem decodeFixedRadixNode_range {data : Bytes} {epoch : Int} {payload : NodePayload}
    (decoded : decodeFixedRadixNode crc32 data = some (epoch, payload)) :
    (0 ≤ epoch ∧ epoch < 2 ^ 64) ∧ (0 ≤ payload.depth ∧ payload.depth < RADIX_LEVELS) ∧
      ∃ pointers : Nat → Option Int,
        payload.entries = gather pointers (List.range RADIX_FANOUT) ∅ ∧
        ∀ digit < RADIX_FANOUT, ∀ pointer, pointers digit = some pointer →
          0 ≤ pointer ∧ pointer ≤ MAX_PHYSICAL_PAGE_ID := by
  unfold decodeFixedRadixNode at decoded
  split at decoded
  · cases decoded
  rename_i full
  split at decoded
  · cases decoded
  simp only at decoded
  split at decoded
  · rename_i epoch' depth count storedCrc header stored
    split at decoded
    · cases decoded
    rename_i checks
    push Not at checks
    split at decoded
    · cases decoded
    have size : (slice data (NODE_HEADER_SIZE + 4) FIXED_NODE_USED_BYTES).length =
        NODE_BITMAP_BYTES + NODE_POINTER_BYTES := by
      rw [length_slice]
      · rfl
      · rw [not_not.mp full]
        decide
    have tableSize : ((slice data (NODE_HEADER_SIZE + 4) FIXED_NODE_USED_BYTES).drop
        NODE_BITMAP_BYTES).length = NODE_POINTER_BYTES := by
      rw [List.length_drop, size, Nat.add_sub_cancel_left]
    rw [readEntries_eq _ _ tableSize _ fun digit member => List.mem_range.mp member] at decoded
    simp only at decoded
    split at decoded
    · cases decoded
    cases decoded
    obtain ⟨epochRange, depthRange⟩ : (0 ≤ epoch ∧ epoch < 2 ^ 64) ∧ 0 ≤ depth := by
      cases unpack_range header with
      | cons epochRange rest =>
          cases rest with
          | cons depthRange _ => exact ⟨⟨epochRange.1, epochRange.2⟩, depthRange.1⟩
    refine ⟨epochRange, ⟨depthRange, checks.2.1⟩,
      shown ((slice data (NODE_HEADER_SIZE + 4) FIXED_NODE_USED_BYTES).take NODE_BITMAP_BYTES)
        ((slice data (NODE_HEADER_SIZE + 4) FIXED_NODE_USED_BYTES).drop NODE_BITMAP_BYTES),
      by simp only, ?_⟩
    intro digit inside pointer held
    rw [shown] at held
    split at held
    · cases held
      have width : (slice ((slice data (NODE_HEADER_SIZE + 4) FIXED_NODE_USED_BYTES).drop
          NODE_BITMAP_BYTES) (digit * 8) (digit * 8 + 8)).length = 8 := by
        rw [length_slice]
        · omega
        · rw [tableSize, NODE_POINTER_BYTES]
          omega
      have bound := number_lt (slice ((slice data (NODE_HEADER_SIZE + 4)
        FIXED_NODE_USED_BYTES).drop NODE_BITMAP_BYTES) (digit * 8) (digit * 8 + 8))
      rw [width] at bound
      simp only [MAX_PHYSICAL_PAGE_ID]
      omega
    · cases held
  · cases decoded

theorem gather_digitEntries {pointers : Nat → Option Int}
    (range : ∀ digit < RADIX_FANOUT, ∀ pointer, pointers digit = some pointer →
      0 ≤ pointer ∧ pointer ≤ MAX_PHYSICAL_PAGE_ID) :
    DigitEntries (gather pointers (List.range RADIX_FANOUT) ∅).entries := by
  intro item member
  obtain ⟨key, value⟩ := item
  have held : (gather pointers (List.range RADIX_FANOUT) ∅).lookup key = some value :=
    AList.mem_lookup_iff.mpr member
  have inside : key ∈ gather pointers (List.range RADIX_FANOUT) ∅ :=
    AList.lookup_isSome.mp (by rw [held]; rfl)
  rcases mem_gather inside with nothing | ⟨digit, small, named⟩
  · exact absurd nothing (AList.notMem_empty key)
  · have bound := List.mem_range.mp small
    subst named
    rw [lookup_gather (fun digit member => List.mem_range.mp member) ∅ bound, if_pos small,
      AList.lookup_empty, Option.or_none] at held
    exact ⟨⟨digit, bound, rfl⟩, range digit bound value held⟩

/-- Every node over digits is encoded and read back; and what the decoder accepts, from any page,
is encoded again and reads the same. -/
theorem fixed_radix_node_round_trip (crc32 : Bytes → Nat) :
    (∀ (epoch depth : Int) (entries : TextDict Int), 0 ≤ epoch → epoch < 2 ^ 64 → 0 ≤ depth →
      depth < RADIX_LEVELS → DigitEntries entries.entries →
      ∃ page decoded, encodeFixedRadixNode crc32 epoch ⟨depth, entries⟩ = .ok page ∧
        decodeFixedRadixNode crc32 page = some (epoch, ⟨depth, decoded⟩) ∧
        ∀ key, decoded.lookup key = entries.lookup key) ∧
    (∀ (data : Bytes) (epoch : Int) (payload : NodePayload),
      decodeFixedRadixNode crc32 data = some (epoch, payload) →
      ∃ page, encodeFixedRadixNode crc32 epoch payload = .ok page ∧
        decodeFixedRadixNode crc32 page = some (epoch, payload)) := by
  refine ⟨fun epoch depth entries low high top shallow fine => ?_,
    fun data epoch payload decoded => ?_⟩
  · obtain ⟨page, encoded, decoded⟩ :=
      encodeFixedRadixNode_read_back low high top shallow fine
    refine ⟨page, _, encoded, decoded, fun key => ?_⟩
    by_cases digitKey : ∃ digit < RADIX_FANOUT, key = toString digit
    · obtain ⟨digit, inside, rfl⟩ := digitKey
      rw [lookup_gather (fun digit member => List.mem_range.mp member) ∅ inside,
        if_pos (List.mem_range.mpr inside), AList.lookup_empty, Option.or_none]
    · have absent : entries.lookup key = none := by
        rw [AList.lookup_eq_none]
        intro held
        obtain ⟨item, member, same⟩ := List.mem_map.mp held
        have named := (fine item member).1
        rw [same] at named
        exact digitKey named
      rw [absent, AList.lookup_eq_none]
      intro held
      rcases mem_gather held with nothing | ⟨digit, member, same⟩
      · exact AList.notMem_empty key nothing
      · exact digitKey ⟨digit, List.mem_range.mp member, same⟩
  · obtain ⟨depth, entries⟩ := payload
    obtain ⟨⟨low, high⟩, ⟨top, shallow⟩, pointers, same, range⟩ :=
      decodeFixedRadixNode_range decoded
    simp only at same top shallow
    subst same
    obtain ⟨page, encoded, again⟩ := @encodeFixedRadixNode_read_back crc32 _ _ _ low high top
      shallow (gather_digitEntries range)
    refine ⟨page, encoded, ?_⟩
    rw [again, gather_congr]
    intro digit member
    rw [lookup_gather (fun digit member => List.mem_range.mp member) ∅ (List.mem_range.mp member),
      if_pos member, AList.lookup_empty, Option.or_none]

end Pages

def sampleEntries : TextDict Int :=
  (AList.singleton "200" MAX_PHYSICAL_PAGE_ID).insert "3" 0

theorem fixed_radix_node_round_trip_sample :
    ∃ page decoded again, encodeFixedRadixNode List.length 9 ⟨7, sampleEntries⟩ = .ok page ∧
      decodeFixedRadixNode List.length page = some (9, ⟨7, decoded⟩) ∧
      decoded.lookup "200" = some MAX_PHYSICAL_PAGE_ID ∧
      encodeFixedRadixNode List.length 9 ⟨7, decoded⟩ = .ok again ∧
      decodeFixedRadixNode List.length again = some (9, ⟨7, decoded⟩) := by
  have fine : DigitEntries sampleEntries.entries := by
    intro item member
    have either : item = ⟨"3", 0⟩ ∨ item = ⟨"200", MAX_PHYSICAL_PAGE_ID⟩ := by
      simpa [sampleEntries, List.kerase] using member
    rcases either with rfl | rfl
    · exact ⟨⟨3, by decide, rfl⟩, by decide, by decide⟩
    · exact ⟨⟨200, by decide, rfl⟩, by decide, by decide⟩
  obtain ⟨page, decoded, encoded, read, same⟩ := (fixed_radix_node_round_trip List.length).1 9 7
    sampleEntries (by decide) (by decide) (by decide) (by decide) fine
  obtain ⟨again, encodedAgain, readAgain⟩ :=
    (fixed_radix_node_round_trip List.length).2 page 9 ⟨7, decoded⟩ read
  exact ⟨page, decoded, again, encoded, read, (same "200").trans rfl, encodedAgain, readAgain⟩

end DurableContext.RadixNodePage
