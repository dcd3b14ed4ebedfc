import DurableContext.Lib.ByteLayout
import DurableContext.Storage.Page
import Mathlib.Data.List.Perm.Basic

/-! The fixed-width page of a radix node: a header, a checksum, a bitmap of the digits that have an
entry, and a table with a pointer for every digit.

The checksum is an arbitrary function of the bytes it covers. -/

namespace DurableContext

open ByteLayout

def RADIX_FANOUT : Nat := 256

def RADIX_LEVELS : Nat := 8

def LOGICAL_SEGMENT_BITS : Nat := 64

def MAX_PHYSICAL_PAGE_ID : Int := 2 ^ 64 - 1

/-- A Python dict with text keys. -/
abbrev TextDict (ν : Type) := AList fun _ : String => ν

namespace RadixNodePage

/-! `int(text)`, for ASCII text. -/

def isSpace (char : Char) : Bool :=
  let code := char.toNat
  code = 32 || (9 ≤ code && code ≤ 13)

def strip (chars : List Char) : List Char :=
  ((chars.dropWhile isSpace).reverse.dropWhile isSpace).reverse

def readDigits (value : Nat) : List Char → Option Nat
  | [] => some value
  | '_' :: digit :: rest =>
      if digit.isDigit then readDigits (value * 10 + (digit.toNat - 48)) rest else none
  | digit :: rest =>
      if digit.isDigit then readDigits (value * 10 + (digit.toNat - 48)) rest else none

def readNat : List Char → Option Nat
  | [] => none
  | digit :: rest => if digit.isDigit then readDigits (digit.toNat - 48) rest else none

def readInt (text : String) : Option Int :=
  match strip text.toList with
  | '+' :: digits => (readNat digits).map Int.ofNat
  | '-' :: digits => (readNat digits).map fun value => -(value : Int)
  | digits => (readNat digits).map Int.ofNat

structure NodePayload where
  depth : Int
  entries : TextDict Int

def NODE31_MAGIC : Bytes := ascii "DICMAP31"

/-- `>8sQBH` after the magic. -/
def NODE_WIDTHS : List Nat := [8, 1, 2]

def NODE_HEADER_SIZE : Nat := 19

def NODE_BITMAP_BYTES : Nat := RADIX_FANOUT / 8

def NODE_POINTER_BYTES : Nat := RADIX_FANOUT * 8

def FIXED_NODE_USED_BYTES : Nat := NODE_HEADER_SIZE + 4 + NODE_BITMAP_BYTES + NODE_POINTER_BYTES

/-- `_normalize_entries`, from the items not yet read. -/
def normalizeEntries : List (Σ _ : String, Int) → Dict Nat → Except StoreError (Dict Nat)
  | [], normalized => .ok normalized
  | ⟨rawKey, value⟩ :: items, normalized =>
      match readInt rawKey with
      | none => .error (.valueError
          ("invalid literal for int() with base 10: \x27" ++ rawKey ++ "\x27"))
      | some key =>
          if key < 0 ∨ RADIX_FANOUT ≤ key then
            .error (.valueError ("radix digit out of range: " ++ toString key))
          else if value < 0 ∨ MAX_PHYSICAL_PAGE_ID < value then
            .error (.valueError ("radix pointer exceeds uint64: " ++ toString value))
          else if key.toNat ∈ normalized then
            .error (.valueError ("duplicate radix digit: " ++ toString key))
          else normalizeEntries items (normalized.insert key.toNat value.toNat)

/-- Marks the digit in the bitmap and writes its pointer. -/
def writeEntry (halves : Bytes × Bytes) (entry : Σ _ : Nat, Nat) : Bytes × Bytes :=
  (setBit halves.1 entry.1, splice halves.2 (entry.1 * 8) (bigEndian 8 entry.2))

/-- The entries of the digits that the bitmap marks. -/
def readEntries (bitmap pointers : Bytes) : List Nat → TextDict Int → Option (TextDict Int)
  | [], entries => some entries
  | digit :: digits, entries =>
      if hasBit bitmap digit then
        match unpack [8] (slice pointers (digit * 8) (digit * 8 + 8)) with
        | some [value] => readEntries bitmap pointers digits (entries.insert (toString digit) value)
        | _ => none
      else readEntries bitmap pointers digits entries

section Node

variable (crc32 : Bytes → Nat)

def encodeFixedRadixNode (epoch : Int) (payload : NodePayload) : Except StoreError Bytes :=
  if payload.depth < 0 ∨ RADIX_LEVELS ≤ payload.depth then
    .error (.valueError ("radix depth out of range: " ++ toString payload.depth))
  else do
    let entries ← normalizeEntries payload.entries.entries ∅
    if RADIX_FANOUT < entries.keys.length then
      .error (.valueError "radix node exceeds semantic fanout")
    else
      let (bitmap, pointers) := entries.entries.foldl writeEntry
        (List.replicate NODE_BITMAP_BYTES 0, List.replicate NODE_POINTER_BYTES 0)
      match pack NODE_WIDTHS [epoch, payload.depth, entries.keys.length] with
      | none => .error .structError
      | some fields =>
          let head := NODE31_MAGIC ++ fields
          let body := bitmap ++ pointers
          let record := head ++ bigEndian 4 (crc32 (head ++ body) % 2 ^ 32) ++ body
          if record.length ≠ FIXED_NODE_USED_BYTES then
            .error (.assertionError "fixed radix node layout drifted")
          else if PAGE_SIZE < record.length then
            .error (.assertionError "fixed radix node no longer fits one physical page")
          else .ok (record ++ List.replicate (PAGE_SIZE - record.length) 0)

def decodeFixedRadixNode (data : Bytes) : Option (Int × NodePayload) :=
  if data.length ≠ PAGE_SIZE then none
  else if data.length < FIXED_NODE_USED_BYTES then none
  else
    let crcOffset := NODE_HEADER_SIZE
    let bodyOffset := crcOffset + 4
    match unpack NODE_WIDTHS (slice data NODE31_MAGIC.length crcOffset),
      unpack [4] (slice data crcOffset bodyOffset) with
    | some [epoch, depth, count], some [storedCrc] =>
        if data.take NODE31_MAGIC.length ≠ NODE31_MAGIC ∨ RADIX_LEVELS ≤ depth ∨
            RADIX_FANOUT < count then none
        else
          let body := slice data bodyOffset FIXED_NODE_USED_BYTES
          let head := data.take NODE_HEADER_SIZE
          if ((crc32 (head ++ body) % 2 ^ 32 : Nat) : Int) ≠ storedCrc then none
          else
            match readEntries (body.take NODE_BITMAP_BYTES) (body.drop NODE_BITMAP_BYTES)
                (List.range RADIX_FANOUT) ∅ with
            | none => none
            | some entries =>
                if (entries.keys.length : Int) ≠ count then none
                else some (epoch, ⟨depth, entries⟩)
    | _, _ => none

end Node

end RadixNodePage

end DurableContext
