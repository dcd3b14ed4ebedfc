import DurableContext.Lib.Disk
import DurableContext.Lib.DualCopy
import DurableContext.Lib.Program
import Mathlib.Data.List.AList
import Mathlib.Data.Rat.Floor

/-! What the physical pages of a primary file can hold, and the errors of the stores over them.

A page is modelled by what its magic, checksum and payload decode to; a page that fails any of
them (never written, scrubbed to zero, torn) is `blank`. -/

namespace DurableContext

/-- A Python dict with integer keys. -/
abbrev Dict (ν : Type) := AList fun _ : Nat => ν

/-- The slots of one bucket or stash page. -/
abbrev Slots := List (Option String)

/-- What the stores raise. `interrupted` is whatever a failpoint callback raises. -/
inductive StoreError where
  | primaryAdmissionExhausted (message : String)
  | valueError (message : String)
  | runtimeError (message : String)
  | assertionError (message : String)
  | overflowError (message : String)
  | keyError (generation : Nat)
  | indexError (cursor : Nat)
  | structError
  | integrityError (message : String)
  | interrupted (label : String)
  deriving DecidableEq, Repr

/-- What `except PrimaryAdmissionExhausted` catches. -/
def StoreError.isExhausted : StoreError → Bool
  | .primaryAdmissionExhausted _ => true
  | _ => false

/-- The keys of the keyed hash, one for each use of it. -/
inductive HashKey where
  | hashKey1 | hashKey2 | choiceKey | victimKey
  deriving DecidableEq, Repr

/-- What `initialize` fixes for good; the load bound is also given as `json` writes it. -/
structure Config where
  maxLoad : ℚ
  maxLoadText : String
  bucketSize : Nat
  maxKicks : Nat
  stashCapacity : Nat
  migrationSlotBudget : Nat
  forceSamePair : Bool
  deriving DecidableEq

structure OldGeneration where
  generation : Nat
  capacity : Nat
  basePage : Nat
  deriving DecidableEq, Repr

/-- The metadata a superblock carries. `ext` holds the fields a store adds to those of the
fixed-page primary. -/
structure Meta (E : Type) where
  currentGeneration : Nat
  currentCapacity : Nat
  currentRows : Nat
  currentBasePage : Nat
  old : Option OldGeneration
  oldRows : Int
  migrationCursor : Nat
  migrationLimit : Nat
  nextGeneration : Nat
  nextPageId : Nat
  liveSize : Nat
  config : Config
  ext : E
  deriving DecidableEq

structure RadixNode where
  depth : Nat
  entries : Dict Nat
  deriving DecidableEq

inductive LifecycleStatus where
  | owned | free
  deriving DecidableEq, Repr

structure LifecycleHeader where
  status : LifecycleStatus
  generation : Nat
  segmentId : Nat
  nextHeaderPage : Option Nat
  deriving DecidableEq, Repr

structure RetirementDescriptor where
  generation : Nat
  cursorHeaderPage : Option Nat
  remainingSegments : Nat
  nextDescriptorPage : Option Nat
  deriving DecidableEq, Repr

inductive DescriptorStatus where
  | queued | free
  deriving DecidableEq, Repr

/-- A reference to a pooled descriptor: its page and the incarnation it must still have. -/
structure DescriptorRef where
  page : Nat
  incarnation : Nat
  deriving DecidableEq, Repr

structure TaggedDescriptor where
  incarnation : Nat
  status : DescriptorStatus
  generation : Option Nat
  cursorHeaderPage : Option Nat
  remainingSegments : Nat
  next : Option DescriptorRef
  deriving DecidableEq, Repr

inductive Block (E : Type) where
  | blank
  | superblock (epoch : Nat) (info : Meta E)
  | page (epoch : Nat) (keys : Slots)
  | node (epoch : Nat) (node : RadixNode)
  | lifecycle (epoch : Nat) (header : LifecycleHeader)
  | retirement (epoch : Nat) (descriptor : RetirementDescriptor)
  | tagged (epoch : Nat) (descriptor : TaggedDescriptor)

instance {E : Type} : Inhabited (Block E) := ⟨.blank⟩

namespace Block

variable {E : Type}

@[simp] theorem default_eq : (default : Block E) = .blank := rfl

def asSuperblock : Block E → DualCopy.Copy (Meta E)
  | .superblock epoch info => some (epoch, info)
  | _ => none

/-- A data page whose payload has the slot count the reader asked for. -/
def asPage (slots : Nat) : Block E → DualCopy.Copy Slots
  | .page epoch keys => if keys.length = slots then some (epoch, keys) else none
  | _ => none

/-- A data page of any slot count: what a writer weighs when it picks the copy to replace. -/
def asAnyPage : Block E → DualCopy.Copy Slots
  | .page epoch keys => some (epoch, keys)
  | _ => none

def asNode : Block E → DualCopy.Copy RadixNode
  | .node epoch radixNode => some (epoch, radixNode)
  | _ => none

def asLifecycle : Block E → DualCopy.Copy LifecycleHeader
  | .lifecycle epoch header => some (epoch, header)
  | _ => none

def asTagged : Block E → DualCopy.Copy TaggedDescriptor
  | .tagged epoch descriptor => some (epoch, descriptor)
  | _ => none

end Block

/-- The two physical pages starting at `base`, read as copies of one record. -/
def copiesAt {E α : Type} (decode : Block E → DualCopy.Copy α) (disk : Disk (Block E))
    (base : Nat) : DualCopy.Copies α :=
  fun slot => decode (disk.pread (base + slot.toNat))

/-- Bytes of one character in ASCII-only JSON. -/
def jsonCharLength (c : Char) : Nat :=
  if c = '"' ∨ c = '\\' ∨ c = '\n' ∨ c = '\r' ∨ c = '\t' ∨ c.toNat = 8 ∨ c.toNat = 12 then 2
  else if 32 ≤ c.toNat ∧ c.toNat ≤ 126 then 1
  else if c.toNat < 65536 then 6
  else 12

def jsonKeyLength : Option String → Nat
  | none => 4
  | some key => 2 + (key.toList.map jsonCharLength).sum

/-- Bytes of the payload `{"keys":[...]}`. -/
def pagePayloadLength (keys : Slots) : Nat :=
  11 + (keys.map jsonKeyLength).sum + (keys.length - 1)

def PAGE_SIZE : Nat := 4096

def HEADER_SIZE : Nat := 24

def MAX_PAYLOAD : Nat := PAGE_SIZE - HEADER_SIZE

/-- `_pack_record` of a data page. -/
def packPage {E : Type} (epoch : Nat) (keys : Slots) : Except StoreError (Block E) :=
  if MAX_PAYLOAD < pagePayloadLength keys then
    .error (.valueError ("fixed page payload too large: " ++ toString (pagePayloadLength keys)))
  else if 2 ^ 64 ≤ epoch then .error .structError
  else .ok (.page epoch keys)

def jsonNatLength (n : Nat) : Nat := (Nat.toDigits 10 n).length

def jsonIntLength : Int → Nat
  | .ofNat n => jsonNatLength n
  | .negSucc n => 1 + jsonNatLength (n + 1)

/-- Bytes of a number or of `null`. -/
def jsonOptionLength : Option Nat → Nat
  | none => 4
  | some n => jsonNatLength n

/-- Bytes of a JSON object of these fields, given with the bytes of their values. -/
def jsonObjectLength (fields : List (String × Nat)) : Nat :=
  2 + (fields.map fun field => field.1.utf8ByteSize + 3 + field.2).sum + (fields.length - 1)

/-- What a store that extends the fixed-page primary writes in its superblock: its format, and the
fields it adds. -/
class SuperFields (E : Type) where
  format : Nat
  added : E → List (String × Nat)

instance : SuperFields Unit := ⟨1, fun _ => []⟩

section Super

variable {E : Type} [SuperFields E]

/-- The fields of a superblock's payload with the bytes of their values. -/
def Meta.fields (info : Meta E) : List (String × Nat) := [
  ("format", jsonNatLength (SuperFields.format E)),
  ("current_generation", jsonNatLength info.currentGeneration),
  ("current_capacity", jsonNatLength info.currentCapacity),
  ("current_rows", jsonNatLength info.currentRows),
  ("current_base_page", jsonNatLength info.currentBasePage),
  ("old_generation", jsonOptionLength (info.old.map OldGeneration.generation)),
  ("old_capacity", jsonOptionLength (info.old.map OldGeneration.capacity)),
  ("old_rows", jsonIntLength info.oldRows),
  ("old_base_page", jsonOptionLength (info.old.map OldGeneration.basePage)),
  ("migration_cursor", jsonNatLength info.migrationCursor),
  ("migration_limit", jsonNatLength info.migrationLimit),
  ("next_generation", jsonNatLength info.nextGeneration),
  ("next_page_id", jsonNatLength info.nextPageId),
  ("live_size", jsonNatLength info.liveSize),
  ("max_load", info.config.maxLoadText.utf8ByteSize),
  ("bucket_size", jsonNatLength info.config.bucketSize),
  ("max_kicks", jsonNatLength info.config.maxKicks),
  ("stash_capacity", jsonNatLength info.config.stashCapacity),
  ("migration_slot_budget", jsonNatLength info.config.migrationSlotBudget),
  ("force_same_pair", jsonNatLength info.config.forceSamePair.toNat)] ++
  SuperFields.added info.ext

@[irreducible] def superPayloadLength (info : Meta E) : Nat := jsonObjectLength info.fields

/-- `_pack_record` of a superblock. A number of more than 4300 digits is a `ValueError` already when
it is written out. -/
def packSuper (epoch : Nat) (info : Meta E) : Except StoreError (Block E) :=
  if MAX_PAYLOAD < superPayloadLength info then
    .error (.valueError
      ("fixed page payload too large: " ++ toString (superPayloadLength info)))
  else if 2 ^ 64 ≤ epoch then .error .structError
  else .ok (.superblock epoch info)

end Super

/-- An integer bound to a parameter of an SQL statement. -/
def bindInteger (n : Nat) : Except StoreError Unit :=
  if n < 2 ^ 63 then .ok ()
  else .error (.overflowError "Python int too large to convert to SQLite INTEGER")

theorem bindInteger_ok {n : Nat} (small : n < 2 ^ 63) : bindInteger n = .ok () := if_pos small

/-- `_read_super`: the valid superblock with the largest epoch, and its slot. -/
def readSuper {E : Type} (disk : Disk (Block E)) : Except StoreError (Nat × Meta E × Bool) :=
  match DualCopy.newest (copiesAt Block.asSuperblock disk 0) with
  | some (slot, epoch, info) => .ok (epoch, info, slot)
  | none => .error (.runtimeError "no valid fixed-page superblock")

end DurableContext
