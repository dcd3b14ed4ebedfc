import DurableContext.Lib.Table
import Mathlib.Algebra.Group.Int.Defs
import Mathlib.Data.List.Sort

/-! The canonical rows of a maintenance store, the names they are stored under, and the intents that
change them. -/

namespace DurableContext.Maintenance

/-- What a store raises. A transaction that raises is rolled back. -/
inductive Raised where
  | runtimeError (message : String)
  | keyError (key : String)
  | integrityError (message : String)
  | overflowError (message : String)
  deriving DecidableEq

structure EvidenceRecord where
  id : String
  payload : String
  sourceId : String
  recordedSeq : Int
  sourceEventTime : Option Int
  scope : String
  lifecycle : String
  deriving DecidableEq

/-- An assertion with the evidence it cites, which the store keeps in a table of its own. -/
structure Assertion where
  id : String
  subjectId : String
  predicate : String
  objectValue : Int
  recordedSeq : Int
  validFrom : Option Int
  validTo : Option Int
  modality : String
  polarity : String
  evidenceIds : List String
  extractionVersion : String
  deriving DecidableEq

/-- The subject and the predicate of a cell; the scope is always `default`. -/
abbrev CellKey := String × String

def Assertion.key (item : Assertion) : CellKey := (item.subjectId, item.predicate)

/-- `f"{i:0{width}d}"`. -/
def zeroPadded (width : Nat) (i : Int) : String :=
  let sign := if i < 0 then ['-'] else []
  let digits := Nat.toDigits 10 i.natAbs
  String.ofList (sign ++ List.replicate (width - sign.length - digits.length) '0' ++ digits)

def subjectId (i : Int) : String := "cascade-subject-" ++ zeroPadded 7 i

def evidenceId (i : Int) : String := "cascade-evidence-" ++ zeroPadded 7 i

def assertionId (i : Int) : String := "cascade-assertion-" ++ zeroPadded 7 i

def aliasOf (start : String) (i : Int) : String := start ++ "-" ++ zeroPadded 7 i

theorem zeroPadded_inj {width i j : Nat} (same : zeroPadded width i = zeroPadded width j) :
    i = j := by
  have value : ∀ k : Nat, Nat.ofDigitChars 10 (zeroPadded width k).toList 0 = k := by
    intro k
    have nonneg : ¬ ((k : Int) < 0) := by omega
    simp only [zeroPadded, nonneg, if_false, Int.natAbs_natCast, List.nil_append,
      String.toList_ofList, Nat.ofDigitChars_append, Nat.ofDigitChars_replicate_zero, Nat.mul_zero,
      Nat.ofDigitChars_ten_toDigits]
  rw [← value i, same, value j]

theorem subjectId_inj {i j : Nat} (same : subjectId i = subjectId j) : i = j :=
  zeroPadded_inj ((String.append_right_inj _).mp same)

theorem evidenceId_inj {i j : Nat} (same : evidenceId i = evidenceId j) : i = j :=
  zeroPadded_inj ((String.append_right_inj _).mp same)

theorem assertionId_inj {i j : Nat} (same : assertionId i = assertionId j) : i = j :=
  zeroPadded_inj ((String.append_right_inj _).mp same)

structure Canonical where
  evidence : Table String EvidenceRecord
  assertions : Table String Assertion

namespace Canonical

def empty : Canonical := ⟨∅, ∅⟩

def rows (canonical : Canonical) : List Assertion := canonical.assertions.entries.map Sigma.snd

def assertionsOf (canonical : Canonical) (key : CellKey) : List Assertion :=
  canonical.rows.filter fun item => decide (item.key = key)

/-- `ORDER BY recorded_seq DESC, id DESC`. -/
def Later (item other : Assertion) : Prop :=
  other.recordedSeq < item.recordedSeq ∨
    (other.recordedSeq = item.recordedSeq ∧ other.id ≤ item.id)

instance : DecidableRel Later := fun _ _ => inferInstanceAs (Decidable (_ ∨ _))

def latestAssertion (canonical : Canonical) (key : CellKey) : Option Assertion :=
  ((canonical.assertionsOf key).insertionSort Later).head?

def payloads (canonical : Canonical) (evidenceIds : List String) : List (String × String) :=
  (evidenceIds.filterMap fun id => (canonical.evidence.lookup id).map fun row => (id, row.payload))
    |>.insertionSort fun pair other => pair.1 < other.1 ∨ (pair.1 = other.1 ∧ pair.2 ≤ other.2)

end Canonical

/-- What an intent overwrites: `evidence:<id>` or `assertion:<id>`. -/
inductive WriteKey where
  | evidence (id : String)
  | assertion (id : String)
  deriving DecidableEq

inductive CanonicalRow where
  | evidence (row : EvidenceRecord)
  | assertion (row : Assertion)
  deriving DecidableEq

def Canonical.row (canonical : Canonical) : WriteKey → Option CanonicalRow
  | .evidence id => (canonical.evidence.lookup id).map .evidence
  | .assertion id => (canonical.assertions.lookup id).map .assertion

/-- The operation of an intent with its payload and the row it was admitted against. -/
inductive Intent where
  | upsertEvidence (item : EvidenceRecord) (previous : Option EvidenceRecord)
  | upsertAssertion (item : Assertion) (previous : Option Assertion)
  | deleteAssertion (id : String) (previous : Assertion)
  deriving DecidableEq

namespace Intent

def writeKey : Intent → WriteKey
  | upsertEvidence item _ => .evidence item.id
  | upsertAssertion item _ => .assertion item.id
  | deleteAssertion id _ => .assertion id

/-- `previous_json`. -/
def previousRow : Intent → Option CanonicalRow
  | upsertEvidence _ previous => previous.map .evidence
  | upsertAssertion _ previous => previous.map .assertion
  | deleteAssertion _ previous => some (.assertion previous)

/-- The cells of the assertion that is written and of the one it was admitted against. -/
def cells : Intent → List CellKey
  | upsertEvidence _ _ => []
  | upsertAssertion item previous => item.key :: (previous.map Assertion.key).toList
  | deleteAssertion _ previous => [previous.key]

end Intent

/-- What an `INTEGER` column holds. -/
def FitsInteger (value : Int) : Prop := -2 ^ 63 ≤ value ∧ value < 2 ^ 63

-- the other way round, the comparison with a variable counts down from the bound
instance : DecidablePred FitsInteger := fun value =>
  decidable_of_iff (-2 ^ 63 ≤ value ∧ ¬ 2 ^ 63 ≤ value) (and_congr Iff.rfl Int.not_le)

def EvidenceRecord.Storable (item : EvidenceRecord) : Prop :=
  FitsInteger item.recordedSeq ∧ ∀ time ∈ item.sourceEventTime, FitsInteger time

instance : DecidablePred EvidenceRecord.Storable := fun _ => inferInstanceAs (Decidable (_ ∧ _))

/-- The value is stored as a text, so it may be any integer. -/
def Assertion.Storable (item : Assertion) : Prop :=
  FitsInteger item.recordedSeq ∧ (∀ time ∈ item.validFrom, FitsInteger time) ∧
    ∀ time ∈ item.validTo, FitsInteger time

instance : DecidablePred Assertion.Storable := fun _ => inferInstanceAs (Decidable (_ ∧ _ ∧ _))

/-- The integers of the row that is written fit their columns. -/
def Intent.Storable : Intent → Prop
  | .upsertEvidence item _ => item.Storable
  | .upsertAssertion item _ => item.Storable
  | .deleteAssertion _ _ => True

instance : DecidablePred Intent.Storable := fun intent =>
  match intent with
  | .upsertEvidence _ _ => inferInstanceAs (Decidable (EvidenceRecord.Storable _))
  | .upsertAssertion _ _ => inferInstanceAs (Decidable (Assertion.Storable _))
  | .deleteAssertion _ _ => isTrue trivial

/-- What a statement raises when it is given another integer. -/
def integerTooLarge : Raised := .overflowError "Python int too large to convert to SQLite INTEGER"

/-- `_apply_canonical_tx` of the canonical tables. -/
def Canonical.apply (canonical : Canonical) : Intent → Except Raised Canonical
  | .upsertEvidence item _ =>
      if item.Storable then
        .ok { canonical with evidence := canonical.evidence.insert item.id item }
      else .error integerTooLarge
  | .upsertAssertion item _ =>
      if ¬ item.Storable then .error integerTooLarge
      else if item.evidenceIds.Nodup then
        let row := { item with evidenceIds := item.evidenceIds.insertionSort (· ≤ ·) }
        .ok { canonical with assertions := canonical.assertions.insert item.id row }
      else
        .error (.integrityError <| "UNIQUE constraint failed: assertion_evidence.assertion_id, " ++
          "assertion_evidence.evidence_id")
  | .deleteAssertion id _ =>
      .ok { canonical with assertions := canonical.assertions.erase id }

/-! ### Admission -/

def readKey (key : CellKey) : String := key.1 ++ "|" ++ key.2

/-- The cells whose derived rows the intent can make stale, as the canonical rows stand. -/
def readCells (canonical : Canonical) : Intent → List CellKey
  | .upsertEvidence item _ =>
      (canonical.rows.filter fun row => decide (item.id ∈ row.evidenceIds)).map Assertion.key
  | intent => intent.cells

def queueReadKeys (canonical : Canonical) (intent : Intent) : List String :=
  ((readCells canonical intent).map readKey).dedup.insertionSort (· ≤ ·)

inductive Operation where
  | replaceEvidencePayload
  | replaceAssertionObject
  | deleteAssertion
  deriving DecidableEq

inductive Request where
  | operation (operation : Operation) (index newValue : Int)
  | topologyMove (index targetIndex : Int)
  | predicateChange (index : Int) (newPredicate : String) (newValue : Option Int)
  | predicateAddition (index : Int) (newPredicate : String) (value : Int)
  deriving DecidableEq

def Canonical.getAssertion (canonical : Canonical) (id : String) : Except Raised Assertion :=
  match canonical.assertions.lookup id with
  | none => .error (.keyError id)
  | some item => .ok item

def replacement (canonical : Canonical) (index : Int) (change : Assertion → Assertion) :
    Except Raised (List Intent) := do
  let item ← canonical.getAssertion (assertionId index)
  return [.upsertAssertion (change item) (some item)]

def enqueueOperation (canonical : Canonical) (operation : Operation) (index newValue : Int) :
    Except Raised (List Intent) :=
  match operation with
  | .replaceEvidencePayload =>
      match canonical.evidence.lookup (evidenceId index) with
      | none => .error (.keyError (evidenceId index))
      | some row =>
          let payload := aliasOf "Nova" index ++ " finance migration deadline is day 42."
          .ok [.upsertEvidence { row with payload } (some row)]
  | .replaceAssertionObject =>
      replacement canonical index fun item => { item with objectValue := newValue }
  | .deleteAssertion => do
      let item ← canonical.getAssertion (assertionId index)
      return [.deleteAssertion (assertionId index) item]

def enqueueTopologyMove (canonical : Canonical) (index targetIndex : Int) :
    Except Raised (List Intent) :=
  replacement canonical index fun item => { item with subjectId := subjectId targetIndex }

def enqueuePredicateChange (canonical : Canonical) (index : Int) (newPredicate : String)
    (newValue : Option Int) : Except Raised (List Intent) :=
  replacement canonical index fun item =>
    { item with
      predicate := newPredicate
      objectValue := newValue.getD item.objectValue }

def replaceChar (text : String) (old new : Char) : String :=
  String.ofList (text.toList.map fun letter => if letter = old then new else letter)

/-- The evidence and then the assertion of another predicate of the base assertion's subject. -/
def enqueuePredicateAddition (canonical : Canonical) (index : Int) (newPredicate : String)
    (value : Int) : Except Raised (List Intent) := do
  let base ← canonical.getAssertion (assertionId index)
  let suffix := replaceChar newPredicate ' ' '_'
  let eid := "evidence-extra-" ++ zeroPadded 6 index ++ "-" ++ suffix
  let evidence : EvidenceRecord :=
    { id := eid
      payload := aliasOf "Atlas" index ++ " " ++ replaceChar newPredicate '_' ' ' ++ " is day " ++
        toString value ++ "."
      sourceId := "source-v013"
      recordedSeq := 1000000 + index
      sourceEventTime := some value
      scope := "default"
      lifecycle := "active" }
  let assertion : Assertion :=
    { id := "assertion-extra-" ++ zeroPadded 6 index ++ "-" ++ suffix
      subjectId := base.subjectId
      predicate := newPredicate
      objectValue := value
      recordedSeq := 1000000 + index
      validFrom := some value
      validTo := none
      modality := "asserted"
      polarity := "positive"
      evidenceIds := [eid]
      extractionVersion := "oracle-v1" }
  return [.upsertEvidence evidence none, .upsertAssertion assertion none]

/-- The intents of a request, against the canonical rows it finds. -/
def Request.intents (canonical : Canonical) : Request → Except Raised (List Intent)
  | operation kind index newValue => enqueueOperation canonical kind index newValue
  | topologyMove index targetIndex => enqueueTopologyMove canonical index targetIndex
  | predicateChange index newPredicate newValue =>
      enqueuePredicateChange canonical index newPredicate newValue
  | predicateAddition index newPredicate value =>
      enqueuePredicateAddition canonical index newPredicate value

end DurableContext.Maintenance
