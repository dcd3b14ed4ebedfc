import DurableContext.Cascade.MemoryStore

/-! Retrieval of evidence for a query: an index over the documents of a store, a search under a
budget, and a search that raises its budget until the evidence covers the query.

The two text channels score a document against a query; they are arbitrary, and so is the way their
scores are blended. -/

namespace DurableContext.Rag

open Cascade
open Maintenance (EvidenceRecord)

/-- What a query case says about the evidence it needs. -/
structure QueryCase where
  id : String
  questionType : String
  subjectId : String
  predicate : String
  asOfValidTime : Option Int
  asOfRecordedSeq : Option Int
  questionText : Option String

structure RetrievalDoc where
  evidenceId : String
  text : String
  subjectIds : List String
  predicates : List String
  validIntervals : List (Option Int × Option Int)
  recordedSeq : Int
  sourceEventTime : Option Int
  deriving DecidableEq

/-- The text channels, over scores `S`; the concept channel normalises the query for itself. -/
structure Channels (S : Type) where
  concept : String → RetrievalDoc → S
  lexical : String → RetrievalDoc → S
  blend : S → S → S

structure RetrievalHit (S : Type) where
  evidenceId : String
  score : S
  channels : Finset String

structure RetrievalTrace where
  architecture : String
  queryId : String
  budget : Nat
  candidatesConsidered : Nat
  returnedIds : List String
  channelCalls : List String
  rounds : Nat
  coverageSatisfied : Option Bool
  deriving DecidableEq, Repr

inductive SearchError where
  | valueError (message : String)
  deriving DecidableEq, Repr

/-- The documents and the addresses by which they are found. -/
structure IndexTables where
  docs : List RetrievalDoc
  byId : Table String RetrievalDoc
  docPos : Table String Nat
  identity : Multimap String String
  predicate : Multimap String String

section Build

variable {V : Type}

/-- The order of the documents. -/
def EvidenceEarlier (item other : EvidenceRecord) : Prop :=
  item.recordedSeq < other.recordedSeq ∨
    (item.recordedSeq = other.recordedSeq ∧ item.id ≤ other.id)

instance : DecidableRel EvidenceEarlier := fun _ _ => inferInstanceAs (Decidable (_ ∨ _))

/-- The order of the intervals, open ends far away. -/
def IntervalBefore (interval other : Option Int × Option Int) : Prop :=
  interval.1.getD (-10 ^ 18) < other.1.getD (-10 ^ 18) ∨
    (interval.1.getD (-10 ^ 18) = other.1.getD (-10 ^ 18) ∧
      interval.2.getD (10 ^ 18) ≤ other.2.getD (10 ^ 18))

instance : DecidableRel IntervalBefore := fun _ _ => inferInstanceAs (Decidable (_ ∨ _))

/-- The document of an evidence, with what the assertions that cite it say. -/
def RetrievalDoc.make (store : MemoryStore V) (item : EvidenceRecord) : RetrievalDoc :=
  let citing := (Table.values store.assertions).filter fun assertion =>
    decide (item.id ∈ assertion.evidenceIds)
  { evidenceId := item.id
    text := item.payload
    subjectIds := sorted (citing.map Assertion.subjectId).toFinset
    predicates := sorted (citing.map Assertion.predicate).toFinset
    validIntervals := ((citing.map fun assertion =>
      (assertion.validFrom, assertion.validTo)).dedup).insertionSort IntervalBefore
    recordedSeq := item.recordedSeq
    sourceEventTime := item.sourceEventTime }

def address (names : RetrievalDoc → List String) (docs : List RetrievalDoc) :
    Multimap String String :=
  docs.foldl (fun map doc =>
    (names doc).foldl (fun map name => Multimap.add map name doc.evidenceId) map) ∅

def IndexTables.build (store : MemoryStore V) : IndexTables :=
  let docs := ((Table.values store.evidence).insertionSort EvidenceEarlier).map
    (RetrievalDoc.make store)
  { docs := docs
    byId := docs.foldl (fun table doc => table.insert doc.evidenceId doc) ∅
    docPos := docs.zipIdx.foldl (fun table entry =>
      table.insert entry.1.evidenceId entry.2) ∅
    identity := address RetrievalDoc.subjectIds docs
    predicate := address RetrievalDoc.predicates docs }

/-- An index keeps the store it was built from, which may have changed since. -/
structure RetrievalIndex (V : Type) extends IndexTables where
  store : MemoryStore V
  built : ∃ earlier : MemoryStore V, toIndexTables = IndexTables.build earlier

def RetrievalIndex.create (store : MemoryStore V) : RetrievalIndex V :=
  ⟨IndexTables.build store, store, store, rfl⟩

end Build

/-! ### Scores and filters -/

section Scores

variable {S : Type} [LinearOrder S] [Zero S] (index : IndexTables)

/-- The positive scores of the allowed documents, and how many documents were looked at. -/
def scoreMatrix (score : RetrievalDoc → S) (allowed : Option (Finset String)) :
    Table String S × Nat :=
  let positions := match allowed with
    | none => List.range index.docs.length
    | some ids => ((sorted ids).filterMap fun id => index.docPos.lookup id).insertionSort (· ≤ ·)
  if positions = [] then (∅, 0)
  else
    ((positions.filterMap fun pos => index.docs[pos]?).foldl (fun scores doc =>
      if 0 < score doc then scores.insert doc.evidenceId (score doc) else scores) ∅,
      positions.length)

/-- Higher scores first, equal ones by name. -/
def Better (item other : Σ _ : String, S) : Prop :=
  other.2 < item.2 ∨ (item.2 = other.2 ∧ item.1 ≤ other.1)

instance : DecidableRel (Better (S := S)) := fun _ _ => inferInstanceAs (Decidable (_ ∨ _))

def rank (scores : Table String S) (budget : Nat) : List (RetrievalHit S) :=
  ((scores.entries.insertionSort Better).take budget).map fun entry => ⟨entry.1, entry.2, ∅⟩

def semantic (channels : Channels S) (query : String) (budget : Nat)
    (allowed : Option (Finset String)) : List (RetrievalHit S) × Nat :=
  let (scores, considered) := scoreMatrix index (channels.concept query) allowed
  ((rank scores budget).map fun hit => { hit with channels := {"semantic"} }, considered)

def lexical (channels : Channels S) (query : String) (budget : Nat)
    (allowed : Option (Finset String)) : List (RetrievalHit S) × Nat :=
  let (scores, considered) := scoreMatrix index (channels.lexical query) allowed
  ((rank scores budget).map fun hit => { hit with channels := {"lexical"} }, considered)

/-- The blended scores of the documents that either channel has scored. -/
def blended (channels : Channels S) (sem lex : Table String S) : Table String S :=
  (sorted (sem.keys.toFinset ∪ lex.keys.toFinset)).foldl (fun scores id => scores.insert id
    (channels.blend ((sem.lookup id).getD 0) ((lex.lookup id).getD 0))) ∅

def hybrid (channels : Channels S) (query : String) (budget : Nat)
    (allowed : Option (Finset String)) : List (RetrievalHit S) × Nat :=
  let (sem, consideredSem) := scoreMatrix index (channels.concept query) allowed
  let (lex, consideredLex) := scoreMatrix index (channels.lexical query) allowed
  ((rank (blended channels sem lex) budget).map fun hit => { hit with channels :=
      (if hit.evidenceId ∈ sem then {"semantic"} else ∅) ∪
        (if hit.evidenceId ∈ lex then {"lexical"} else ∅) },
    max consideredSem consideredLex)

end Scores

/-- Whether an assertion linked to the document holds at the time. -/
def RetrievalDoc.active (doc : RetrievalDoc) (validTime : Int) : Bool :=
  doc.validIntervals.isEmpty || doc.validIntervals.any fun interval =>
    (interval.1.all fun start => decide (start ≤ validTime)) &&
      (interval.2.all fun stop => decide (validTime ≤ stop))

def IndexTables.keep (index : IndexTables) (check : RetrievalDoc → Bool) (ids : Finset String) :
    Finset String :=
  ids.filter fun id => (index.byId.lookup id).any check

def IndexTables.hardFilter (index : IndexTables) (subjectId predicate : Option String)
    (validTime recordedSeq : Option Int) : Finset String :=
  let allowed := index.byId.keys.toFinset
  let allowed := match subjectId with
    | none => allowed
    | some subject => allowed ∩ Multimap.get index.identity subject
  let allowed := match predicate with
    | none => allowed
    | some name => allowed ∩ Multimap.get index.predicate name
  let allowed := match recordedSeq with
    | none => allowed
    | some seq => index.keep (fun doc => decide (doc.recordedSeq ≤ seq)) allowed
  match validTime with
  | none => allowed
  | some time => index.keep (fun doc => doc.active time) allowed

/-! ### Searches -/

def queryText (q : QueryCase) : String :=
  let parts := [q.subjectId, q.predicate.map fun char => if char = '_' then ' ' else char] ++
    (if q.questionType = "current" then ["current latest"]
      else if q.questionType = "historical" ∨ q.questionType = "historical_belief" then
        ["historical previous"]
      else if q.questionType = "relation_classification" then
        ["correction changed transition previous current"]
      else if q.questionType = "provenance" then ["source evidence support"]
      else []) ++
    (q.asOfValidTime.elim [] fun time => ["day " ++ toString time])
  match q.questionText with
  | some text => if text ≠ "" then text else " ".intercalate parts
  | none => " ".intercalate parts

/-- The newest documents first, equal ones by name. -/
def Newer (doc other : RetrievalDoc) : Prop :=
  other.recordedSeq < doc.recordedSeq ∨
    (doc.recordedSeq = other.recordedSeq ∧ doc.evidenceId ≤ other.evidenceId)

instance : DecidableRel Newer := fun _ _ => inferInstanceAs (Decidable (_ ∨ _))

section Search

variable {S V : Type} [LinearOrder S] [Zero S] (channels : Channels S)

/-- The allowed documents without a hit, the newest first. -/
def remaining (index : IndexTables) (allowed hitIds : Finset String) : List RetrievalDoc :=
  ((sorted (allowed.filter (· ∉ hitIds))).filterMap fun id =>
    index.byId.lookup id).insertionSort Newer

def searchPlanned (index : IndexTables) (q : QueryCase) (budget : Nat) :
    List (RetrievalHit S) × Nat :=
  let allowed := index.hardFilter (some q.subjectId) (some q.predicate) q.asOfValidTime
    q.asOfRecordedSeq
  let (hits, considered) := hybrid index channels (queryText q) budget (some allowed)
  let hitIds := (hits.map RetrievalHit.evidenceId).toFinset
  if hits.length < budget then
    let filled := (remaining index allowed hitIds).take (budget - hits.length)
    (hits ++ filled.map fun doc => ⟨doc.evidenceId, 0, {"identity", "predicate", "time"}⟩,
      considered)
  else (hits, considered)

def search (index : IndexTables) (q : QueryCase) (mode : String) (budget : Nat) :
    Except SearchError (List String × RetrievalTrace) := do
  let ((hits, considered), calls) ←
    if mode = "semantic_only" then
      .ok (semantic index channels (queryText q) budget none, ["semantic"])
    else if mode = "lexical_only" then
      .ok (lexical index channels (queryText q) budget none, ["lexical"])
    else if mode = "hybrid_text" then
      .ok (hybrid index channels (queryText q) budget none, ["semantic", "lexical"])
    else if mode = "planned_multi_address" then
      .ok (searchPlanned channels index q budget,
        ["identity", "predicate", "time", "semantic", "lexical"])
    else .error (.valueError ("Unknown retrieval mode: " ++ mode))
  let ids := (hits.take budget).map RetrievalHit.evidenceId
  .ok (ids, ⟨mode, q.id, budget, considered, ids, calls, 1, none⟩)

/-- Whether the evidence bears on the query: `reprs` prints the values of the assertions. -/
def coverageSatisfied (reprs : Reprs V) (store : MemoryStore V) (q : QueryCase)
    (evidenceIds : List String) : Bool :=
  let key : StateKey := (q.subjectId, q.predicate, "default")
  let assertions := (store.assertionsForKey key).filter fun item =>
    item.evidenceIds.any fun id => decide (id ∈ evidenceIds)
  if assertions = [] then false
  else if q.questionType = "relation_classification" then
    (store.relationsForAssertions (assertions.map Assertion.id).toFinset).any fun rel =>
      rel.relation.value = "corrects" || rel.relation.value = "supersedes"
  else if (store.state.lookup key).any fun cell => cell.status.value = "contested" then
    2 ≤ ((assertions.map fun item => reprs.value item.objectValue).dedup).length
  else 1 ≤ assertions.length

/-- The rounds of `adaptive_search`, at most `fuel` of them. -/
def adaptiveRounds (reprs : Reprs V) (index : RetrievalIndex V) (q : QueryCase) (maxBudget : Nat) :
    Nat → Nat → Nat → Option (Except SearchError (List String × RetrievalTrace))
  | 0, _, _ => none
  | fuel + 1, rounds, budget =>
      let rounds := rounds + 1
      match search channels index.toIndexTables q "planned_multi_address" budget with
      | .error error => some (.error error)
      | .ok (ids, trace) =>
          if coverageSatisfied reprs index.store q ids then
            some (.ok (ids, { trace with rounds := rounds, coverageSatisfied := some true }))
          else if maxBudget ≤ budget then
            some (.ok (ids, { trace with rounds := rounds, coverageSatisfied := some false }))
          else adaptiveRounds reprs index q maxBudget fuel rounds (min maxBudget (budget * 2))

def adaptiveSearch (reprs : Reprs V) (index : RetrievalIndex V) (q : QueryCase)
    (initialBudget maxBudget fuel : Nat) :
    Option (Except SearchError (List String × RetrievalTrace)) :=
  adaptiveRounds channels reprs index q maxBudget fuel 0 initialBudget

end Search

end DurableContext.Rag
