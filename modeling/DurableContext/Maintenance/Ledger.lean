import DurableContext.Maintenance.Store
import Mathlib.Data.List.Count
import Mathlib.Data.List.Nodup

/-! What the queue, the journal, the versions and the canonical rows say about each other.

The queue is split into the rows that have ended, the row that is being carried out and the rows
that wait. The canonical rows are the initial ones with the intents of the rows that were applied,
in the order of the queue. -/

namespace DurableContext.Maintenance

/-! ### Canonical rows and the intents admitted against them -/

/-- Rows are stored under their own identifiers, and cite no evidence twice. -/
structure Canonical.Wf (canonical : Canonical) : Prop where
  evidence : ∀ id row, canonical.evidence.lookup id = some row → row.id = id
  assertions : ∀ id row, canonical.assertions.lookup id = some row → row.id = id
  cited : ∀ id row, canonical.assertions.lookup id = some row → row.evidenceIds.Nodup

def Intent.Applicable : Intent → Prop
  | .upsertAssertion item _ => item.evidenceIds.Nodup
  | _ => True

/-- The intent was admitted against no row or against the one that is stored. -/
def Faithful (canonical : Canonical) (intent : Intent) : Prop :=
  intent.previousRow = none ∨ intent.previousRow = canonical.row intent.writeKey

namespace Canonical

variable {canonical canonical' : Canonical} {intent : Intent}

theorem empty_wf : Canonical.empty.Wf := by
  constructor <;> intro id row held <;> cases held

theorem apply_ok (applicable : intent.Applicable) (storable : intent.Storable) :
    ∃ canonical', canonical.apply intent = .ok canonical' := by
  cases intent with
  | upsertEvidence item previous => exact ⟨_, if_pos storable⟩
  | upsertAssertion item previous =>
      exact ⟨_, (if_neg (not_not_intro storable)).trans (if_pos applicable)⟩
  | deleteAssertion id previous => exact ⟨_, rfl⟩

theorem apply_evidence {item : EvidenceRecord} {previous : Option EvidenceRecord}
    (ran : canonical.apply (.upsertEvidence item previous) = .ok canonical') :
    item.Storable ∧
      canonical' = { canonical with evidence := canonical.evidence.insert item.id item } := by
  by_cases storable : item.Storable
  · rw [Canonical.apply, if_pos storable] at ran
    exact ⟨storable, (Except.ok.inj ran).symm⟩
  · rw [Canonical.apply, if_neg storable] at ran
    cases ran

theorem apply_upsert {item : Assertion} {previous : Option Assertion}
    (ran : canonical.apply (.upsertAssertion item previous) = .ok canonical') :
    (item.Storable ∧ item.evidenceIds.Nodup) ∧
      canonical' =
        { canonical with
          assertions := canonical.assertions.insert item.id
            { item with evidenceIds := item.evidenceIds.insertionSort (· ≤ ·) } } := by
  by_cases storable : item.Storable
  · by_cases applicable : item.evidenceIds.Nodup
    · rw [Canonical.apply, if_neg (not_not_intro storable), if_pos applicable] at ran
      exact ⟨⟨storable, applicable⟩, (Except.ok.inj ran).symm⟩
    · rw [Canonical.apply, if_neg (not_not_intro storable), if_neg applicable] at ran
      cases ran
  · rw [Canonical.apply, if_pos storable] at ran
    cases ran

theorem storable_of_apply (ran : canonical.apply intent = .ok canonical') : intent.Storable := by
  cases intent with
  | upsertEvidence item previous => exact (apply_evidence ran).1
  | upsertAssertion item previous => exact (apply_upsert ran).1.1
  | deleteAssertion id previous => trivial

theorem Wf.apply (wf : canonical.Wf) (ran : canonical.apply intent = .ok canonical') :
    canonical'.Wf := by
  cases intent with
  | upsertEvidence item previous =>
      obtain ⟨-, rfl⟩ := apply_evidence ran
      refine ⟨fun id row held => ?_, wf.assertions, wf.cited⟩
      by_cases same : id = item.id
      · subst same
        rw [AList.lookup_insert] at held
        rw [← Option.some.inj held]
      · rw [AList.lookup_insert_ne same] at held
        exact wf.evidence id row held
  | upsertAssertion item previous =>
      obtain ⟨⟨-, nodup⟩, rfl⟩ := apply_upsert ran
      refine ⟨wf.evidence, fun id row held => ?_, fun id row held => ?_⟩ <;>
        by_cases same : id = item.id
      · subst same
        rw [AList.lookup_insert] at held
        rw [← Option.some.inj held]
      · rw [AList.lookup_insert_ne same] at held
        exact wf.assertions id row held
      · subst same
        rw [AList.lookup_insert] at held
        rw [← Option.some.inj held]
        exact (List.perm_insertionSort _ _).nodup_iff.mpr nodup
      · rw [AList.lookup_insert_ne same] at held
        exact wf.cited id row held
  | deleteAssertion id previous =>
      obtain rfl := Except.ok.inj ran
      refine ⟨wf.evidence, fun other row held => ?_, fun other row held => ?_⟩ <;>
        by_cases same : other = id
      · rw [same, AList.lookup_erase] at held
        cases held
      · rw [AList.lookup_erase_ne same] at held
        exact wf.assertions other row held
      · rw [same, AList.lookup_erase] at held
        cases held
      · rw [AList.lookup_erase_ne same] at held
        exact wf.cited other row held

theorem row_apply (ran : canonical.apply intent = .ok canonical') {key : WriteKey}
    (other : key ≠ intent.writeKey) : canonical'.row key = canonical.row key := by
  cases intent with
  | upsertEvidence item previous =>
      obtain ⟨-, rfl⟩ := apply_evidence ran
      cases key with
      | evidence id =>
          have apart : id ≠ item.id := fun same => other (congrArg WriteKey.evidence same)
          exact congrArg (Option.map CanonicalRow.evidence) (AList.lookup_insert_ne apart)
      | assertion id => rfl
  | upsertAssertion item previous =>
      obtain ⟨_, rfl⟩ := apply_upsert ran
      cases key with
      | evidence id => rfl
      | assertion id =>
          have apart : id ≠ item.id := fun same => other (congrArg WriteKey.assertion same)
          exact congrArg (Option.map CanonicalRow.assertion) (AList.lookup_insert_ne apart)
  | deleteAssertion deleted previous =>
      obtain rfl := Except.ok.inj ran
      cases key with
      | evidence id => rfl
      | assertion id =>
          have apart : id ≠ deleted := fun same => other (congrArg WriteKey.assertion same)
          exact congrArg (Option.map CanonicalRow.assertion) (AList.lookup_erase_ne apart)

theorem Wf.replacement (wf : canonical.Wf) {index : Int} {change : Assertion → Assertion}
    {intents : List Intent} (asked : replacement canonical index change = .ok intents)
    (sameId : ∀ item, (change item).id = item.id)
    (sameEvidence : ∀ item, (change item).evidenceIds = item.evidenceIds) :
    ∀ intent ∈ intents, intent.Applicable ∧ Faithful canonical intent := by
  intro intent member
  unfold Maintenance.replacement Canonical.getAssertion at asked
  cases held : canonical.assertions.lookup (assertionId index) with
  | none =>
      rw [held] at asked
      cases asked
  | some item =>
      rw [held] at asked
      obtain rfl := Except.ok.inj asked
      obtain rfl := List.mem_singleton.mp member
      refine ⟨?_, Or.inr ?_⟩
      · show (change item).evidenceIds.Nodup
        rw [sameEvidence]
        exact wf.cited _ _ held
      · show some (CanonicalRow.assertion item) =
          (canonical.assertions.lookup (change item).id).map CanonicalRow.assertion
        rw [sameId, wf.assertions _ _ held, held]
        rfl

/-- Every intent of a request can be applied and was admitted against the stored row. -/
theorem Wf.intents (wf : canonical.Wf) {request : Request} {intents : List Intent}
    (asked : request.intents canonical = .ok intents) :
    ∀ intent ∈ intents, intent.Applicable ∧ Faithful canonical intent := by
  cases request with
  | operation kind index newValue =>
      cases kind with
      | replaceEvidencePayload =>
          intro intent member
          simp only [Request.intents, enqueueOperation] at asked
          cases held : canonical.evidence.lookup (evidenceId index) with
          | none =>
              rw [held] at asked
              cases asked
          | some row =>
              rw [held] at asked
              obtain rfl := Except.ok.inj asked
              obtain rfl := List.mem_singleton.mp member
              refine ⟨trivial, Or.inr ?_⟩
              show some (CanonicalRow.evidence row) =
                (canonical.evidence.lookup row.id).map CanonicalRow.evidence
              rw [wf.evidence _ _ held, held]
              rfl
      | replaceAssertionObject => exact wf.replacement asked (fun _ => rfl) (fun _ => rfl)
      | deleteAssertion =>
          intro intent member
          simp only [Request.intents, enqueueOperation, Canonical.getAssertion] at asked
          cases held : canonical.assertions.lookup (assertionId index) with
          | none =>
              rw [held] at asked
              cases asked
          | some item =>
              rw [held] at asked
              obtain rfl := Except.ok.inj asked
              obtain rfl := List.mem_singleton.mp member
              refine ⟨trivial, Or.inr ?_⟩
              show some (CanonicalRow.assertion item) =
                (canonical.assertions.lookup (assertionId index)).map CanonicalRow.assertion
              rw [held]
              rfl
  | topologyMove index targetIndex => exact wf.replacement asked (fun _ => rfl) (fun _ => rfl)
  | predicateChange index newPredicate newValue => exact wf.replacement asked (fun _ => rfl) (fun _ => rfl)
  | predicateAddition index newPredicate value =>
      intro intent member
      simp only [Request.intents, enqueuePredicateAddition, Canonical.getAssertion] at asked
      cases held : canonical.assertions.lookup (assertionId index) with
      | none =>
          rw [held] at asked
          cases asked
      | some base =>
          rw [held] at asked
          obtain rfl := Except.ok.inj asked
          rcases List.mem_cons.mp member with rfl | member
          · exact ⟨trivial, Or.inl rfl⟩
          · obtain rfl := List.mem_singleton.mp member
            exact ⟨List.nodup_singleton _, Or.inl rfl⟩

end Canonical

theorem Faithful.apply {canonical canonical' : Canonical} {intent later : Intent}
    (faithful : Faithful canonical later) (ran : canonical.apply intent = .ok canonical')
    (other : later.writeKey ≠ intent.writeKey) : Faithful canonical' later := by
  rw [Faithful, Canonical.row_apply ran other]
  exact faithful

/-- `canonical` is `initial` with the intents applied in order, each to rows that `fits` it. -/
inductive Replayed (fits : Canonical → Intent → Prop) (initial : Canonical) :
    List Intent → Canonical → Prop where
  | nil : Replayed fits initial [] initial
  | snoc {intents : List Intent} {canonical canonical' : Canonical} {intent : Intent}
      (before : Replayed fits initial intents canonical) (fit : fits canonical intent)
      (ran : canonical.apply intent = .ok canonical') :
      Replayed fits initial (intents ++ [intent]) canonical'

theorem Replayed.mono {fits fits' : Canonical → Intent → Prop} {initial canonical : Canonical}
    {intents : List Intent} (replayed : Replayed fits initial intents canonical)
    (wider : ∀ intent ∈ intents, ∀ canonical, fits canonical intent → fits' canonical intent) :
    Replayed fits' initial intents canonical := by
  induction replayed with
  | nil => exact .nil
  | snoc before fit ran ih =>
      apply Replayed.snoc (ih fun intent member => wider intent (List.mem_append_left _ member)) _ ran
      exact wider _ (List.mem_append_right _ (List.mem_singleton_self _)) _ fit

/-! ### The split of the queue -/

def QueueRow.writeKey (row : QueueRow) : WriteKey := row.intent.writeKey

/-- The journal entry of a row that has just been promoted. -/
def QueueRow.promoted (row : QueueRow) : Journal := ⟨row.seq, row.intent, .prepared, [], none⟩

/-- The rows whose intents have been applied to the canonical rows. -/
def carried (finished : List QueueRow) (active : Option (QueueRow × Journal)) : List QueueRow :=
  finished.filter (fun row => decide (row.status = .done)) ++
    ((active.filter fun pair => decide (pair.2.phase ≠ .prepared)).map Prod.fst).toList

structure Ledger (initial : Canonical) (db : Db) (finished : List QueueRow)
    (active : Option (QueueRow × Journal)) (waiting : List QueueRow) : Prop where
  queue : db.queue = finished ++ (active.map Prod.fst).toList ++ waiting
  seqs : db.queue.map QueueRow.seq = List.range' 1 db.queue.length
  journal : db.journal = active.map Prod.snd
  linked : ∀ row journal, active = some (row, journal) →
    row.status = .active ∧ journal.seq = row.seq ∧ journal.intent = row.intent
  finished_status : ∀ row ∈ finished, row.status = .done ∨ row.status = .conflict
  waiting_status : ∀ row ∈ waiting, row.status = .queued
  ended : db.ended = finished.map QueueRow.seq
  applied : db.applied = (carried finished active).map QueueRow.seq
  replayed : Replayed Faithful initial ((carried finished active).map QueueRow.intent) db.canonical
  bases : (carried finished active).Pairwise fun row other =>
    row.writeKey = other.writeKey → row.baseVersion ≠ other.baseVersion
  below : ∀ row ∈ carried finished active, row.baseVersion < db.version row.writeKey
  wf : db.canonical.Wf
  applicable : ∀ row ∈ db.queue, row.intent.Applicable
  prepared : ∀ row journal, active = some (row, journal) → journal.phase = .prepared →
    row.baseVersion = db.version row.writeKey ∧ Faithful db.canonical row.intent
  waits : ∀ row ∈ waiting, row.baseVersion ≤ db.version row.writeKey ∧
    (row.baseVersion = db.version row.writeKey → Faithful db.canonical row.intent)

section Changes

variable {initial : Canonical} {db db' : Db} {finished waiting front back : List QueueRow}
  {active : Option (QueueRow × Journal)} {row : QueueRow} {journal journal' : Journal}

theorem map_at (changes : QueueRow → Bool) (change : QueueRow → QueueRow)
    (here : changes row = true) (elsewhere : ∀ other ∈ front ++ back, changes other = false) :
    (front ++ row :: back).map (fun row => if changes row then change row else row) =
      front ++ change row :: back := by
  have kept : ∀ rows : List QueueRow, (∀ other ∈ rows, changes other = false) →
      rows.map (fun row => if changes row then change row else row) = rows := by
    intro rows unchanged
    calc rows.map (fun row => if changes row then change row else row)
        = rows.map id := by
          apply List.map_congr_left
          intro other member
          simp only [unchanged other member, Bool.false_eq_true, if_false, id]
      _ = rows := List.map_id rows
  rw [List.map_append, List.map_cons, if_pos here,
    kept front fun other member => elsewhere other (List.mem_append_left _ member),
    kept back fun other member => elsewhere other (List.mem_append_right _ member)]

theorem filter_at (changes : QueueRow → Bool) (here : changes row = true)
    (elsewhere : ∀ other ∈ front ++ back, changes other = false) :
    (front ++ row :: back).filter changes = [row] := by
  have none : ∀ rows : List QueueRow, (∀ other ∈ rows, changes other = false) →
      rows.filter changes = [] := by
    intro rows unchanged
    apply List.filter_eq_nil_iff.mpr
    intro other member
    rw [unchanged other member]
    exact Bool.false_ne_true
  rw [List.filter_append, List.filter_cons_of_pos here,
    none front fun other member => elsewhere other (List.mem_append_left _ member),
    none back fun other member => elsewhere other (List.mem_append_right _ member),
    List.nil_append]

theorem seq_ne (seqs : (front ++ row :: back).map QueueRow.seq =
      List.range' 1 (front ++ row :: back).length) :
    ∀ other ∈ front ++ back, other.seq ≠ row.seq := by
  have nodup : ((front ++ row :: back).map QueueRow.seq).Nodup := seqs ▸ List.nodup_range'
  rw [List.map_append, List.map_cons, List.nodup_middle, ← List.map_append,
    List.nodup_cons] at nodup
  intro other member same
  exact nodup.1 (same ▸ List.mem_map_of_mem member)

theorem seqs_append (seqs : db.queue.map QueueRow.seq = List.range' 1 db.queue.length)
    (next : row.seq = db.queue.length + 1) :
    (db.queue ++ [row]).map QueueRow.seq = List.range' 1 (db.queue ++ [row]).length := by
  rw [List.map_append, List.map_singleton, seqs, next, List.length_append, List.length_singleton,
    List.range'_concat, Nat.one_mul, Nat.add_comm 1]

namespace Ledger

theorem enqueueTx (ledger : Ledger initial db finished active waiting) (writer : Option String)
    {intent : Intent} (applicable : intent.Applicable) (faithful : Faithful db.canonical intent) :
    ∃ waiting', Ledger initial (db.enqueueTx writer intent) finished active waiting' := by
  refine ⟨waiting ++ [db.queuedRow writer intent], ?_, seqs_append ledger.seqs rfl, ledger.journal, ledger.linked,
    ledger.finished_status, ?_, ledger.ended, ledger.applied, ledger.replayed, ledger.bases,
    ledger.below, ledger.wf, ?_, ledger.prepared, ?_⟩
  · rw [Db.enqueueTx, ledger.queue, List.append_assoc _ waiting]
  · intro row member
    rcases List.mem_append.mp member with member | member
    · exact ledger.waiting_status row member
    · rw [List.mem_singleton.mp member]
      rfl
  · intro row member
    rcases List.mem_append.mp member with member | member
    · exact ledger.applicable row member
    · rw [List.mem_singleton.mp member]
      exact applicable
  · intro row member
    rcases List.mem_append.mp member with member | member
    · exact ledger.waits row member
    · rw [List.mem_singleton.mp member]
      exact ⟨Nat.le_refl _, fun _ => faithful⟩

theorem enqueue (ledger : Ledger initial db finished active waiting) {request : Request}
    {writer : Option String} (ran : db.enqueue request writer = .ok db') :
    ∃ waiting', Ledger initial db' finished active waiting' := by
  have every : ∀ (intents : List Intent) (db : Db) (waiting : List QueueRow),
      Ledger initial db finished active waiting →
      (∀ intent ∈ intents, intent.Applicable ∧ Faithful db.canonical intent) →
      ∃ waiting', Ledger initial
        (intents.foldl (fun db intent => db.enqueueTx writer intent) db) finished active
        waiting' := by
    intro intents
    induction intents with
    | nil => exact fun db waiting ledger _ => ⟨waiting, ledger⟩
    | cons intent intents ih =>
        intro db waiting ledger sound
        obtain ⟨applicable, faithful⟩ := sound intent List.mem_cons_self
        obtain ⟨waiting', ledger'⟩ := ledger.enqueueTx writer applicable faithful
        exact ih _ waiting' ledger' fun later member => sound later (List.mem_cons_of_mem _ member)
  unfold Db.enqueue at ran
  cases asked : request.intents db.canonical with
  | error error =>
      rw [asked] at ran
      cases ran
  | ok intents =>
      rw [asked] at ran
      obtain rfl := Except.ok.inj ran
      exact every intents db waiting ledger (ledger.wf.intents asked)

theorem version_insert (db : Db) (key other : WriteKey) (value : Nat) :
    (((db.versions.insert key value).lookup other).getD 0) =
      if other = key then value else db.version other := by
  by_cases same : other = key
  · rw [if_pos same, same, AList.lookup_insert, Option.getD_some]
  · rw [if_neg same, AList.lookup_insert_ne same, Db.version]

theorem find_waiting (ledger : Ledger initial db finished none waiting) :
    (db.queue.find? fun row => decide (row.status = .queued)) = waiting.head? := by
  have none_ended : finished.find? (fun row => decide (row.status = .queued)) = none := by
    apply List.find?_eq_none.mpr
    intro row member queued
    rcases ledger.finished_status row member with status | status <;>
      simp [status] at queued
  rw [ledger.queue, Option.map_none, Option.toList_none, List.append_nil, List.find?_append,
    none_ended, Option.none_or]
  cases waiting with
  | nil => rfl
  | cons row rest =>
      have queued := ledger.waiting_status row List.mem_cons_self
      simp only [List.find?_cons, queued, decide_true, List.head?_cons]

theorem queue_idle (ledger : Ledger initial db finished none waiting) :
    db.queue = finished ++ waiting := by
  rw [ledger.queue, Option.map_none, Option.toList_none, List.append_nil]

theorem map_seq (ledger : Ledger initial db finished active waiting)
    (split : db.queue = front ++ row :: back) (change : QueueRow → QueueRow) :
    (db.queue.map fun other => if other.seq = row.seq then change other else other) =
      front ++ change row :: back := by
  have apart := seq_ne (split ▸ ledger.seqs)
  have changed := map_at (fun other => decide (other.seq = row.seq)) change
    (decide_eq_true rfl) fun other member => decide_eq_false (apart other member)
  simp only [decide_eq_true_eq] at changed
  rw [split, changed]

theorem seqs_update {queue : List QueueRow} (ledger : Ledger initial db finished active waiting)
    (split : db.queue = front ++ row :: back) {row' : QueueRow}
    (changed : queue = front ++ row' :: back) (same : row'.seq = row.seq) :
    queue.map QueueRow.seq = List.range' 1 queue.length := by
  have seqs := ledger.seqs
  rw [split] at seqs
  rw [changed]
  simp only [List.map_append, List.map_cons, List.length_append, List.length_cons, same] at seqs ⊢
  exact seqs

theorem applicable_update {queue : List QueueRow}
    (ledger : Ledger initial db finished active waiting)
    (split : db.queue = front ++ row :: back) {row' : QueueRow}
    (changed : queue = front ++ row' :: back) (same : row'.intent = row.intent) : ∀ row ∈ queue, row.intent.Applicable := by
  have applicable := ledger.applicable
  rw [split] at applicable
  intro other member
  rw [changed, List.mem_append, List.mem_cons] at member
  rcases member with member | rfl | member
  · exact applicable other (List.mem_append_left _ member)
  · rw [same]
    exact applicable row (List.mem_append_right _ List.mem_cons_self)
  · exact applicable other (List.mem_append_right _ (List.mem_cons_of_mem _ member))

theorem refuse (ledger : Ledger initial db finished none (row :: waiting)) :
    ∃ row', Ledger initial (db.refuse row) (finished ++ [row']) none waiting := by
  have split := ledger.queue_idle
  have changed := ledger.map_seq split fun other =>
    { other with
      status := .conflict
      conflictReason :=
        some (Db.conflictReason row.baseVersion (db.version row.intent.writeKey)) }
  refine ⟨{ row with
    status := .conflict
    conflictReason :=
      some (Db.conflictReason row.baseVersion (db.version row.intent.writeKey)) }, ?_⟩
  have same : ∀ row' : QueueRow, row'.status = .conflict →
      carried (finished ++ [row']) none = carried finished none := by
    intro row' status
    simp [carried, status]
  constructor
  case queue =>
    rw [Option.map_none, Option.toList_none, List.append_nil, List.append_assoc]
    exact changed
  case seqs => exact ledger.seqs_update split changed rfl
  case journal => exact ledger.journal
  case linked => exact fun _ _ held => nomatch held
  case finished_status =>
    intro other member
    rcases List.mem_append.mp member with member | member
    · exact ledger.finished_status other member
    · rw [List.mem_singleton.mp member]
      exact Or.inr rfl
  case waiting_status =>
    exact fun other member => ledger.waiting_status other (List.mem_cons_of_mem _ member)
  case ended => rw [List.map_append, ← ledger.ended]; rfl
  case applied => rw [same _ rfl]; exact ledger.applied
  case replayed => rw [same _ rfl]; exact ledger.replayed
  case bases => rw [same _ rfl]; exact ledger.bases
  case below => rw [same _ rfl]; exact ledger.below
  case wf => exact ledger.wf
  case applicable => exact ledger.applicable_update split changed rfl
  case prepared => exact fun _ _ held => nomatch held
  case waits => exact fun other member => ledger.waits other (List.mem_cons_of_mem _ member)

theorem activate (ledger : Ledger initial db finished none (row :: waiting)) (methods : Methods)
    (current : db.version row.writeKey = row.baseVersion) :
    Ledger initial (db.activate methods row) finished
      (some ({ row with
        status := .active
        readKeys := methods.promotedReadKeys db.canonical row }, row.promoted)) waiting := by
  have split := ledger.queue_idle
  have changed := ledger.map_seq split fun other =>
    { other with
      status := .active
      readKeys := methods.promotedReadKeys db.canonical row }
  have same : ∀ row' : QueueRow,
      carried finished (some (row', row.promoted)) = carried finished none := by
    intro row'
    simp [carried, QueueRow.promoted]
  constructor
  case queue =>
    rw [Option.map_some, Option.toList_some, List.append_assoc]
    exact changed
  case seqs => exact ledger.seqs_update split changed rfl
  case journal => rfl
  case linked =>
    intro _ _ held
    cases held
    exact ⟨rfl, rfl, rfl⟩
  case finished_status => exact ledger.finished_status
  case waiting_status =>
    exact fun other member => ledger.waiting_status other (List.mem_cons_of_mem _ member)
  case ended => exact ledger.ended
  case applied => rw [same]; exact ledger.applied
  case replayed => rw [same]; exact ledger.replayed
  case bases => rw [same]; exact ledger.bases
  case below => rw [same]; exact ledger.below
  case wf => exact ledger.wf
  case applicable => exact ledger.applicable_update split changed rfl
  case prepared =>
    intro _ _ held _
    cases held
    exact ⟨current.symm, (ledger.waits row List.mem_cons_self).2 current.symm⟩
  case waits => exact fun other member => ledger.waits other (List.mem_cons_of_mem _ member)

theorem queue_active (ledger : Ledger initial db finished (some (row, journal)) waiting) :
    db.queue = finished ++ row :: waiting := by
  rw [ledger.queue, Option.map_some, Option.toList_some, List.append_assoc, List.singleton_append]

theorem carried_prepared (prepared : journal.phase = .prepared) :
    carried finished (some (row, journal)) = carried finished none := by
  simp [carried, prepared]

theorem carried_applied (applied : journal.phase ≠ .prepared) :
    carried finished (some (row, journal)) = carried finished none ++ [row] := by
  simp [carried, applied]

/-- Applying a promoted intent: it was admitted against the row it overwrites, so the row carries
the next version. -/
theorem applyCanonicalTx (ledger : Ledger initial db finished (some (row, journal)) waiting)
    (phase : journal.phase = .prepared) (storable : journal.intent.Storable) (methods : Methods) :
    ∃ canonical, db.canonical.apply journal.intent = .ok canonical ∧
      db.applyCanonicalTx methods journal = .ok (db.withCanonical methods journal canonical) ∧
      Ledger initial ((db.withCanonical methods journal canonical).withPhase journal
          .canonicalApplied) finished
        (some (row, { journal with phase := .canonicalApplied })) waiting := by
  have split := ledger.queue_active
  obtain ⟨status, seq, intent⟩ := ledger.linked row journal rfl
  obtain ⟨current, faithful⟩ := ledger.prepared row journal rfl phase
  have member : row ∈ db.queue := split ▸ List.mem_append_right _ List.mem_cons_self
  obtain ⟨canonical, ran⟩ := db.canonical.apply_ok (intent ▸ ledger.applicable row member) storable
  have applied : Db.applyCanonicalTx methods db journal =
      .ok (db.withCanonical methods journal canonical) := by
    have present : (db.queue.any fun row =>
        decide (row.seq = journal.seq ∧ row.status = .active)) = true :=
      List.any_eq_true.mpr ⟨row, member, decide_eq_true ⟨seq.symm, status⟩⟩
    rw [Db.applyCanonicalTx, if_pos present, ran]
    rfl
  refine ⟨canonical, ran, applied, ?_⟩
  have ran' : db.canonical.apply row.intent = .ok canonical := intent ▸ ran
  have before : carried finished (some (row, journal)) = carried finished none :=
    carried_prepared phase
  have after : carried finished (some (row, { journal with phase := .canonicalApplied })) =
      carried finished none ++ [row] := carried_applied (fun same => nomatch same)
  have version : ∀ key, (db.withCanonical methods journal canonical).version key =
      if key = row.writeKey then db.version row.writeKey + 1 else db.version key := by
    intro key
    rw [Db.version, Db.withCanonical, intent]
    exact version_insert db row.writeKey key _
  constructor
  case queue => exact ledger.queue
  case seqs => exact ledger.seqs
  case journal => rfl
  case linked =>
    intro _ _ held
    cases held
    exact ⟨status, seq, intent⟩
  case finished_status => exact ledger.finished_status
  case waiting_status => exact ledger.waiting_status
  case ended => exact ledger.ended
  case applied =>
    have earlier := ledger.applied
    rw [before] at earlier
    rw [after, List.map_append, ← earlier, List.map_singleton, ← seq]
    rfl
  case replayed =>
    have earlier := ledger.replayed
    rw [before] at earlier
    rw [after, List.map_append]
    exact earlier.snoc faithful ran'
  case bases =>
    have earlier := ledger.bases
    have below := ledger.below
    rw [before] at earlier below
    rw [after]
    refine List.pairwise_append.mpr ⟨earlier, List.pairwise_singleton _ _, ?_⟩
    intro other member last sameRow sameKey sameBase
    rw [List.mem_singleton.mp sameRow] at sameKey sameBase
    have low := below other member
    rw [sameKey, sameBase, current] at low
    exact Nat.lt_irrefl _ low
  case below =>
    have below := ledger.below
    rw [before] at below
    intro other member
    rw [after, List.mem_append] at member
    show other.baseVersion < (db.withCanonical methods journal canonical).version other.writeKey
    rw [version]
    rcases member with member | member
    · have low := below other member
      split_ifs with same
      · rw [same] at low
        omega
      · exact low
    · rw [List.mem_singleton.mp member, if_pos rfl, current]
      exact Nat.lt_succ_self _
  case wf => exact ledger.wf.apply ran
  case applicable => exact ledger.applicable
  case prepared =>
    intro _ _ held prepared
    cases held
    cases prepared
  case waits =>
    intro other member
    obtain ⟨low, held⟩ := ledger.waits other member
    show other.baseVersion ≤ (db.withCanonical methods journal canonical).version other.writeKey ∧
      (other.baseVersion = (db.withCanonical methods journal canonical).version other.writeKey →
        Faithful canonical other.intent)
    rw [version]
    split_ifs with same
    · rw [same] at low
      exact ⟨Nat.le_succ_of_le low, fun next => absurd low (by omega)⟩
    · exact ⟨low, fun now => Faithful.apply (held now) ran' same⟩

/-- Once the intent is applied, the phases that follow touch no row of the ledger. -/
theorem laterPhase (ledger : Ledger initial db finished (some (row, journal)) waiting)
    (phase : journal.phase ≠ .prepared) (phase' : journal'.phase ≠ .prepared)
    (sameSeq : journal'.seq = journal.seq) (sameIntent : journal'.intent = journal.intent)
    (derived : Derived) :
    Ledger initial { db with derived, journal := some journal' } finished (some (row, journal'))
      waiting := by
  have same : carried finished (some (row, journal')) = carried finished (some (row, journal)) := by
    rw [carried_applied phase, carried_applied phase']
  constructor
  case queue => exact ledger.queue
  case seqs => exact ledger.seqs
  case journal => rfl
  case linked =>
    intro _ _ held
    cases held
    obtain ⟨status, seq, intent⟩ := ledger.linked row journal rfl
    exact ⟨status, sameSeq.trans seq, sameIntent.trans intent⟩
  case finished_status => exact ledger.finished_status
  case waiting_status => exact ledger.waiting_status
  case ended => exact ledger.ended
  case applied => rw [same]; exact ledger.applied
  case replayed => rw [same]; exact ledger.replayed
  case bases => rw [same]; exact ledger.bases
  case below => rw [same]; exact ledger.below
  case wf => exact ledger.wf
  case applicable => exact ledger.applicable
  case prepared =>
    intro _ _ held prepared
    cases held
    exact absurd prepared phase'
  case waits => exact ledger.waits

theorem deleteJournal (ledger : Ledger initial db finished (some (row, journal)) waiting)
    (phase : journal.phase ≠ .prepared) :
    Ledger initial (db.deleteJournal journal) (finished ++ [{ row with status := .done }]) none
      waiting := by
  have split := ledger.queue_active
  obtain ⟨status, seq, intent⟩ := ledger.linked row journal rfl
  have apart := seq_ne (split ▸ ledger.seqs)
  have here : decide (row.seq = journal.seq ∧ row.status = .active) = true :=
    decide_eq_true ⟨seq.symm, status⟩
  have elsewhere : ∀ other ∈ finished ++ waiting,
      decide (other.seq = journal.seq ∧ other.status = .active) = false := by
    intro other member
    exact decide_eq_false fun both => apart other member (both.1.trans seq)
  have changed := map_at (fun other => decide (other.seq = journal.seq ∧ other.status = .active))
    (fun other => { other with status := .done }) here elsewhere
  have ended := filter_at (fun other => decide (other.seq = journal.seq ∧ other.status = .active))
    here elsewhere
  rw [← split] at changed ended
  have before : carried finished (some (row, journal)) =
      finished.filter (fun row => decide (row.status = .done)) ++ [row] := by
    rw [carried_applied phase]
    simp [carried]
  have after : carried (finished ++ [{ row with status := .done }]) none =
      finished.filter (fun row => decide (row.status = .done)) ++
        [{ row with status := .done }] := by
    simp [carried]
  constructor
  case queue =>
    rw [Option.map_none, Option.toList_none, List.append_nil, List.append_assoc]
    exact changed
  case seqs => exact ledger.seqs_update split changed rfl
  case journal => rfl
  case linked => exact fun _ _ held => nomatch held
  case finished_status =>
    intro other member
    rcases List.mem_append.mp member with member | member
    · exact ledger.finished_status other member
    · rw [List.mem_singleton.mp member]
      exact Or.inl rfl
  case waiting_status => exact ledger.waiting_status
  case ended =>
    rw [Db.deleteJournal, ended, List.map_append, ← ledger.ended]
    rfl
  case applied =>
    have earlier := ledger.applied
    rw [before, List.map_append] at earlier
    rw [after, List.map_append]
    exact earlier
  case replayed =>
    have earlier := ledger.replayed
    rw [before, List.map_append] at earlier
    rw [after, List.map_append]
    exact earlier
  case bases =>
    have earlier := ledger.bases
    rw [before, List.pairwise_append] at earlier
    rw [after, List.pairwise_append]
    refine ⟨earlier.1, List.pairwise_singleton _ _, ?_⟩
    intro other member last sameRow
    rw [List.mem_singleton.mp sameRow]
    exact earlier.2.2 other member row (List.mem_singleton_self _)
  case below =>
    have below := ledger.below
    rw [before] at below
    intro other member
    rw [after, List.mem_append] at member
    rcases member with member | member
    · exact below other (List.mem_append_left _ member)
    · rw [List.mem_singleton.mp member]
      exact below row (List.mem_append_right _ (List.mem_singleton_self _))
  case wf => exact ledger.wf
  case applicable => exact ledger.applicable_update split changed rfl
  case prepared => exact fun _ _ held => nomatch held
  case waits => exact ledger.waits

end Ledger
end Changes

end DurableContext.Maintenance
