import DurableContext.Maintenance.Drain

/-! The store of queued intents as it was first built: what it bootstraps, and what any number of
processes can do to it. -/

namespace DurableContext.Maintenance

/-! ### Bootstrap -/

def bootstrapEvidence (i : Nat) : EvidenceRecord where
  id := evidenceId i
  payload := aliasOf "Atlas" i ++ " finance migration deadline is day 42."
  sourceId := "source"
  recordedSeq := i + 1
  sourceEventTime := some 42
  scope := "default"
  lifecycle := "active"

def bootstrapAssertion (i : Nat) : Assertion where
  id := assertionId i
  subjectId := subjectId i
  predicate := "deadline"
  objectValue := 42
  recordedSeq := i + 1
  validFrom := some 42
  validTo := none
  modality := "asserted"
  polarity := "positive"
  evidenceIds := [evidenceId i]
  extractionVersion := "oracle-v1"

def bootstrapPayloads (i : Nat) : List (String × String) :=
  [(evidenceId i, (bootstrapEvidence i).payload)]

def bootstrapCanonical (canonical : Canonical) (i : Nat) : Canonical where
  evidence := canonical.evidence.insert (evidenceId i) (bootstrapEvidence i)
  assertions := canonical.assertions.insert (assertionId i) (bootstrapAssertion i)

def bootstrapNodes (i : Nat) : List (NodeId × DerivedRow) :=
  let subject := subjectId i
  let key : CellKey := (subject, "deadline")
  let support := supportValue (bootstrapAssertion i) (bootstrapPayloads i)
  [(.profile subject,
      ⟨.profile, subject, none, .fresh, .profile subject ["deadline"] (bootstrapPayloads i)⟩),
    (.state key,
      ⟨.state, subject, some "deadline", .fresh, stateValue (bootstrapAssertion i)⟩),
    (.support key, ⟨.support, subject, some "deadline", .fresh, .support support⟩),
    (.context key, ⟨.context, subject, some "deadline", .fresh, .context key support⟩)]

def bootstrapEdges (i : Nat) : List (NodeId × NodeId) :=
  let subject := subjectId i
  let key : CellKey := (subject, "deadline")
  [(.assertion (assertionId i), .profile subject),
    (.evidence (evidenceId i), .profile subject),
    (.assertion (assertionId i), .state key),
    (.state key, .support key),
    (.assertion (assertionId i), .support key),
    (.evidence (evidenceId i), .support key),
    (.support key, .context key)]

def bootstrapDerived (derived : Derived) (i : Nat) : Derived :=
  { derived with
    nodes := (bootstrapNodes i).foldl (fun nodes node => nodes.insert node.1 node.2) derived.nodes
    edges := (bootstrapEdges i).foldl (fun edges edge => edges.insert edge ()) derived.edges }

namespace SQLiteRecovery

/-- The tables of `entityCount` subjects. -/
def entities (entityCount : Nat) : Db where
  canonical := (List.range entityCount).foldl bootstrapCanonical .empty
  derived := (List.range entityCount).foldl bootstrapDerived .empty
  versions := ∅
  queue := []
  journal := none
  applied := []
  ended := []

/-- `bootstrap` of a new database. The last subject's rows have the largest number. -/
def bootstrap (entityCount : Nat) : Except Raised Db :=
  if FitsInteger entityCount then .ok (entities entityCount) else .error integerTooLarge

/-- The tables after `bootstrap`, which a raise leaves empty. -/
def bootstrapped (entityCount : Nat) : Db :=
  match bootstrap entityCount with
  | .ok db => db
  | .error _ => entities 0

theorem bootstrapped_eq (entityCount : Nat) :
    ∃ count : Nat, FitsInteger count ∧ bootstrapped entityCount = entities count := by
  unfold bootstrapped bootstrap
  split_ifs with fits
  · exact ⟨entityCount, fits, rfl⟩
  · exact ⟨0, by decide, rfl⟩

theorem entities_wf (entityCount : Nat) : (entities entityCount).canonical.Wf := by
  apply List.foldlRecOn (List.range entityCount) bootstrapCanonical Canonical.empty_wf
  intro canonical wf i _
  refine ⟨fun id row held => ?_, fun id row held => ?_, fun id row held => ?_⟩
  · by_cases same : id = evidenceId i
    · rw [same, bootstrapCanonical, AList.lookup_insert] at held
      rw [← Option.some.inj held, same]
      rfl
    · rw [bootstrapCanonical, AList.lookup_insert_ne same] at held
      exact wf.evidence id row held
  · by_cases same : id = assertionId i
    · rw [same, bootstrapCanonical, AList.lookup_insert] at held
      rw [← Option.some.inj held, same]
      rfl
    · rw [bootstrapCanonical, AList.lookup_insert_ne same] at held
      exact wf.assertions id row held
  · by_cases same : id = assertionId i
    · rw [same, bootstrapCanonical, AList.lookup_insert] at held
      rw [← Option.some.inj held]
      exact List.nodup_singleton _
    · rw [bootstrapCanonical, AList.lookup_insert_ne same] at held
      exact wf.cited id row held

end SQLiteRecovery

theorem Ledger.start {db : Db} (wf : db.canonical.Wf) (queue : db.queue = [])
    (journal : db.journal = none) (applied : db.applied = []) (ended : db.ended = []) :
    Ledger db.canonical db [] none [] := by
  constructor
  case queue => exact queue
  case seqs => rw [queue]; rfl
  case journal => exact journal
  case linked => exact fun _ _ held => nomatch held
  case finished_status => exact fun _ member => nomatch member
  case waiting_status => exact fun _ member => nomatch member
  case ended => exact ended
  case applied => exact applied
  case replayed => exact .nil
  case bases => exact .nil
  case below => exact fun _ member => nomatch member
  case wf => exact wf
  case applicable => rw [queue]; exact fun _ member => nomatch member
  case prepared => exact fun _ _ held => nomatch held
  case waits => exact fun _ member => nomatch member

/-! ### Rows whose integers fit their columns -/

structure Canonical.Storable (canonical : Canonical) : Prop where
  evidence : ∀ id row, canonical.evidence.lookup id = some row → row.Storable
  assertions : ∀ id row, canonical.assertions.lookup id = some row → row.Storable

namespace Canonical.Storable

variable {canonical canonical' : Canonical}

theorem insertEvidence (storable : canonical.Storable) {id : String} {item : EvidenceRecord}
    (fits : item.Storable) :
    Canonical.Storable { canonical with evidence := canonical.evidence.insert id item } where
  evidence other row held := by
    by_cases same : other = id
    · rw [same, AList.lookup_insert] at held
      exact Option.some.inj held ▸ fits
    · rw [AList.lookup_insert_ne same] at held
      exact storable.evidence other row held
  assertions := storable.assertions

theorem insertAssertion (storable : canonical.Storable) {id : String} {item : Assertion}
    (fits : item.Storable) :
    Canonical.Storable { canonical with assertions := canonical.assertions.insert id item } where
  evidence := storable.evidence
  assertions other row held := by
    by_cases same : other = id
    · rw [same, AList.lookup_insert] at held
      exact Option.some.inj held ▸ fits
    · rw [AList.lookup_insert_ne same] at held
      exact storable.assertions other row held

theorem apply (storable : canonical.Storable) {intent : Intent}
    (ran : canonical.apply intent = .ok canonical') : canonical'.Storable := by
  cases intent with
  | upsertEvidence item previous =>
      obtain ⟨fits, rfl⟩ := Canonical.apply_evidence ran
      exact storable.insertEvidence fits
  | upsertAssertion item previous =>
      obtain ⟨⟨fits, -⟩, rfl⟩ := Canonical.apply_upsert ran
      exact storable.insertAssertion fits
  | deleteAssertion id previous =>
      obtain rfl := Except.ok.inj ran
      constructor
      case evidence => exact storable.evidence
      intro other row held
      by_cases same : other = id
      · rw [same, AList.lookup_erase] at held
        cases held
      · rw [AList.lookup_erase_ne same] at held
        exact storable.assertions other row held

end Canonical.Storable

theorem SQLiteRecovery.entities_storable {entityCount : Nat} (fits : FitsInteger entityCount) :
    (entities entityCount).canonical.Storable := by
  apply List.foldlRecOn (List.range entityCount) bootstrapCanonical
  · constructor <;> intro id row held <;> cases held
  · intro canonical storable i member
    have number : FitsInteger ((i : Int) + 1) := by
      have below := List.mem_range.mp member
      have bound := fits.2
      constructor <;> omega
    have deadline : ∀ time ∈ some (42 : Int), FitsInteger time := by decide
    exact (storable.insertEvidence ⟨number, deadline⟩).insertAssertion
      ⟨number, deadline, fun _ none => nomatch none⟩

structure Db.Storable (db : Db) : Prop where
  canonical : db.canonical.Storable
  admitted : ∀ row ∈ db.admitted, row.2.1.Storable

/-! ### Rows that a repair can read -/

def NodeId.kind? : NodeId → Option Kind
  | evidence _ => none
  | assertion _ => none
  | predicatePresence _ => none
  | profile _ => some .profile
  | state _ => some .state
  | support _ => some .support
  | context _ => some .context

def DerivedRow.Readable (row : DerivedRow) : Prop :=
  row.kind = .support → row.status = .fresh → ∃ value, row.value = .support value

/-- Every row has the kind its identifier says, and a fresh support row holds a support. -/
def Legible (derived : Derived) : Prop :=
  ∀ id row, derived.nodes.lookup id = some row → id.kind? = some row.kind ∧ row.Readable

namespace Legible

variable {derived : Derived} {id : NodeId}

theorem insert (legible : Legible derived) {derived' : Derived} {row : DerivedRow}
    (nodes : derived'.nodes = derived.nodes.insert id row) (kind : id.kind? = some row.kind)
    (readable : row.Readable) : Legible derived' := by
  intro other row' held
  rw [nodes] at held
  by_cases same : other = id
  · rw [same, AList.lookup_insert] at held
    obtain rfl := Option.some.inj held
    exact ⟨same ▸ kind, readable⟩
  · rw [AList.lookup_insert_ne same] at held
    exact legible other row' held

theorem setRow (legible : Legible derived) {change : DerivedRow → DerivedRow}
    (kind : ∀ row, (change row).kind = row.kind) (stale : ∀ row, (change row).status ≠ .fresh) :
    Legible (derived.setRow id change) := by
  unfold Derived.setRow
  cases held : derived.nodes.lookup id with
  | none => exact legible
  | some row =>
      apply legible.insert rfl
      · rw [kind]
        exact (legible id row held).1
      · exact fun _ fresh => absurd fresh (stale row)

theorem invalidate (legible : Legible derived) (affected : List NodeId) :
    Legible (derived.invalidate affected) := by
  induction affected generalizing derived with
  | nil => exact legible
  | cons id rest ih => exact ih (legible.setRow (fun _ => rfl) (by nofun))

theorem retireNode (legible : Legible derived) (id : NodeId) : Legible (derived.retireNode id) := by
  intro other row held
  by_cases same : other = id
  · rw [same, Derived.retireNode, AList.lookup_erase] at held
    cases held
  · rw [Derived.retireNode, AList.lookup_erase_ne same] at held
    exact legible other row held

theorem writeDerived (legible : Legible derived) {kind : Kind} (subject : String)
    (predicate : Option String) {value : DerivedValue} (dependencies : List NodeId)
    (sameKind : id.kind? = some kind) (readable : kind = .support → ∃ support, value = .support support) :
    Legible (derived.writeDerived id kind subject predicate value dependencies) :=
  legible.insert rfl sameKind fun support _ => readable support

theorem freshSupport (legible : Legible derived) {key : CellKey} {value : DerivedValue}
    (fresh : derived.freshValue (.support key) = some value) :
    ∃ support, value = .support support := by
  unfold Derived.freshValue at fresh
  cases held : derived.nodes.lookup (.support key) with
  | none =>
      rw [held] at fresh
      cases fresh
  | some row =>
      obtain ⟨kind, readable⟩ := legible _ row held
      rw [held] at fresh
      by_cases status : row.status = .fresh
      · simp only [if_pos status, Option.some.injEq] at fresh
        rw [← fresh]
        exact readable (Option.some.inj kind).symm status
      · simp only [if_neg status] at fresh
        cases fresh

theorem rebuildNode (legible : Legible derived) (canonical : Canonical) (id : NodeId) :
    ∃ derived', SQLiteRecovery.rebuildNode canonical id derived = .ok derived' ∧
      Legible derived' := by
  unfold SQLiteRecovery.rebuildNode
  cases held : derived.nodes.lookup id with
  | none => exact ⟨derived, rfl, legible⟩
  | some row =>
      obtain ⟨sameKind, -⟩ := legible id row held
      simp only
      cases kind : row.kind with
      | profile =>
          rw [kind] at sameKind
          refine ⟨_, rfl, ?_⟩
          unfold SQLiteRecovery.rebuildProfile
          cases SQLiteRecovery.profileMaterialization canonical row.subject with
          | none => exact legible.retireNode id
          | some made => exact legible.writeDerived _ _ _ sameKind (by nofun)
      | state =>
          rw [kind] at sameKind
          simp only
          cases canonical.latestAssertion
            (row.subject, (row.predicate.filter (· ≠ "")).getD "deadline") with
          | none => exact ⟨_, rfl, legible.retireNode id⟩
          | some item => exact ⟨_, rfl, legible.writeDerived _ _ _ sameKind (by nofun)⟩
      | support =>
          rw [kind] at sameKind
          simp only
          split
          · exact ⟨_, rfl, legible.writeDerived _ _ _ sameKind fun _ => ⟨_, rfl⟩⟩
          · exact ⟨_, rfl, legible.retireNode id⟩
      | context =>
          rw [kind] at sameKind
          simp only
          cases fresh : derived.freshValue
            (.support (row.subject, (row.predicate.filter (· ≠ "")).getD "deadline")) with
          | none => exact ⟨_, rfl, legible.retireNode id⟩
          | some value =>
              obtain ⟨support, rfl⟩ := legible.freshSupport fresh
              exact ⟨_, rfl, legible.writeDerived _ _ _ sameKind (by nofun)⟩

theorem rebuildNodes (canonical : Canonical) (rows : List (Kind × NodeId))
    (legible : Legible derived) :
    ∃ derived', rows.foldlM (fun derived row => SQLiteRecovery.rebuildNode canonical row.2 derived)
      derived = .ok derived' ∧ Legible derived' := by
  induction rows generalizing derived with
  | nil => exact ⟨derived, rfl, legible⟩
  | cons row rest ih =>
      obtain ⟨derived', ran, legible'⟩ := legible.rebuildNode canonical row.2
      obtain ⟨derived'', ran', legible''⟩ := ih legible'
      refine ⟨derived'', ?_, legible''⟩
      rw [List.foldlM_cons, ran]
      exact ran'

theorem entities (entityCount : Nat) : Legible (SQLiteRecovery.entities entityCount).derived := by
  apply List.foldlRecOn (List.range entityCount) bootstrapDerived
  · exact fun id row held => nomatch held
  · intro derived legible i _
    have added : ∀ (nodes : List (NodeId × DerivedRow)) (derived : Derived), Legible derived →
        (∀ node ∈ nodes, node.1.kind? = some node.2.kind ∧ node.2.Readable) →
        Legible { derived with
          nodes := nodes.foldl (fun nodes node => nodes.insert node.1 node.2) derived.nodes } := by
      intro nodes
      induction nodes with
      | nil => exact fun derived legible _ => legible
      | cons node rest ih =>
          intro derived legible sound
          obtain ⟨kind, readable⟩ := sound node List.mem_cons_self
          have legible' : Legible { derived with nodes := derived.nodes.insert node.1 node.2 } :=
            legible.insert rfl kind readable
          exact ih _ legible' fun later member => sound later (List.mem_cons_of_mem _ member)
    apply added (bootstrapNodes i) derived legible
    intro node member
    simp only [bootstrapNodes, List.mem_cons, List.not_mem_nil, or_false] at member
    rcases member with rfl | rfl | rfl | rfl
    · exact ⟨rfl, nofun⟩
    · exact ⟨rfl, nofun⟩
    · exact ⟨rfl, fun _ _ => ⟨_, rfl⟩⟩
    · exact ⟨rfl, nofun⟩

end Legible

/-! ### The store -/

namespace MultiIntent

def methods : Methods where
  syncKeys _ _ derived := derived
  invalidate _ intent derived :=
    let affected := inOrder (SQLiteRecovery.affected derived intent)
    (affected, derived.invalidate affected)
  rebuildNode := SQLiteRecovery.rebuildNode
  promotedReadKeys _ row := row.readKeys

/-- The transactions a caller can ask for. -/
def Offers : Transaction → Prop
  | .enqueue (.operation _ _ _) _ => True
  | .enqueue _ _ => False
  | _ => True

theorem legible_repair {db : Db} (legible : Legible db.derived) (journal : Journal) :
    ∃ derived, db.repairDerived methods journal = .ok derived ∧ Legible derived := by
  unfold Db.repairDerived
  apply Legible.rebuildNodes
  split_ifs
  · exact legible.invalidate _
  · exact legible

theorem working :
    Working methods (fun db => Legible db.derived ∧ db.Storable) fun _ => True where
  promote db holds :=
    ⟨(promoteNext_rows methods db).2 ▸ holds.1,
      (promoteNext_rows methods db).1 ▸ holds.2.canonical,
      (promoteNext_admitted methods db).symm ▸ holds.2.admitted⟩
  storable _ _ holds _ _ _ queued := by
    obtain ⟨row, member, same⟩ := queued
    exact same ▸ holds.2.admitted row.admission (List.mem_map_of_mem member)
  apply _ _ _ holds _ _ _ ran := ⟨holds.1, holds.2.canonical.apply ran, holds.2.admitted⟩
  invalidate _ _ holds _ _ := ⟨holds.1.invalidate _, holds.2.canonical, holds.2.admitted⟩
  repair _ journal holds _ _ := by
    obtain ⟨derived, ran, legible⟩ := legible_repair holds.1 journal
    exact ⟨derived, ran, legible, holds.2.canonical, holds.2.admitted⟩
  finish db journal holds _ _ :=
    ⟨holds.1, holds.2.canonical, (deleteJournal_admitted db journal).symm ▸ holds.2.admitted⟩

theorem legible_after {db : Db} (legible : Legible db.derived) (transaction : Transaction) :
    Legible (transaction.after methods db).derived := by
  unfold Transaction.after
  cases ran : transaction.run methods db with
  | error error => exact legible
  | ok db' =>
      cases transaction with
      | enqueue request writer =>
          obtain ⟨intents, rows, -, -, rfl⟩ := Db.enqueue_ok ran
          exact legible
      | promote =>
          obtain rfl := Except.ok.inj ran
          exact (promoteNext_rows methods db).2 ▸ legible
      | apply caller =>
          unfold Transaction.run at ran
          obtain ⟨journal, held, phase, ran⟩ := Db.inPhase_ok ran
          obtain ⟨canonical, -, rfl⟩ := Db.applyCanonicalTx_ok ran
          exact legible
      | invalidate caller =>
          unfold Transaction.run at ran
          obtain ⟨journal, held, phase, ran⟩ := Db.inPhase_ok ran
          obtain rfl := Except.ok.inj ran
          exact legible.invalidate _
      | partialRebuild =>
          unfold Transaction.run at ran
          obtain ⟨journal, held, phase, ran⟩ := Db.inPhase_ok ran
          obtain ⟨kind, id, rest, -, rfl⟩ := Db.partialRebuildTx_ok ran
          exact legible.setRow (fun _ => rfl) (by nofun)
      | repair caller =>
          unfold Transaction.run at ran
          obtain ⟨journal, held, phase, ran⟩ := Db.inPhase_ok ran
          obtain ⟨derived, repaired, rfl⟩ := Db.repairTx_ok ran
          obtain ⟨derived', repaired', legible'⟩ := legible_repair legible journal
          rw [repaired] at repaired'
          exact Except.ok.inj repaired' ▸ legible'
      | finalize =>
          unfold Transaction.run at ran
          obtain ⟨journal, held, phase, ran⟩ := Db.inPhase_ok ran
          obtain rfl := Except.ok.inj ran
          exact legible
      | finish =>
          simp only [Transaction.run] at ran
          cases held : db.journal with
          | none =>
              rw [held] at ran
              obtain rfl := Except.ok.inj ran
              exact legible
          | some journal =>
              rw [held] at ran
              obtain rfl := Except.ok.inj ran
              exact legible

theorem canonical_after {db : Db} (storable : db.canonical.Storable) (transaction : Transaction) :
    (transaction.after methods db).canonical.Storable := by
  unfold Transaction.after
  cases ran : transaction.run methods db with
  | error error => exact storable
  | ok db' =>
      by_cases applies : ∃ caller, transaction = .apply caller
      · obtain ⟨caller, rfl⟩ := applies
        unfold Transaction.run at ran
        obtain ⟨journal, held, phase, ran⟩ := Db.inPhase_ok ran
        obtain ⟨canonical, applied, rfl⟩ := Db.applyCanonicalTx_ok ran
        exact storable.apply applied
      · have other : ∀ caller, transaction ≠ .apply caller := fun caller same => applies ⟨caller, same⟩
        rw [run_canonical other ran]
        exact storable

/-- Every intent of these stores is admitted against a stored row, and writes the integers of that
row. -/
theorem previous_given {canonical : Canonical} {operation : Operation} {index newValue : Int}
    {intents : List Intent}
    (asked : enqueueOperation canonical operation index newValue = .ok intents) :
    ∀ intent ∈ intents, intent.previousRow ≠ none ∧ (canonical.Storable → intent.Storable) := by
  intro intent member
  cases operation with
  | replaceEvidencePayload =>
      simp only [enqueueOperation] at asked
      cases held : canonical.evidence.lookup (evidenceId index) with
      | none =>
          rw [held] at asked
          cases asked
      | some row =>
          rw [held] at asked
          obtain rfl := Except.ok.inj asked
          rw [List.mem_singleton.mp member]
          exact ⟨Option.some_ne_none _, fun storable => storable.evidence _ row held⟩
  | replaceAssertionObject =>
      simp only [enqueueOperation, replacement, Canonical.getAssertion] at asked
      cases held : canonical.assertions.lookup (assertionId index) with
      | none =>
          rw [held] at asked
          cases asked
      | some item =>
          rw [held] at asked
          obtain rfl := Except.ok.inj asked
          rw [List.mem_singleton.mp member]
          exact ⟨Option.some_ne_none _, fun storable => storable.assertions _ item held⟩
  | deleteAssertion =>
      simp only [enqueueOperation, Canonical.getAssertion] at asked
      cases held : canonical.assertions.lookup (assertionId index) with
      | none =>
          rw [held] at asked
          cases asked
      | some item =>
          rw [held] at asked
          obtain rfl := Except.ok.inj asked
          rw [List.mem_singleton.mp member]
          exact ⟨Option.some_ne_none _, fun _ => trivial⟩

instance : DecidablePred Offers := fun transaction =>
  match transaction with
  | .enqueue (.operation _ _ _) _ => isTrue trivial
  | .enqueue (.topologyMove _ _) _ => isFalse id
  | .enqueue (.predicateChange _ _ _) _ => isFalse id
  | .enqueue (.predicateAddition _ _ _) _ => isFalse id
  | .promote => isTrue trivial
  | .apply _ => isTrue trivial
  | .invalidate _ => isTrue trivial
  | .partialRebuild => isTrue trivial
  | .repair _ => isTrue trivial
  | .finalize => isTrue trivial
  | .finish => isTrue trivial

def PreviousGiven (db : Db) : Prop := ∀ row ∈ db.admitted, row.2.1.previousRow ≠ none

/-- What a transaction admits is an intent of an operation on the canonical rows it finds. -/
theorem admitted_after {db : Db} {transaction : Transaction}
    (offered : ∀ request writer, transaction = .enqueue request writer → Offers transaction) :
    ∀ row ∈ (transaction.after methods db).admitted, row ∈ db.admitted ∨
      (row.2.1.previousRow ≠ none ∧ (db.canonical.Storable → row.2.1.Storable)) := by
  unfold Transaction.after
  intro row member
  cases ran : transaction.run methods db with
  | error error =>
      rw [ran] at member
      exact Or.inl member
  | ok db' =>
      rw [ran] at member
      by_cases admission : ∃ request writer, transaction = .enqueue request writer
      · obtain ⟨request, writer, rfl⟩ := admission
        obtain ⟨intents, rows, asked, same, rfl⟩ := Db.enqueue_ok ran
        cases request with
        | operation operation index newValue =>
            rw [Db.admitted, List.map_append] at member
            rcases List.mem_append.mp member with member | member
            · exact Or.inl member
            · obtain ⟨queued, listed, rfl⟩ := List.mem_map.mp member
              exact Or.inr
                (previous_given asked queued.intent (same ▸ List.mem_map_of_mem listed))
        | topologyMove index targetIndex => exact (offered _ _ rfl).elim
        | predicateChange index newPredicate newValue => exact (offered _ _ rfl).elim
        | predicateAddition index newPredicate value => exact (offered _ _ rfl).elim
      · have other : ∀ request writer, transaction ≠ .enqueue request writer :=
          fun request writer same => admission ⟨request, writer, same⟩
        exact Or.inl (run_admitted other ran ▸ member)

theorem previousGiven_after {db : Db} (given : PreviousGiven db) {transaction : Transaction}
    (offered : ∀ request writer, transaction = .enqueue request writer → Offers transaction) :
    PreviousGiven (transaction.after methods db) := by
  intro row member
  rcases admitted_after offered row member with before | new
  · exact given row before
  · exact new.1

theorem storable_after {db : Db} (storable : db.Storable) {transaction : Transaction}
    (offered : ∀ request writer, transaction = .enqueue request writer → Offers transaction) :
    (transaction.after methods db).Storable where
  canonical := canonical_after storable.canonical transaction
  admitted row member := by
    rcases admitted_after offered row member with before | new
    · exact storable.admitted row before
    · exact new.2 storable.canonical

/-- The row an intent overwrites is the one it was admitted against. -/
def Exact (canonical : Canonical) (intent : Intent) : Prop :=
  intent.previousRow ≠ none ∧ intent.previousRow = canonical.row intent.writeKey

variable {P : Type} [DecidableEq P]

def started (P : Type) (entityCount : Nat) : System P :=
  ⟨SQLiteRecovery.bootstrapped entityCount, fun _ => .idle⟩

/-- In a run whose recoveries delete no intent that is still to be applied, an undisturbed
`drain_all` ends every intent once, carries out each that it marks done exactly once and in the order
of the queue, and overwrites only rows that are still as they were at admission. -/
theorem concurrent_run_drains (entityCount : Nat) {system : System P}
    (run : Run methods Offers (fun db transaction => transaction.Clear db) (started P entityCount)
      system) :
    ∃ db', Drains methods system.db db' ∧ db'.admitted = system.db.admitted ∧
      Settled Exact (SQLiteRecovery.bootstrapped entityCount).canonical db' := by
  obtain ⟨count, fits, same⟩ := SQLiteRecovery.bootstrapped_eq entityCount
  rw [started, same] at run
  rw [same]
  have kept : Kept (SQLiteRecovery.entities count).canonical system.db :=
    run.kept ⟨[], none, [], .start (SQLiteRecovery.entities_wf count) rfl rfl rfl rfl⟩
      fun _ _ clear => clear
  have legible : Legible system.db.derived :=
    run.invariant (fun db => Legible db.derived) (Legible.entities count)
      fun _ transaction legible _ _ => legible_after legible transaction
  have storable : system.db.Storable :=
    run.invariant Db.Storable ⟨SQLiteRecovery.entities_storable fits, fun _ member => nomatch member⟩
      fun _ _ storable offered _ => storable_after storable offered
  have given : PreviousGiven system.db :=
    run.invariant PreviousGiven (fun _ member => nomatch member)
      fun _ _ given offered _ => previousGiven_after given offered
  obtain ⟨finished, active, waiting, ledger⟩ := kept
  obtain ⟨db', finished', ⟨rounds, drained⟩, -, -, ledger'⟩ :=
    working.drained ledger ⟨legible, storable⟩ fun _ _ => trivial
  have admitted : db'.admitted = system.db.admitted := by
    have same := Reaches.admitted ⟨rounds, drained⟩
    exact same
  refine ⟨db', ⟨rounds, drained⟩, admitted, ledger'.settled.mono fun row member canonical fit => ?_⟩
  have some_previous : row.intent.previousRow ≠ none := by
    apply given row.admission
    rw [← admitted]
    exact List.mem_map_of_mem member
  exact ⟨some_previous, fit.resolve_left some_previous⟩

/-- Two processes over one subject: the second ends the intent that the first has repaired. -/
def sharedRecovery : List (Action (Fin 2)) :=
  [.call 0 (.enqueue (.operation .replaceAssertionObject 0 77) none),
    .call 0 (.enqueue (.operation .replaceEvidencePayload 0 77) none),
    .call 0 .promote, .recover 0, .resume 0, .resume 0, .resume 0, .resume 0,
    .recover 1, .resume 1, .resume 1]

theorem concurrent_run_drains_sample :
    ∃ db', Drains methods ((started (Fin 2) 1).perform methods sharedRecovery).db db' ∧
      db'.admitted = ((started (Fin 2) 1).perform methods sharedRecovery).db.admitted ∧
      Settled Exact (SQLiteRecovery.bootstrapped 1).canonical db' :=
  concurrent_run_drains 1 (Run.start.perform (by decide +kernel))

/-- Before it ends the second intent: the first process still has the phase of the first intent in
its variable. -/
def staleFinish : List (Action (Fin 2)) := sharedRecovery ++ [.call 1 .promote, .resume 0]

theorem stale_finish_loses_update :
    ¬ ∀ system : System (Fin 2),
      Run methods Offers (fun _ _ => True) (started (Fin 2) 1) system →
      ∃ db', Drains methods system.db db' ∧ db'.admitted = system.db.admitted ∧
        Settled Exact (SQLiteRecovery.bootstrapped 1).canonical db' := by
  intro claim
  have run : Run methods Offers (fun _ _ => True) (started (Fin 2) 1)
      ((started (Fin 2) 1).perform methods staleFinish) := Run.start.perform (by decide +kernel)
  obtain ⟨db', drained, -, settled⟩ := claim _ run
  have returned : Drains methods ((started (Fin 2) 1).perform methods staleFinish).db
      ((started (Fin 2) 1).perform methods staleFinish).db := ⟨2, rfl⟩
  obtain rfl := drained.unique returned
  have lost : ∃ row ∈ ((started (Fin 2) 1).perform methods staleFinish).db.queue,
      row.status = .done ∧
        ((started (Fin 2) 1).perform methods staleFinish).db.applied.count row.seq = 0 := by
    decide +kernel
  obtain ⟨row, member, done, never⟩ := lost
  have once := settled.applied row member
  rw [if_pos done, never] at once
  cases once

end MultiIntent

end DurableContext.Maintenance
