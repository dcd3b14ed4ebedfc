import DurableContext.Maintenance.Invalidation

/-! What the derived rows are in each phase of an intent, and that the transactions keep it so. -/

namespace DurableContext.Maintenance

/-! ### Heads and membership rows after an intent is applied -/

section Sync

variable {scheme : ProfileScheme} {canonical : Canonical} {derived : Derived} {intent : Intent}

theorem lookup_foldl_refreshHead (keys : List CellKey) (key : CellKey) :
    (keys.foldl (HeadIndexed.refreshHead canonical) derived).heads.lookup key =
      if key ∈ keys then (canonical.latestAssertion key).map Assertion.id
      else derived.heads.lookup key := by
  induction keys generalizing derived with
  | nil => rfl
  | cons first rest ih =>
      have one : (HeadIndexed.refreshHead canonical derived first).heads.lookup key =
          if key = first then (canonical.latestAssertion key).map Assertion.id
          else derived.heads.lookup key := by
        by_cases same : key = first
        · subst same
          unfold HeadIndexed.refreshHead
          cases canonical.latestAssertion key with
          | none => exact (AList.lookup_erase _ _).trans (if_pos rfl).symm
          | some item => exact (AList.lookup_insert _).trans (if_pos rfl).symm
        · rw [if_neg same]
          unfold HeadIndexed.refreshHead
          cases canonical.latestAssertion first with
          | none => exact AList.lookup_erase_ne same
          | some item => exact AList.lookup_insert_ne same
      rw [List.foldl_cons, ih, one]
      by_cases later : key ∈ rest
      · rw [if_pos later, if_pos (List.mem_cons_of_mem _ later)]
      · simp only [List.mem_cons, later, or_false, if_false]

theorem foldl_refreshHead_rest (keys : List CellKey) :
    (keys.foldl (HeadIndexed.refreshHead canonical) derived).nodes = derived.nodes ∧
      (keys.foldl (HeadIndexed.refreshHead canonical) derived).edges = derived.edges ∧
      (keys.foldl (HeadIndexed.refreshHead canonical) derived).membership = derived.membership := by
  induction keys generalizing derived with
  | nil => exact ⟨rfl, rfl, rfl⟩
  | cons first rest ih =>
      have one : (HeadIndexed.refreshHead canonical derived first).nodes = derived.nodes ∧
          (HeadIndexed.refreshHead canonical derived first).edges = derived.edges ∧
          (HeadIndexed.refreshHead canonical derived first).membership = derived.membership := by
        unfold HeadIndexed.refreshHead
        cases canonical.latestAssertion first <;> exact ⟨rfl, rfl, rfl⟩
      obtain ⟨nodes, edges, membership⟩ := @ih (HeadIndexed.refreshHead canonical derived first)
      exact ⟨nodes.trans one.1, edges.trans one.2.1, membership.trans one.2.2⟩

theorem mem_foldl_syncMembershipKey (keys : List CellKey) (key : CellKey) :
    key ∈ (keys.foldl NormalizedMembership.syncMembershipKey derived).membership ↔
      if key ∈ keys then key ∈ derived.heads else key ∈ derived.membership := by
  induction keys generalizing derived with
  | nil => rfl
  | cons first rest ih =>
      have heads : (NormalizedMembership.syncMembershipKey derived first).heads = derived.heads := by
        unfold NormalizedMembership.syncMembershipKey
        split_ifs <;> rfl
      have one : key ∈ (NormalizedMembership.syncMembershipKey derived first).membership ↔
          if key = first then key ∈ derived.heads else key ∈ derived.membership := by
        unfold NormalizedMembership.syncMembershipKey
        by_cases present : first ∈ derived.heads
        · simp only [if_pos present, AList.mem_insert]
          by_cases same : key = first
          · simp only [same, true_or, if_true, present]
          · simp only [same, false_or, if_false]
        · simp only [if_neg present, AList.mem_erase]
          by_cases same : key = first
          · simp only [same, ne_eq, not_true_eq_false, false_and, if_true, present]
          · simp only [same, ne_eq, not_false_eq_true, true_and, if_false]
      rw [List.foldl_cons, ih, heads, one]
      by_cases later : key ∈ rest
      · rw [if_pos later, if_pos (List.mem_cons_of_mem _ later)]
      · simp only [List.mem_cons, later, or_false, if_false]

theorem foldl_syncMembershipKey_rest (keys : List CellKey) :
    (keys.foldl NormalizedMembership.syncMembershipKey derived).nodes = derived.nodes ∧
      (keys.foldl NormalizedMembership.syncMembershipKey derived).edges = derived.edges ∧
      (keys.foldl NormalizedMembership.syncMembershipKey derived).heads = derived.heads := by
  induction keys generalizing derived with
  | nil => exact ⟨rfl, rfl, rfl⟩
  | cons first rest ih =>
      have one : (NormalizedMembership.syncMembershipKey derived first).nodes = derived.nodes ∧
          (NormalizedMembership.syncMembershipKey derived first).edges = derived.edges ∧
          (NormalizedMembership.syncMembershipKey derived first).heads = derived.heads := by
        unfold NormalizedMembership.syncMembershipKey
        split_ifs <;> exact ⟨rfl, rfl, rfl⟩
      obtain ⟨nodes, edges, heads⟩ := @ih (NormalizedMembership.syncMembershipKey derived first)
      exact ⟨nodes.trans one.1, edges.trans one.2.1, heads.trans one.2.2⟩

theorem syncKeys_rows :
    (scheme.syncKeys canonical intent derived).nodes = derived.nodes ∧
      (scheme.syncKeys canonical intent derived).edges = derived.edges := by
  obtain ⟨nodes, edges, -⟩ :=
    @foldl_refreshHead_rest canonical derived intent.cells.dedup
  unfold ProfileScheme.syncKeys
  by_cases keeps : scheme.keepsMembership = true
  · obtain ⟨nodes', edges', -⟩ := @foldl_syncMembershipKey_rest
      (HeadIndexed.syncHeads canonical intent derived) intent.cells.dedup
    simp only [if_pos keeps]
    exact ⟨nodes'.trans nodes, edges'.trans edges⟩
  · simp only [if_neg keeps]
    exact ⟨nodes, edges⟩

theorem syncKeys_heads (key : CellKey) :
    (scheme.syncKeys canonical intent derived).heads.lookup key =
      if key ∈ intent.cells then (canonical.latestAssertion key).map Assertion.id
      else derived.heads.lookup key := by
  have refreshed := @lookup_foldl_refreshHead canonical derived intent.cells.dedup key
  simp only [List.mem_dedup] at refreshed
  unfold ProfileScheme.syncKeys
  by_cases keeps : scheme.keepsMembership = true
  · have heads := (@foldl_syncMembershipKey_rest
      (HeadIndexed.syncHeads canonical intent derived) intent.cells.dedup).2.2
    simp only [if_pos keeps]
    exact (congrArg (AList.lookup key) heads).trans refreshed
  · simp only [if_neg keeps]
    exact refreshed

theorem syncKeys_members (members : MembersMatch scheme derived) :
    MembersMatch scheme (scheme.syncKeys canonical intent derived) := by
  intro keeps key
  have heads := (@foldl_syncMembershipKey_rest
    (HeadIndexed.syncHeads canonical intent derived) intent.cells.dedup).2.2
  have synced := @mem_foldl_syncMembershipKey
    (HeadIndexed.syncHeads canonical intent derived) intent.cells.dedup key
  unfold ProfileScheme.syncKeys
  simp only [if_pos keeps]
  rw [synced, heads]
  by_cases inside : key ∈ intent.cells.dedup
  · rw [if_pos inside]
  · rw [if_neg inside, HeadIndexed.syncHeads, (foldl_refreshHead_rest _).2.2, members keeps key,
      Table.mem_iff, Table.mem_iff, lookup_foldl_refreshHead, if_neg inside]

theorem Rebuilding.applied {before : Canonical} (clean : Rebuilding scheme derived before [])
    (ran : before.apply intent = .ok canonical) (faithful : Faithful before intent)
    (tracked : Tracked before intent) (named : before.Named) (plain : before.Plain) :
    Applied scheme (scheme.syncKeys canonical intent derived) before canonical intent where
  ran := ran
  faithful := faithful
  tracked := tracked
  named := named
  plain := plain
  heads key := by
    rw [syncKeys_heads]
    by_cases inside : key ∈ intent.cells
    · rw [if_pos inside]
    · rw [if_neg inside, clean.heads key,
        Canonical.latest_congr (assertionsOf_apply ran faithful tracked inside)]
  members := syncKeys_members clean.members
  rows id := by
    have matched := clean.others id List.not_mem_nil
    constructor
    · rw [syncKeys_rows.1]
      exact matched.row
    · intro source
      rw [syncKeys_rows.2]
      exact matched.edges source

theorem Canonical.Named.apply {before : Canonical} (named : before.Named)
    (tracked : Tracked before intent) (ran : before.apply intent = .ok canonical) :
    canonical.Named := by
  intro id row held
  cases intent with
  | upsertEvidence item previous =>
      obtain ⟨-, rfl⟩ := Canonical.apply_evidence ran
      exact named id row held
  | upsertAssertion item previous =>
      obtain ⟨-, rfl⟩ := Canonical.apply_upsert ran
      by_cases same : id = item.id
      · subst same
        rw [AList.lookup_insert] at held
        obtain rfl := Option.some.inj held
        exact tracked.1
      · rw [AList.lookup_insert_ne same] at held
        exact named id row held
  | deleteAssertion deleted previous =>
      obtain rfl := Except.ok.inj ran
      by_cases same : id = deleted
      · subst same
        rw [AList.lookup_erase] at held
        cases held
      · rw [AList.lookup_erase_ne same] at held
        exact named id row held

end Sync

/-! ### The invariant -/

/-- The queue row of the intent names the cells, of plain subjects, among those that must not be
read. -/
def Guards (db : Db) (journal : Journal) (cells : List CellKey) : Prop :=
  ∃ row, db.queue.find? (fun row => decide (row.seq = journal.seq)) = some row ∧
    ∀ key ∈ cells, Plain key.1 ∧ readKey key ∈ row.readKeys

/-- What the derived rows are when the intent is in its phase. -/
def Carrying (scheme : ProfileScheme) (derived : Derived) (canonical : Canonical)
    (journal : Journal) (cells : List CellKey) : Prop :=
  match journal.phase with
  | .prepared =>
      Rebuilding scheme derived canonical [] ∧ readCells canonical journal.intent ⊆ cells
  | .canonicalApplied =>
      ∃ before, Applied scheme derived before canonical journal.intent ∧
        readCells before journal.intent ⊆ cells
  | .invalidated =>
      Rebuilding scheme derived canonical journal.affected ∧ journal.affected.Nodup ∧
        ∀ id ∈ journal.affected, id.Touches cells
  | .rebuilding =>
      Rebuilding scheme derived canonical journal.affected ∧ journal.affected.Nodup ∧
        ∀ id ∈ journal.affected, id.Touches cells
  | .repaired => Rebuilding scheme derived canonical []

structure Consistent (scheme : ProfileScheme) (db : Db) : Prop where
  named : db.canonical.Named
  plain : db.canonical.Plain
  queued : ∀ row ∈ db.queue, row.intent.Plain
  idle : db.journal = none → Rebuilding scheme db.derived db.canonical []
  busy : ∀ journal, db.journal = some journal → ∃ cells, Guards db journal cells ∧
    Carrying scheme db.derived db.canonical journal cells

/-- The intent that is about to be applied is tracked. -/
def Db.TracksIntent (db : Db) : Prop :=
  ∀ journal ∈ db.journal, journal.phase = .prepared → Tracked db.canonical journal.intent

/-- The integers of the intent that is about to be applied fit their columns. -/
def Db.StoresIntent (db : Db) : Prop :=
  ∀ journal ∈ db.journal, journal.phase = .prepared → journal.intent.Storable

def Transaction.Tracks : Transaction → Db → Prop
  | .apply _, db => db.TracksIntent
  | _, _ => True

/-- The delete that ends a recovery finds no intent that is still to be repaired. -/
def Transaction.Finishes (transaction : Transaction) (db : Db) : Prop :=
  transaction = .finish → ∀ journal ∈ db.journal, journal.phase = .repaired

def Transaction.Sound (transaction : Transaction) (db : Db) : Prop :=
  transaction.Tracks db ∧ transaction.Finishes db

instance (db : Db) : Decidable db.TracksIntent := inferInstanceAs (Decidable (∀ _ ∈ _, _))

instance (db : Db) : Decidable db.StoresIntent := inferInstanceAs (Decidable (∀ _ ∈ _, _))

instance (db : Db) (transaction : Transaction) : Decidable (transaction.Tracks db) :=
  match transaction with
  | .apply _ => inferInstanceAs (Decidable db.TracksIntent)
  | .finish => isTrue trivial
  | .enqueue _ _ => isTrue trivial
  | .promote => isTrue trivial
  | .invalidate _ => isTrue trivial
  | .partialRebuild => isTrue trivial
  | .repair _ => isTrue trivial
  | .finalize => isTrue trivial

instance (db : Db) (transaction : Transaction) : Decidable (transaction.Finishes db) :=
  inferInstanceAs (Decidable (_ → ∀ _ ∈ _, _))

instance (db : Db) (transaction : Transaction) : Decidable (transaction.Sound db) :=
  inferInstanceAs (Decidable (_ ∧ _))

theorem Transaction.Sound.clear {transaction : Transaction} {db : Db}
    (sound : transaction.Sound db) : transaction.Clear db := by
  intro ends journal held prepared
  cases prepared.symm.trans (sound.2 ends journal held)

namespace Consistent

variable {scheme : ProfileScheme} {initial : Canonical} {db db' : Db} {journal journal' : Journal}

theorem enqueue (consistent : Consistent scheme db) {rows : List QueueRow}
    (plain : ∀ row ∈ rows, row.intent.Plain) :
    Consistent scheme { db with queue := db.queue ++ rows } where
  named := consistent.named
  plain := consistent.plain
  queued row member := (List.mem_append.mp member).elim (consistent.queued row) (plain row)
  idle := consistent.idle
  busy journal held := by
    obtain ⟨cells, ⟨row, found, keys⟩, carrying⟩ := consistent.busy journal held
    refine ⟨cells, ⟨row, ?_, keys⟩, carrying⟩
    rw [List.find?_append, found]
    rfl

/-- Where the intents of the queue are changed in nothing but what is said about them. -/
theorem queued_map (consistent : Consistent scheme db) {change : QueueRow → QueueRow}
    (same : ∀ row, (change row).intent = row.intent) :
    ∀ row ∈ db.queue.map change, row.intent.Plain := by
  intro row member
  obtain ⟨old, listed, rfl⟩ := List.mem_map.mp member
  rw [same]
  exact consistent.queued old listed

theorem guards_activate {row : QueueRow} (consistent : Consistent scheme db)
    (listed : row ∈ db.queue) :
    Guards (db.activate scheme.methods row) row.promoted (readCells db.canonical row.intent) := by
  have present : ((db.activate scheme.methods row).queue.find? fun other =>
      decide (other.seq = row.seq)).isSome := by
    rw [List.find?_isSome]
    refine ⟨_, List.mem_map_of_mem listed, ?_⟩
    simp only [if_true, decide_true]
  obtain ⟨found, isFound⟩ := Option.isSome_iff_exists.mp present
  have sameSeq : decide (found.seq = row.seq) = true :=
    List.find?_some (p := fun other : QueueRow => decide (other.seq = row.seq)) isFound
  obtain ⟨other, -, same⟩ := List.mem_map.mp (List.mem_of_find?_eq_some isFound)
  refine ⟨found, isFound, fun key member => ?_⟩
  by_cases changed : other.seq = row.seq
  · refine ⟨readCells_plain consistent.plain (consistent.queued row listed) key member, ?_⟩
    rw [← same, if_pos changed]
    show readKey key ∈ queueReadKeys db.canonical row.intent
    rw [queueReadKeys, List.mem_insertionSort, List.mem_dedup]
    exact List.mem_map_of_mem member
  · rw [if_neg changed] at same
    exact absurd (same ▸ of_decide_eq_true sameSeq) changed

theorem promote (consistent : Consistent scheme db) :
    Consistent scheme (db.promoteNext scheme.methods).2 := by
  cases held : db.journal with
  | some journal =>
      have same : (db.promoteNext scheme.methods).2 = db := by simp only [Db.promoteNext, held]
      rw [same]
      exact consistent
  | none =>
      cases found : db.queue.find? fun row => decide (row.status = .queued) with
      | none =>
          have same : (db.promoteNext scheme.methods).2 = db := by
            simp only [Db.promoteNext, held, found]
          rw [same]
          exact consistent
      | some row =>
          by_cases stale : db.version row.intent.writeKey ≠ row.baseVersion
          · have refused : (db.promoteNext scheme.methods).2 = db.refuse row := by
              simp only [Db.promoteNext, held, found, if_pos stale]
            rw [refused]
            refine ⟨consistent.named, consistent.plain, consistent.queued_map ?_,
              fun _ => consistent.idle held, ?_⟩
            · intro other
              split_ifs <;> rfl
            · intro journal busy
              cases held.symm.trans busy
          · have promoted : (db.promoteNext scheme.methods).2 = db.activate scheme.methods row := by
              simp only [Db.promoteNext, held, found, if_neg stale]
            rw [promoted]
            refine ⟨consistent.named, consistent.plain, consistent.queued_map ?_,
              fun idle => absurd idle (Option.some_ne_none _), ?_⟩
            · intro other
              split_ifs <;> rfl
            · intro journal busy
              obtain rfl := Option.some.inj busy
              exact ⟨readCells db.canonical row.intent,
                consistent.guards_activate (List.mem_of_find?_eq_some found), consistent.idle held,
                List.Subset.refl _⟩

theorem apply {canonical : Canonical} (consistent : Consistent scheme db) (kept : Kept initial db)
    (held : db.journal = some journal) (phase : journal.phase = .prepared)
    (tracked : Tracked db.canonical journal.intent)
    (ran : db.canonical.apply journal.intent = .ok canonical) :
    Consistent scheme
      ((db.withCanonical scheme.methods journal canonical).withPhase journal .canonicalApplied) := by
  obtain ⟨cells, guards, carrying⟩ := consistent.busy journal held
  simp only [Carrying, phase] at carrying
  obtain ⟨clean, listed⟩ := carrying
  obtain ⟨finished, row, waiting, ledger⟩ := kept.journalled held
  obtain ⟨-, -, sameIntent⟩ := ledger.linked row journal rfl
  have faithful : Faithful db.canonical journal.intent :=
    sameIntent ▸ (ledger.prepared row journal rfl phase).2
  have member : row ∈ db.queue := by
    rw [ledger.queue_active]
    exact List.mem_append_right _ List.mem_cons_self
  have plain := consistent.plain.apply (sameIntent ▸ consistent.queued row member) ran
  refine ⟨consistent.named.apply tracked ran, plain, consistent.queued,
    fun idle => absurd idle (Option.some_ne_none _), ?_⟩
  intro journal' busy
  obtain rfl := Option.some.inj busy
  exact ⟨cells, guards, db.canonical,
    clean.applied ran faithful tracked consistent.named consistent.plain, listed⟩

theorem invalidate (lawful : scheme.Lawful) (consistent : Consistent scheme db)
    (held : db.journal = some journal) (phase : journal.phase = .canonicalApplied) :
    Consistent scheme (db.invalidateTx scheme.methods journal) := by
  obtain ⟨cells, guards, carrying⟩ := consistent.busy journal held
  simp only [Carrying, phase] at carrying
  obtain ⟨before, applied, listed⟩ := carrying
  refine ⟨consistent.named, consistent.plain, consistent.queued,
    fun idle => absurd idle (Option.some_ne_none _), ?_⟩
  intro journal' busy
  obtain rfl := Option.some.inj busy
  refine ⟨cells, guards, applied.invalidate lawful, Compositional.affected_nodup, ?_⟩
  intro id member
  have touches := Compositional.affected_touches lawful applied.rows id member
  exact touches.mono listed

theorem pending_of {cells : List CellKey}
    (carrying : Carrying scheme db.derived db.canonical journal cells)
    (phase : journal.phase = .invalidated ∨ journal.phase = .rebuilding) :
    Rebuilding scheme db.derived db.canonical journal.affected ∧ journal.affected.Nodup ∧
      ∀ id ∈ journal.affected, id.Touches cells := by
  rcases phase with phase | phase
  · simp only [Carrying, phase] at carrying
    exact carrying
  · simp only [Carrying, phase] at carrying
    exact carrying

theorem partialRebuild (consistent : Consistent scheme db) (held : db.journal = some journal)
    (phase : journal.phase = .invalidated) (ran : db.partialRebuildTx journal = .ok db') :
    Consistent scheme db' := by
  obtain ⟨cells, guards, carrying⟩ := consistent.busy journal held
  obtain ⟨rebuilding, nodup, touches⟩ := pending_of carrying (Or.inl phase)
  obtain ⟨kind, id, rest, order, rfl⟩ := Db.partialRebuildTx_ok ran
  have first : (kind, id) ∈ repairOrder db.derived journal.affected := order ▸ List.mem_cons_self
  have listed := (mem_repairOrder.mp first).1
  refine ⟨consistent.named, consistent.plain, consistent.queued,
    fun idle => absurd idle (Option.some_ne_none _), ?_⟩
  intro journal' busy
  obtain rfl := Option.some.inj busy
  exact ⟨cells, guards, rebuilding.setRow listed (fun _ => rfl) fun _ => nofun, nodup, touches⟩

theorem repair (lawful : scheme.Lawful) (consistent : Consistent scheme db)
    (held : db.journal = some journal)
    (phase : journal.phase = .invalidated ∨ journal.phase = .rebuilding) :
    ∃ derived, db.repairDerived scheme.methods journal = .ok derived ∧
      Consistent scheme
        { db with derived, journal := some { journal with phase := .repaired } } := by
  obtain ⟨cells, guards, carrying⟩ := consistent.busy journal held
  obtain ⟨rebuilding, nodup, touches⟩ := pending_of carrying phase
  have again : Rebuilding scheme
      (if journal.phase = .rebuilding then db.derived.invalidate journal.affected else db.derived)
      db.canonical journal.affected := by
    split_ifs
    · exact rebuilding.invalidate (List.Subset.refl _)
    · exact rebuilding
  obtain ⟨derived, ran, clean⟩ := again.repair lawful nodup
  refine ⟨derived, ran, consistent.named, consistent.plain, consistent.queued, nofun, ?_⟩
  rintro journal' busy
  obtain rfl := Option.some.inj busy
  exact ⟨cells, guards, clean⟩

theorem deleteJournal (consistent : Consistent scheme db) (held : db.journal = some journal)
    (phase : journal.phase = .repaired) : Consistent scheme (db.deleteJournal journal) := by
  obtain ⟨cells, -, carrying⟩ := consistent.busy journal held
  simp only [Carrying, phase] at carrying
  refine ⟨consistent.named, consistent.plain, consistent.queued_map ?_, fun _ => carrying, ?_⟩
  · intro other
    split_ifs <;> rfl
  intro journal' busy
  have idle : (db.deleteJournal journal).journal = none := rfl
  rw [idle] at busy
  cases busy

theorem run (lawful : scheme.Lawful) (consistent : Consistent scheme db) (kept : Kept initial db)
    {transaction : Transaction} (sound : transaction.Sound db)
    (ran : transaction.run scheme.methods db = .ok db') : Consistent scheme db' := by
  cases transaction with
  | enqueue request writer =>
      obtain ⟨intents, rows, asked, same, rfl⟩ := Db.enqueue_ok ran
      apply consistent.enqueue
      intro row member
      exact consistent.plain.intents asked row.intent (same ▸ List.mem_map_of_mem member)
  | promote =>
      obtain rfl := Except.ok.inj ran
      exact consistent.promote
  | apply caller =>
      unfold Transaction.run at ran
      obtain ⟨journal, held, phase, ran⟩ := Db.inPhase_ok ran
      have prepared := List.mem_singleton.mp phase
      obtain ⟨canonical, applied, rfl⟩ := Db.applyCanonicalTx_ok ran
      exact consistent.apply kept held prepared (sound.1 journal held prepared) applied
  | invalidate caller =>
      unfold Transaction.run at ran
      obtain ⟨journal, held, phase, ran⟩ := Db.inPhase_ok ran
      obtain rfl := Except.ok.inj ran
      exact consistent.invalidate lawful held (List.mem_singleton.mp phase)
  | partialRebuild =>
      unfold Transaction.run at ran
      obtain ⟨journal, held, phase, ran⟩ := Db.inPhase_ok ran
      exact consistent.partialRebuild held (List.mem_singleton.mp phase) ran
  | repair caller =>
      unfold Transaction.run at ran
      obtain ⟨journal, held, phase, ran⟩ := Db.inPhase_ok ran
      have either : journal.phase = .invalidated ∨ journal.phase = .rebuilding :=
        (List.mem_cons.mp phase).imp_right List.mem_singleton.mp
      obtain ⟨derived, repaired, consistent'⟩ := consistent.repair lawful held either
      obtain ⟨derived', repaired', rfl⟩ := Db.repairTx_ok ran
      obtain rfl := Except.ok.inj (repaired.symm.trans repaired')
      exact consistent'
  | finalize =>
      unfold Transaction.run at ran
      obtain ⟨journal, held, phase, ran⟩ := Db.inPhase_ok ran
      obtain rfl := Except.ok.inj ran
      exact consistent.deleteJournal held (List.mem_singleton.mp phase)
  | finish =>
      simp only [Transaction.run] at ran
      cases held : db.journal with
      | none =>
          rw [held] at ran
          obtain rfl := Except.ok.inj ran
          exact consistent
      | some journal =>
          rw [held] at ran
          obtain rfl := Except.ok.inj ran
          exact consistent.deleteJournal held (sound.2 rfl journal held)

theorem after (lawful : scheme.Lawful) (consistent : Consistent scheme db) (kept : Kept initial db)
    {transaction : Transaction} (sound : transaction.Sound db) :
    Consistent scheme (transaction.after scheme.methods db) := by
  unfold Transaction.after
  cases ran : transaction.run scheme.methods db with
  | ok db' => exact consistent.run lawful kept sound ran
  | error error => exact consistent

/-- What a run of a store with these profiles keeps. -/
theorem working (lawful : scheme.Lawful) (initial : Canonical) :
    Working scheme.methods (fun db => Kept initial db ∧ Consistent scheme db)
      fun db => db.TracksIntent ∧ db.StoresIntent where
  promote db holds := ⟨holds.1.promote, holds.2.promote⟩
  storable db journal _ good held phase _ := good.2 journal held phase
  apply db journal canonical holds good held phase ran := by
    obtain ⟨canonical', ran', -, kept⟩ := holds.1.apply held phase (good.2 journal held phase)
    obtain rfl := Except.ok.inj (ran.symm.trans ran')
    exact ⟨kept, holds.2.apply holds.1 held phase (good.1 journal held phase) ran⟩
  invalidate db journal holds held phase :=
    ⟨holds.1.laterPhase held (fun prepared => nomatch phase.symm.trans prepared) (by nofun) (by rfl)
      (by rfl) _, holds.2.invalidate lawful held phase⟩
  repair db journal holds held phase := by
    obtain ⟨derived, ran, consistent⟩ := holds.2.repair lawful held phase
    have begun : journal.phase ≠ .prepared := by
      rcases phase with phase | phase <;> rw [phase] <;> nofun
    exact ⟨derived, ran, holds.1.laterPhase held begun (by nofun) (by rfl) (by rfl) derived,
      consistent⟩
  finish db journal holds held phase :=
    ⟨holds.1.deleteJournal held (fun prepared => nomatch phase.symm.trans prepared),
      holds.2.deleteJournal held phase⟩

end Consistent

/-! ### Runs -/

section Runs

variable {P : Type} [DecidableEq P] {scheme : ProfileScheme} {offers : Transaction → Prop}
  {meets : Db → Transaction → Prop} {start system : System P}

theorem Run.consistent (lawful : scheme.Lawful) {initial : Canonical}
    (run : Run scheme.methods offers meets start system)
    (sound : ∀ db transaction, meets db transaction → transaction.Sound db)
    (kept : Kept initial start.db) (consistent : Consistent scheme start.db) :
    Kept initial system.db ∧ Consistent scheme system.db := by
  apply run.invariant (fun db => Kept initial db ∧ Consistent scheme db) ⟨kept, consistent⟩
  intro db transaction holds _ met
  have sound := sound db transaction met
  exact ⟨holds.1.after sound.clear, holds.2.after lawful holds.1 sound⟩

end Runs

/-- A process that recovers has the journalled intent's phase in its variable. -/
def InStep (system : System Unit) : Prop :=
  ∀ phase draining, system.counter () = .recoverAt phase draining →
    ∃ journal, system.db.journal = some journal ∧ journal.phase = phase

theorem inPhase_next {methods : Methods} {db db' : Db} {phase phase' : Phase}
    {draining draining' : Bool} (ran : (Counter.transaction phase).run methods db = .ok db')
    (next : Counter.next draining phase = .recoverAt phase' draining') :
    ∃ journal, db'.journal = some journal ∧ journal.phase = phase' := by
  cases phase with
  | prepared =>
      cases next
      simp only [Counter.transaction, Transaction.run] at ran
      obtain ⟨journal, -, -, ran⟩ := Db.inPhase_ok ran
      obtain ⟨canonical, -, rfl⟩ := Db.applyCanonicalTx_ok ran
      exact ⟨_, rfl, rfl⟩
  | canonicalApplied =>
      cases next
      simp only [Counter.transaction, Transaction.run] at ran
      obtain ⟨journal, -, -, ran⟩ := Db.inPhase_ok ran
      obtain rfl := Except.ok.inj ran
      exact ⟨_, rfl, rfl⟩
  | invalidated =>
      cases next
      simp only [Counter.transaction, Transaction.run] at ran
      obtain ⟨journal, -, -, ran⟩ := Db.inPhase_ok ran
      obtain ⟨derived, -, rfl⟩ := Db.repairTx_ok ran
      exact ⟨_, rfl, rfl⟩
  | rebuilding =>
      cases next
      simp only [Counter.transaction, Transaction.run] at ran
      obtain ⟨journal, -, -, ran⟩ := Db.inPhase_ok ran
      obtain ⟨derived, -, rfl⟩ := Db.repairTx_ok ran
      exact ⟨_, rfl, rfl⟩
  | repaired => cases draining <;> cases next

theorem InStep.resume {methods : Methods} {counter : Counter} {db : Db} {phase : Phase}
    {draining : Bool} (resumed : (Counter.resume methods (counter, db)).1 = .recoverAt phase draining) :
    ∃ journal, (Counter.resume methods (counter, db)).2.journal = some journal ∧
      journal.phase = phase := by
  cases counter with
  | idle => cases resumed
  | raised error => cases resumed
  | recoverStart draining =>
      cases held : db.journal with
      | none =>
          simp only [Counter.resume, held] at resumed
          cases draining <;> cases resumed
      | some journal =>
          simp only [Counter.resume, held] at resumed ⊢
          cases resumed
          exact ⟨journal, rfl, rfl⟩
  | recoverAt before draining =>
      cases ran : (Counter.transaction before).run methods db with
      | error error =>
          simp only [Counter.resume, ran] at resumed
          cases resumed
      | ok db' =>
          simp only [Counter.resume, ran] at resumed ⊢
          exact inPhase_next ran resumed
  | drainCheck =>
      cases held : db.journal with
      | none =>
          simp only [Counter.resume, held] at resumed
          cases resumed
      | some journal =>
          simp only [Counter.resume, held] at resumed
          cases resumed
  | drainPromote =>
      rcases promoted : db.promoteNext methods with ⟨promotion, db'⟩
      simp only [Counter.resume, promoted] at resumed
      cases promotion <;> cases resumed

theorem InStep.act (methods : Methods) {system : System Unit} {action : Action Unit}
    (enabled : system.Enabled action) : InStep (system.act methods action) := by
  intro phase draining at_phase
  cases action with
  | call process transaction =>
      have resting := enabled.1
      have same : system.counter () = .recoverAt phase draining := at_phase
      rw [show process = () from rfl, same] at resting
      cases resting
  | recover process =>
      simp only [System.act, System.setCounter, Function.update_self] at at_phase
      cases at_phase
  | drainAll process =>
      simp only [System.act, System.setCounter, Function.update_self] at at_phase
      cases at_phase
  | kill process =>
      simp only [System.act, System.setCounter, Function.update_self] at at_phase
      cases at_phase
  | resume process =>
      simp only [System.act, System.setCounter, Function.update_self] at at_phase
      exact InStep.resume at_phase

/-- With one process at a time, a recovery ends the intent that it has repaired. -/
theorem Run.alone {methods : Methods} {offers : Transaction → Prop}
    {meets : Db → Transaction → Prop} {start system : System Unit} (idle : start.counter () = .idle)
    (run : Run methods offers meets start system) :
    Run methods offers (fun db transaction => meets db transaction ∧ transaction.Finishes db) start
      system ∧ InStep system := by
  induction run with
  | start =>
      refine ⟨.start, fun phase draining at_phase => ?_⟩
      rw [idle] at at_phase
      cases at_phase
  | @step system action before enabled offered met ih =>
      obtain ⟨run, inStep⟩ := ih
      refine ⟨run.step enabled offered fun transaction pending => ⟨met transaction pending, ?_⟩,
        InStep.act methods enabled⟩
      rintro rfl journal held
      cases action with
      | call process transaction =>
          cases pending
          exact absurd rfl enabled.2
      | recover process => cases pending
      | drainAll process => cases pending
      | kill process => cases pending
      | resume process =>
          simp only [System.pending] at pending
          cases counter : system.counter process with
          | idle => rw [counter] at pending; cases pending
          | raised error => rw [counter] at pending; cases pending
          | recoverStart draining => rw [counter] at pending; cases pending
          | drainCheck => rw [counter] at pending; cases pending
          | drainPromote => rw [counter] at pending; cases pending
          | recoverAt phase draining =>
              rw [counter] at pending
              obtain ⟨other, held', same⟩ := inStep phase draining counter
              obtain rfl := Option.some.inj (held.symm.trans held')
              rw [same]
              cases phase <;> first | rfl | cases pending

end DurableContext.Maintenance
