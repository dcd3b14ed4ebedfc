import DurableContext.Maintenance.Ledger

/-! Runs of processes over one store keep the ledger, and an undisturbed `drain_all` ends every
admitted intent.

A process deletes the intent it has repaired without looking at it again. The one thing a run may
not do is to delete an intent that is still to be applied. -/

namespace DurableContext.Maintenance

variable {methods : Methods} {initial : Canonical} {db db' : Db} {journal : Journal}

theorem Db.inPhase_ok {expected : List Phase} {refusal : Option Phase → Raised}
    {body : Db → Journal → Except Raised Db} (ran : db.inPhase expected refusal body = .ok db') :
    ∃ journal, db.journal = some journal ∧ journal.phase ∈ expected ∧ body db journal = .ok db' := by
  unfold Db.inPhase at ran
  cases held : db.journal with
  | none =>
      rw [held] at ran
      cases ran
  | some journal =>
      rw [held] at ran
      by_cases member : journal.phase ∈ expected
      · simp only [if_pos member] at ran
        exact ⟨journal, rfl, member, ran⟩
      · simp only [if_neg member] at ran
        cases ran

/-! ### One transaction -/

/-- The delete that ends a recovery finds no intent that is still to be applied. -/
def Transaction.Clear (transaction : Transaction) (db : Db) : Prop :=
  transaction = .finish → ∀ journal ∈ db.journal, journal.phase ≠ .prepared

instance (db : Db) (transaction : Transaction) : Decidable (transaction.Clear db) :=
  inferInstanceAs (Decidable (_ → _))

def Kept (initial : Canonical) (db : Db) : Prop :=
  ∃ finished active waiting, Ledger initial db finished active waiting

theorem Ledger.active_of {finished waiting : List QueueRow} {active : Option (QueueRow × Journal)}
    (ledger : Ledger initial db finished active waiting) (held : db.journal = some journal) :
    ∃ row, active = some (row, journal) := by
  have linked := ledger.journal
  rw [held] at linked
  cases active with
  | none => cases linked
  | some pair =>
      obtain ⟨row, other⟩ := pair
      cases linked
      exact ⟨row, rfl⟩

theorem Kept.journalled (kept : Kept initial db) (held : db.journal = some journal) :
    ∃ finished row waiting, Ledger initial db finished (some (row, journal)) waiting := by
  obtain ⟨finished, active, waiting, ledger⟩ := kept
  obtain ⟨row, rfl⟩ := ledger.active_of held
  exact ⟨finished, row, waiting, ledger⟩

theorem Kept.promote (kept : Kept initial db) : Kept initial (db.promoteNext methods).2 := by
  obtain ⟨finished, active, waiting, ledger⟩ := kept
  cases held : db.journal with
  | some journal =>
      have same : (db.promoteNext methods).2 = db := by simp only [Db.promoteNext, held]
      rw [same]
      exact ⟨finished, active, waiting, ledger⟩
  | none =>
      have idle := ledger.journal
      rw [held] at idle
      obtain rfl : active = none := Option.map_eq_none_iff.mp idle.symm
      have found := ledger.find_waiting
      cases waiting with
      | nil =>
          rw [List.head?_nil] at found
          have same : (db.promoteNext methods).2 = db := by simp only [Db.promoteNext, held, found]
          rw [same]
          exact ⟨finished, none, [], ledger⟩
      | cons row rest =>
          rw [List.head?_cons] at found
          by_cases stale : db.version row.intent.writeKey ≠ row.baseVersion
          · have refused : (db.promoteNext methods).2 = db.refuse row := by
              simp only [Db.promoteNext, held, found, if_pos stale]
            rw [refused]
            obtain ⟨row', ledger'⟩ := ledger.refuse
            exact ⟨_, _, _, ledger'⟩
          · have promoted : (db.promoteNext methods).2 = db.activate methods row := by
              simp only [Db.promoteNext, held, found, if_neg stale]
            rw [promoted]
            exact ⟨_, _, _, ledger.activate methods (not_not.mp stale)⟩

theorem Kept.apply (kept : Kept initial db) (held : db.journal = some journal)
    (phase : journal.phase = .prepared) (storable : journal.intent.Storable) :
    ∃ canonical, db.canonical.apply journal.intent = .ok canonical ∧
      db.applyCanonicalTx methods journal = .ok (db.withCanonical methods journal canonical) ∧
      Kept initial ((db.withCanonical methods journal canonical).withPhase journal
        .canonicalApplied) := by
  obtain ⟨finished, row, waiting, ledger⟩ := kept.journalled held
  obtain ⟨canonical, ran, applied, ledger'⟩ := ledger.applyCanonicalTx phase storable methods
  exact ⟨canonical, ran, applied, _, _, _, ledger'⟩

theorem Kept.laterPhase (kept : Kept initial db) (held : db.journal = some journal)
    (phase : journal.phase ≠ .prepared) {journal' : Journal} (phase' : journal'.phase ≠ .prepared)
    (sameSeq : journal'.seq = journal.seq) (sameIntent : journal'.intent = journal.intent)
    (derived : Derived) : Kept initial { db with derived, journal := some journal' } := by
  obtain ⟨finished, row, waiting, ledger⟩ := kept.journalled held
  exact ⟨_, _, _, ledger.laterPhase phase phase' sameSeq sameIntent derived⟩

theorem Kept.deleteJournal (kept : Kept initial db) (held : db.journal = some journal)
    (phase : journal.phase ≠ .prepared) : Kept initial (db.deleteJournal journal) := by
  obtain ⟨finished, row, waiting, ledger⟩ := kept.journalled held
  exact ⟨_, _, _, ledger.deleteJournal phase⟩

theorem Db.applyCanonicalTx_ok (ran : (do
      return (← db.applyCanonicalTx methods journal).withPhase journal .canonicalApplied) =
        Except.ok db') :
    ∃ canonical, db.canonical.apply journal.intent = .ok canonical ∧
      db' = (db.withCanonical methods journal canonical).withPhase journal .canonicalApplied := by
  unfold Db.applyCanonicalTx at ran
  split_ifs at ran
  · cases applied : db.canonical.apply journal.intent with
    | error error =>
        rw [applied] at ran
        cases ran
    | ok canonical =>
        rw [applied] at ran
        exact ⟨canonical, rfl, (Except.ok.inj ran).symm⟩
  · cases ran

theorem Db.partialRebuildTx_ok (ran : db.partialRebuildTx journal = .ok db') :
    ∃ kind id rest, repairOrder db.derived journal.affected = (kind, id) :: rest ∧
      db' = { db with
        derived := db.derived.setRow id fun row =>
          { row with status := .rebuilding, value := .partialRebuild }
        journal := some { journal with phase := .rebuilding, partialNode := some id } } := by
  unfold Db.partialRebuildTx at ran
  by_cases nothing : journal.affected = []
  · rw [if_pos nothing] at ran
    cases ran
  · rw [if_neg nothing] at ran
    cases order : repairOrder db.derived journal.affected with
    | nil =>
        rw [order] at ran
        cases ran
    | cons first rest =>
        rw [order] at ran
        exact ⟨first.1, first.2, rest, rfl, (Except.ok.inj ran).symm⟩

theorem Db.repairTx_ok (ran : db.repairTx methods journal = .ok db') :
    ∃ derived, db.repairDerived methods journal = .ok derived ∧
      db' = { db with derived, journal := some { journal with phase := .repaired } } := by
  unfold Db.repairTx at ran
  cases repaired : db.repairDerived methods journal with
  | error error =>
      rw [repaired] at ran
      cases ran
  | ok derived =>
      rw [repaired] at ran
      exact ⟨derived, rfl, (Except.ok.inj ran).symm⟩

theorem Kept.run (kept : Kept initial db) {transaction : Transaction}
    (clear : transaction.Clear db) (ran : transaction.run methods db = .ok db') :
    Kept initial db' := by
  cases transaction with
  | enqueue request writer =>
      obtain ⟨finished, active, waiting, ledger⟩ := kept
      obtain ⟨waiting', ledger'⟩ := ledger.enqueue ran
      exact ⟨_, _, _, ledger'⟩
  | promote =>
      obtain rfl := Except.ok.inj ran
      exact kept.promote
  | apply caller =>
      unfold Transaction.run at ran
      obtain ⟨journal, held, phase, ran⟩ := Db.inPhase_ok ran
      obtain ⟨canonical, applied, rfl⟩ := Db.applyCanonicalTx_ok ran
      obtain ⟨canonical', applied', -, kept'⟩ :=
        kept.apply held (List.mem_singleton.mp phase) (Canonical.storable_of_apply applied)
      obtain rfl := Except.ok.inj (applied.symm.trans applied')
      exact kept'
  | invalidate caller =>
      unfold Transaction.run at ran
      obtain ⟨journal, held, phase, ran⟩ := Db.inPhase_ok ran
      have applied := List.mem_singleton.mp phase
      obtain rfl := Except.ok.inj ran
      exact kept.laterPhase held (fun prepared => nomatch applied.symm.trans prepared) (by nofun)
        (by rfl) (by rfl) _
  | partialRebuild =>
      unfold Transaction.run at ran
      obtain ⟨journal, held, phase, ran⟩ := Db.inPhase_ok ran
      have invalidated := List.mem_singleton.mp phase
      obtain ⟨kind, id, rest, -, rfl⟩ := Db.partialRebuildTx_ok ran
      exact kept.laterPhase held (fun prepared => nomatch invalidated.symm.trans prepared)
        (by nofun) (by rfl) (by rfl) _
  | repair caller =>
      unfold Transaction.run at ran
      obtain ⟨journal, held, phase, ran⟩ := Db.inPhase_ok ran
      obtain ⟨derived, -, rfl⟩ := Db.repairTx_ok ran
      have before : journal.phase ≠ .prepared := by
        intro prepared
        rw [prepared] at phase
        exact absurd phase (by decide)
      exact kept.laterPhase held before (by nofun) (by rfl) (by rfl) _
  | finalize =>
      unfold Transaction.run at ran
      obtain ⟨journal, held, phase, ran⟩ := Db.inPhase_ok ran
      have repaired := List.mem_singleton.mp phase
      obtain rfl := Except.ok.inj ran
      exact kept.deleteJournal held fun prepared => nomatch repaired.symm.trans prepared
  | finish =>
      simp only [Transaction.run] at ran
      cases held : db.journal with
      | none =>
          rw [held] at ran
          obtain rfl := Except.ok.inj ran
          exact kept
      | some journal =>
          rw [held] at ran
          obtain rfl := Except.ok.inj ran
          exact kept.deleteJournal held (clear rfl journal held)

theorem Kept.after (kept : Kept initial db) {transaction : Transaction}
    (clear : transaction.Clear db) : Kept initial (transaction.after methods db) := by
  unfold Transaction.after
  cases ran : transaction.run methods db with
  | ok db' => exact kept.run clear ran
  | error error => exact kept

/-! ### Runs -/

section Runs

variable {P : Type} [DecidableEq P] {offers : Transaction → Prop}
  {meets : Db → Transaction → Prop} {start system : System P} {action : Action P}

theorem System.act_db (methods : Methods) (system : System P) (action : Action P) :
    (system.act methods action).db =
      match system.pending action with
      | none => system.db
      | some transaction => transaction.after methods system.db := by
  cases action with
  | call process transaction => rfl
  | recover process => rfl
  | drainAll process => rfl
  | kill process => rfl
  | resume process =>
      simp only [System.act, System.pending, System.setCounter]
      cases counter : system.counter process with
      | idle => rfl
      | raised error => rfl
      | recoverStart draining =>
          simp only [Counter.resume, Counter.pending]
          cases system.db.journal <;> rfl
      | recoverAt phase draining =>
          simp only [Counter.resume, Counter.pending, Transaction.after]
          cases (Counter.transaction phase).run methods system.db <;> rfl
      | drainCheck =>
          simp only [Counter.resume, Counter.pending]
          cases system.db.journal <;> rfl
      | drainPromote =>
          simp only [Counter.resume, Counter.pending, Transaction.after, Transaction.run]
          rcases system.db.promoteNext methods with ⟨promotion, db'⟩
          cases promotion <;> rfl

/-- What a transaction preserves under the conditions of a run holds of every state reached. -/
theorem Run.invariant (holds : Db → Prop) (run : Run methods offers meets start system)
    (first : holds start.db)
    (next : ∀ db transaction, holds db →
      (∀ request writer, transaction = .enqueue request writer → offers transaction) →
      meets db transaction → holds (transaction.after methods db)) :
    holds system.db := by
  induction run with
  | start => exact first
  | @step system action before enabled offered met ih =>
      rw [System.act_db]
      cases pending : system.pending action with
      | none => exact ih
      | some transaction =>
          apply next system.db transaction ih ?_ (met transaction pending)
          rintro request writer rfl
          cases action with
          | call process called =>
              cases pending
              exact offered
          | resume process =>
              simp only [System.pending] at pending
              cases counter : system.counter process with
              | recoverAt phase draining =>
                  rw [counter] at pending
                  cases phase <;> cases pending
              | idle => rw [counter] at pending; cases pending
              | raised error => rw [counter] at pending; cases pending
              | recoverStart draining => rw [counter] at pending; cases pending
              | drainCheck => rw [counter] at pending; cases pending
              | drainPromote => rw [counter] at pending; cases pending
          | recover process => cases pending
          | drainAll process => cases pending
          | kill process => cases pending

theorem Run.kept (run : Run methods offers meets start system) (first : Kept initial start.db)
    (clear : ∀ db transaction, meets db transaction → transaction.Clear db) :
    Kept initial system.db :=
  run.invariant (Kept initial) first fun db transaction kept _ met =>
    kept.after (clear db transaction met)

end Runs

/-! ### Draining -/

/-- What else a store needs for the transactions of `recover` to succeed: `holds` is kept by them,
as far as the intents applied are `good`, and makes every application and repair succeed. -/
structure Working (methods : Methods) (holds good : Db → Prop) : Prop where
  promote : ∀ db, holds db → holds (db.promoteNext methods).2
  storable : ∀ db journal, holds db → good db → db.journal = some journal →
    journal.phase = .prepared → (∃ row ∈ db.queue, row.intent = journal.intent) →
    journal.intent.Storable
  apply : ∀ db journal canonical, holds db → good db → db.journal = some journal →
    journal.phase = .prepared → db.canonical.apply journal.intent = .ok canonical →
    holds ((db.withCanonical methods journal canonical).withPhase journal .canonicalApplied)
  invalidate : ∀ db journal, holds db → db.journal = some journal →
    journal.phase = .canonicalApplied → holds (db.invalidateTx methods journal)
  repair : ∀ db journal, holds db → db.journal = some journal →
    journal.phase = .invalidated ∨ journal.phase = .rebuilding →
    ∃ derived, db.repairDerived methods journal = .ok derived ∧
      holds { db with derived, journal := some { journal with phase := .repaired } }
  finish : ∀ db journal, holds db → db.journal = some journal → journal.phase = .repaired →
    holds (db.deleteJournal journal)

def Reaches (methods : Methods) (state state' : Counter × Db) : Prop :=
  ∃ rounds, (Counter.resume methods)^[rounds] state = state'

namespace Reaches

theorem refl (state : Counter × Db) : Reaches methods state state := ⟨0, rfl⟩

theorem trans {first second third : Counter × Db} (before : Reaches methods first second)
    (after : Reaches methods second third) : Reaches methods first third := by
  obtain ⟨rounds, rfl⟩ := before
  obtain ⟨more, rfl⟩ := after
  exact ⟨more + rounds, Function.iterate_add_apply _ _ _ _⟩

theorem step {state state' state'' : Counter × Db}
    (resumed : Counter.resume methods state = state') (after : Reaches methods state' state'') :
    Reaches methods state state'' := by
  obtain ⟨rounds, rfl⟩ := after
  exact ⟨rounds + 1, by rw [Function.iterate_succ_apply, resumed]⟩

end Reaches

/-- What an undisturbed process sees from here on satisfies `good`. -/
def Sees (methods : Methods) (good : Db → Prop) (state : Counter × Db) : Prop :=
  ∀ state', Reaches methods state state' → good state'.2

theorem Sees.after {good : Db → Prop} {state state' : Counter × Db} (sees : Sees methods good state)
    (reached : Reaches methods state state') : Sees methods good state' :=
  fun state'' onward => sees state'' (reached.trans onward)

section Recovery

variable {holds good : Db → Prop} {finished waiting : List QueueRow}
  {active : Option (QueueRow × Journal)} {row : QueueRow}

/-- The process comes back to the loop of `drain_all` with the row ended. -/
def Recovered (methods : Methods) (holds : Db → Prop) (initial : Canonical)
    (finished : List QueueRow) (row : QueueRow) (waiting : List QueueRow)
    (state : Counter × Db) : Prop :=
  ∃ db', Reaches methods state (.drainCheck, db') ∧ holds db' ∧
    Ledger initial db' (finished ++ [{ row with status := .done }]) none waiting

theorem Recovered.step {state state' : Counter × Db}
    (recovered : Recovered methods holds initial finished row waiting state')
    (resumed : Counter.resume methods state = state') :
    Recovered methods holds initial finished row waiting state := by
  obtain ⟨db', reached, rest⟩ := recovered
  exact ⟨db', reached.step resumed, rest⟩

theorem Working.from_repaired (working : Working methods holds good)
    (ledger : Ledger initial db finished (some (row, journal)) waiting) (held : holds db)
    (phase : journal.phase = .repaired) :
    Recovered methods holds initial finished row waiting (.recoverAt .repaired true, db) := by
  have journalled : db.journal = some journal := ledger.journal
  refine ⟨db.deleteJournal journal, .step ?_ (.refl _), working.finish db journal held journalled
    phase, ledger.deleteJournal fun prepared => nomatch phase.symm.trans prepared⟩
  simp only [Counter.resume, Counter.transaction, Transaction.run, journalled]
  rfl

theorem Working.from_invalidated (working : Working methods holds good)
    (ledger : Ledger initial db finished (some (row, journal)) waiting) (held : holds db)
    (phase : journal.phase = .invalidated ∨ journal.phase = .rebuilding) :
    Recovered methods holds initial finished row waiting (.recoverAt journal.phase true, db) := by
  have journalled : db.journal = some journal := ledger.journal
  have begun : journal.phase ≠ .prepared := by
    rcases phase with phase | phase <;> rw [phase] <;> nofun
  obtain ⟨derived, ran, held'⟩ := working.repair db journal held journalled phase
  have ledger' : Ledger initial
      { db with derived, journal := some { journal with phase := .repaired } } finished
      (some (row, { journal with phase := .repaired })) waiting :=
    ledger.laterPhase begun (by nofun) (by rfl) (by rfl) derived
  apply (working.from_repaired ledger' held' rfl).step
  rcases phase with phase | phase <;>
    simp only [phase, Counter.resume, Counter.transaction, Transaction.run, Db.inPhase, journalled,
      Db.repairTx, ran, List.mem_cons, true_or, or_true, if_true] <;>
    rfl

theorem Working.from_applied (working : Working methods holds good)
    (ledger : Ledger initial db finished (some (row, journal)) waiting) (held : holds db)
    (phase : journal.phase = .canonicalApplied) :
    Recovered methods holds initial finished row waiting (.recoverAt .canonicalApplied true, db) := by
  have journalled : db.journal = some journal := ledger.journal
  have held' := working.invalidate db journal held journalled phase
  have ledger' : Ledger initial (db.invalidateTx methods journal) finished
      (some (row, { journal with
        phase := .invalidated
        affected := (methods.invalidate db.canonical journal.intent db.derived).1
        partialNode := none })) waiting :=
    ledger.laterPhase (fun prepared => nomatch phase.symm.trans prepared) (by nofun) (by rfl)
      (by rfl) _
  apply (working.from_invalidated ledger' held' (Or.inl rfl)).step
  simp only [Counter.resume, Counter.transaction, Transaction.run, Db.inPhase, journalled, phase,
    List.mem_singleton, if_true]
  rfl

/-- A recovery that is not disturbed carries the journalled intent to its end, whatever its phase. -/
theorem Working.recovers (working : Working methods holds good)
    (ledger : Ledger initial db finished (some (row, journal)) waiting) (held : holds db)
    (now : good db) :
    Recovered methods holds initial finished row waiting (.recoverAt journal.phase true, db) := by
  cases phase : journal.phase with
  | prepared =>
      have journalled : db.journal = some journal := ledger.journal
      have queued : ∃ row ∈ db.queue, row.intent = journal.intent := by
        refine ⟨row, ?_, (ledger.linked row journal rfl).2.2.symm⟩
        rw [ledger.queue_active]
        exact List.mem_append_right _ List.mem_cons_self
      have storable := working.storable db journal held now journalled phase queued
      obtain ⟨canonical, applied, ran, ledger'⟩ := ledger.applyCanonicalTx phase storable methods
      have held' := working.apply db journal canonical held now journalled phase applied
      apply (working.from_applied ledger' held' rfl).step
      simp only [Counter.resume, Counter.transaction, Transaction.run, Db.inPhase, journalled, phase,
        List.mem_singleton, if_true, ran]
      rfl
  | canonicalApplied => exact working.from_applied ledger held phase
  | invalidated => exact phase ▸ working.from_invalidated ledger held (Or.inl phase)
  | rebuilding => exact phase ▸ working.from_invalidated ledger held (Or.inr phase)
  | repaired => exact working.from_repaired ledger held phase

/-- `drain_all` returns with every row ended. -/
def Drained (methods : Methods) (holds : Db → Prop) (initial : Canonical)
    (finished : List QueueRow) (db : Db) : Prop :=
  ∃ db' finished', Reaches methods (.drainCheck, db) (.idle, db') ∧ holds db' ∧
    finished <+: finished' ∧ Ledger initial db' finished' none []

theorem Drained.onward {finished' : List QueueRow}
    (drained : Drained methods holds initial finished' db') (longer : finished <+: finished')
    (reached : Reaches methods (.drainCheck, db) (.drainCheck, db')) :
    Drained methods holds initial finished db := by
  obtain ⟨db'', finished'', onward, held, prefixed, ledger⟩ := drained
  exact ⟨db'', finished'', reached.trans onward, held, longer.trans prefixed, ledger⟩

theorem resume_idle (idle : db.journal = none) :
    Counter.resume methods (.drainCheck, db) = (.drainPromote, db) := by
  simp only [Counter.resume, idle]

theorem resume_busy (busy : db.journal = some journal) :
    Counter.resume methods (.drainCheck, db) = (.recoverStart true, db) := by
  simp only [Counter.resume, busy]

theorem resume_start (busy : db.journal = some journal) :
    Counter.resume methods (.recoverStart true, db) = (.recoverAt journal.phase true, db) := by
  simp only [Counter.resume, busy]

theorem Working.drained_of_idle (working : Working methods holds good)
    (idle : ∀ db finished, Ledger initial db finished none waiting → holds db →
      Sees methods good (.drainCheck, db) → Drained methods holds initial finished db)
    (ledger : Ledger initial db finished active waiting) (held : holds db)
    (sees : Sees methods good (.drainCheck, db)) : Drained methods holds initial finished db := by
  cases active with
  | none => exact idle db finished ledger held sees
  | some pair =>
      obtain ⟨row, journal⟩ := pair
      have busy : db.journal = some journal := ledger.journal
      have now : good db := sees _ (.refl _)
      obtain ⟨db', reached, held', ledger'⟩ := working.recovers ledger held now
      have onward : Reaches methods (.drainCheck, db) (.drainCheck, db') :=
        .step (resume_busy busy) (.step (resume_start busy) reached)
      exact (idle db' _ ledger' held' (sees.after onward)).onward (List.prefix_append _ _) onward

theorem Working.drained (working : Working methods holds good)
    (ledger : Ledger initial db finished active waiting) (held : holds db)
    (sees : Sees methods good (.drainCheck, db)) : Drained methods holds initial finished db := by
  -- a promotion takes a row off those that wait, and a recovery takes none
  induction waiting generalizing db finished active with
  | nil =>
      apply working.drained_of_idle ?_ ledger held sees
      intro db finished ledger held sees
      have idle : db.journal = none := ledger.journal
      have found := ledger.find_waiting
      rw [List.head?_nil] at found
      refine ⟨db, finished, .step (resume_idle idle) (.step ?_ (.refl _)), held, List.prefix_rfl,
        ledger⟩
      simp only [Counter.resume, Db.promoteNext, idle, found]
  | cons next rest ih =>
      apply working.drained_of_idle ?_ ledger held sees
      intro db finished ledger held sees
      have idle : db.journal = none := ledger.journal
      have found := ledger.find_waiting
      rw [List.head?_cons] at found
      have held' := working.promote db held
      by_cases stale : db.version next.intent.writeKey ≠ next.baseVersion
      · have promoted : db.promoteNext methods = (.conflict next.seq, db.refuse next) := by
          simp only [Db.promoteNext, idle, found, if_pos stale]
        have onward : Reaches methods (.drainCheck, db) (.drainCheck, db.refuse next) := by
          refine .step (resume_idle idle) (.step ?_ (.refl _))
          simp only [Counter.resume, promoted]
        obtain ⟨row', ledger'⟩ := ledger.refuse
        rw [promoted] at held'
        exact (ih ledger' held' (sees.after onward)).onward (List.prefix_append _ _) onward
      · have promoted : db.promoteNext methods = (.active next.seq, db.activate methods next) := by
          simp only [Db.promoteNext, idle, found, if_neg stale]
        have onward : Reaches methods (.drainCheck, db) (.drainCheck, db.activate methods next) := by
          refine .step (resume_idle idle) (.step ?_ (.refl _))
          simp only [Counter.resume, promoted]
        rw [promoted] at held'
        exact (ih (ledger.activate methods (not_not.mp stale)) held' (sees.after onward)).onward
          List.prefix_rfl onward

/-! ### What a drained store says -/

/-- The part of a queue row that is fixed when its intent is admitted. -/
def QueueRow.admission (row : QueueRow) : Nat × Intent × Nat :=
  (row.seq, row.intent, row.baseVersion)

def Db.admitted (db : Db) : List (Nat × Intent × Nat) := db.queue.map QueueRow.admission

theorem admission_map {rows : List QueueRow} {change : QueueRow → QueueRow}
    (same : ∀ row, (change row).admission = row.admission) :
    (rows.map change).map QueueRow.admission = rows.map QueueRow.admission := by
  rw [List.map_map]
  exact List.map_congr_left fun row _ => same row

theorem Db.enqueue_ok {request : Request} {writer : Option String}
    (ran : db.enqueue request writer = .ok db') :
    ∃ intents rows, request.intents db.canonical = .ok intents ∧
      rows.map QueueRow.intent = intents ∧ db' = { db with queue := db.queue ++ rows } := by
  have every : ∀ (intents : List Intent) (db : Db), ∃ rows : List QueueRow,
      rows.map QueueRow.intent = intents ∧
        intents.foldl (fun db intent => db.enqueueTx writer intent) db =
          { db with queue := db.queue ++ rows } := by
    intro intents
    induction intents with
    | nil => exact fun db => ⟨[], rfl, by rw [List.append_nil]; rfl⟩
    | cons intent intents ih =>
        intro db
        obtain ⟨rows, same, final⟩ := ih (db.enqueueTx writer intent)
        refine ⟨db.queuedRow writer intent :: rows, by rw [List.map_cons, same]; rfl, ?_⟩
        rw [List.foldl_cons, final, Db.enqueueTx, List.append_assoc, List.singleton_append]
  unfold Db.enqueue at ran
  cases asked : request.intents db.canonical with
  | error error =>
      rw [asked] at ran
      cases ran
  | ok intents =>
      rw [asked] at ran
      obtain rfl := Except.ok.inj ran
      obtain ⟨rows, same, final⟩ := every intents db
      exact ⟨intents, rows, rfl, same, final⟩

theorem promoteNext_rows (methods : Methods) (db : Db) :
    (db.promoteNext methods).2.canonical = db.canonical ∧
      (db.promoteNext methods).2.derived = db.derived := by
  unfold Db.promoteNext
  cases db.journal with
  | some journal => exact ⟨rfl, rfl⟩
  | none =>
      cases db.queue.find? fun row => decide (row.status = .queued) with
      | none => exact ⟨rfl, rfl⟩
      | some row =>
          by_cases stale : db.version row.intent.writeKey ≠ row.baseVersion
          · simp only [if_pos stale]
            exact ⟨rfl, rfl⟩
          · simp only [if_neg stale]
            exact ⟨rfl, rfl⟩

theorem promoteNext_admitted (methods : Methods) (db : Db) :
    (db.promoteNext methods).2.admitted = db.admitted := by
  unfold Db.promoteNext
  cases db.journal with
  | some journal => rfl
  | none =>
      cases db.queue.find? fun row => decide (row.status = .queued) with
      | none => rfl
      | some row =>
          by_cases stale : db.version row.intent.writeKey ≠ row.baseVersion
          · simp only [if_pos stale]
            apply admission_map
            intro other
            split_ifs <;> rfl
          · simp only [if_neg stale]
            apply admission_map
            intro other
            split_ifs <;> rfl

theorem deleteJournal_admitted (db : Db) (journal : Journal) :
    (db.deleteJournal journal).admitted = db.admitted := by
  apply admission_map
  intro row
  split_ifs <;> rfl

/-- Only an admission changes what is admitted. -/
theorem run_admitted {transaction : Transaction}
    (other : ∀ request writer, transaction ≠ .enqueue request writer)
    (ran : transaction.run methods db = .ok db') : db'.admitted = db.admitted := by
  cases transaction with
  | enqueue request writer => exact absurd rfl (other request writer)
  | promote =>
      obtain rfl := Except.ok.inj ran
      exact promoteNext_admitted methods db
  | apply caller =>
      unfold Transaction.run at ran
      obtain ⟨journal, held, phase, ran⟩ := Db.inPhase_ok ran
      obtain ⟨canonical, -, rfl⟩ := Db.applyCanonicalTx_ok ran
      rfl
  | invalidate caller =>
      unfold Transaction.run at ran
      obtain ⟨journal, held, phase, ran⟩ := Db.inPhase_ok ran
      obtain rfl := Except.ok.inj ran
      rfl
  | partialRebuild =>
      unfold Transaction.run at ran
      obtain ⟨journal, held, phase, ran⟩ := Db.inPhase_ok ran
      obtain ⟨kind, id, rest, -, rfl⟩ := Db.partialRebuildTx_ok ran
      rfl
  | repair caller =>
      unfold Transaction.run at ran
      obtain ⟨journal, held, phase, ran⟩ := Db.inPhase_ok ran
      obtain ⟨derived, -, rfl⟩ := Db.repairTx_ok ran
      rfl
  | finalize =>
      unfold Transaction.run at ran
      obtain ⟨journal, held, phase, ran⟩ := Db.inPhase_ok ran
      obtain rfl := Except.ok.inj ran
      exact deleteJournal_admitted db journal
  | finish =>
      simp only [Transaction.run] at ran
      cases held : db.journal with
      | none =>
          rw [held] at ran
          obtain rfl := Except.ok.inj ran
          rfl
      | some journal =>
          rw [held] at ran
          obtain rfl := Except.ok.inj ran
          exact deleteJournal_admitted db journal

/-- Only the application of an intent changes the canonical rows. -/
theorem run_canonical {transaction : Transaction} (other : ∀ caller, transaction ≠ .apply caller)
    (ran : transaction.run methods db = .ok db') : db'.canonical = db.canonical := by
  cases transaction with
  | enqueue request writer =>
      obtain ⟨intents, rows, -, -, rfl⟩ := Db.enqueue_ok ran
      rfl
  | promote =>
      obtain rfl := Except.ok.inj ran
      exact (promoteNext_rows methods db).1
  | apply caller => exact absurd rfl (other caller)
  | invalidate caller =>
      unfold Transaction.run at ran
      obtain ⟨journal, held, phase, ran⟩ := Db.inPhase_ok ran
      obtain rfl := Except.ok.inj ran
      rfl
  | partialRebuild =>
      unfold Transaction.run at ran
      obtain ⟨journal, held, phase, ran⟩ := Db.inPhase_ok ran
      obtain ⟨kind, id, rest, -, rfl⟩ := Db.partialRebuildTx_ok ran
      rfl
  | repair caller =>
      unfold Transaction.run at ran
      obtain ⟨journal, held, phase, ran⟩ := Db.inPhase_ok ran
      obtain ⟨derived, -, rfl⟩ := Db.repairTx_ok ran
      rfl
  | finalize =>
      unfold Transaction.run at ran
      obtain ⟨journal, held, phase, ran⟩ := Db.inPhase_ok ran
      obtain rfl := Except.ok.inj ran
      rfl
  | finish =>
      simp only [Transaction.run] at ran
      cases held : db.journal with
      | none =>
          rw [held] at ran
          obtain rfl := Except.ok.inj ran
          rfl
      | some journal =>
          rw [held] at ran
          obtain rfl := Except.ok.inj ran
          rfl

theorem resume_admitted (methods : Methods) (state : Counter × Db) :
    (Counter.resume methods state).2.admitted = state.2.admitted := by
  obtain ⟨counter, db⟩ := state
  cases counter with
  | idle => rfl
  | raised error => rfl
  | recoverStart draining =>
      simp only [Counter.resume]
      cases db.journal <;> rfl
  | recoverAt phase draining =>
      simp only [Counter.resume]
      cases ran : (Counter.transaction phase).run methods db with
      | error error => rfl
      | ok db' =>
          apply run_admitted ?_ ran
          intro request writer same
          cases phase <;> cases same
  | drainCheck =>
      simp only [Counter.resume]
      cases db.journal <;> rfl
  | drainPromote =>
      have same := promoteNext_admitted methods db
      simp only [Counter.resume]
      rcases promoted : db.promoteNext methods with ⟨promotion, db'⟩
      rw [promoted] at same
      cases promotion <;> exact same

theorem Reaches.admitted {state state' : Counter × Db} (reached : Reaches methods state state') :
    state'.2.admitted = state.2.admitted := by
  obtain ⟨rounds, rfl⟩ := reached
  induction rounds with
  | zero => rfl
  | succ rounds ih => rw [Function.iterate_succ_apply', resume_admitted, ih]

/-- The intents of the rows with a final status that says they were carried out. -/
def Db.doneIntents (db : Db) : List Intent :=
  (db.queue.filter fun row => decide (row.status = .done)).map QueueRow.intent

/-- What is left to say of a store with nothing under way: what became of each intent, and what the
canonical rows are. -/
structure Settled (fits : Canonical → Intent → Prop) (initial : Canonical) (db : Db) : Prop where
  idle : db.journal = none
  ended : ∀ row ∈ db.queue, row.status = .done ∨ row.status = .conflict
  once : ∀ row ∈ db.queue, db.ended.count row.seq = 1
  applied : ∀ row ∈ db.queue,
    db.applied.count row.seq = if row.status = .done then 1 else 0
  exclusive : ∀ row ∈ db.queue, ∀ other ∈ db.queue, row.status = .done → other.status = .done →
    row.writeKey = other.writeKey → row.baseVersion = other.baseVersion → row = other
  replayed : Replayed fits initial db.doneIntents db.canonical

theorem Settled.mono {fits fits' : Canonical → Intent → Prop} (settled : Settled fits initial db)
    (wider : ∀ row ∈ db.queue, ∀ canonical, fits canonical row.intent → fits' canonical row.intent) :
    Settled fits' initial db := by
  refine { settled with replayed := settled.replayed.mono ?_ }
  intro intent member
  obtain ⟨row, done, rfl⟩ := List.mem_map.mp member
  exact wider row (List.mem_filter.mp done).1

theorem Ledger.settled (ledger : Ledger initial db finished none []) :
    Settled Faithful initial db := by
  have queue : db.queue = finished := by
    rw [ledger.queue, Option.map_none, Option.toList_none, List.append_nil, List.append_nil]
  have same : carried finished none =
      db.queue.filter fun row => decide (row.status = .done) := by
    rw [queue]
    simp [carried]
  have distinct : (db.queue.map QueueRow.seq).Nodup := ledger.seqs ▸ List.nodup_range'
  have apart : ∀ row ∈ db.queue, ∀ other ∈ db.queue, row.seq = other.seq → row = other :=
    fun row member other member' => List.inj_on_of_nodup_map distinct member member'
  have ended := ledger.ended
  have applied := ledger.applied
  have bases := ledger.bases
  have replayed := ledger.replayed
  rw [← queue] at ended
  rw [same] at applied bases replayed
  constructor
  case idle => exact ledger.journal
  case ended => exact queue ▸ ledger.finished_status
  case once =>
    intro row member
    rw [ended]
    exact List.count_eq_one_of_mem distinct (List.mem_map_of_mem member)
  case applied =>
    intro row member
    rw [applied]
    split_ifs with status
    · apply List.count_eq_one_of_mem (distinct.sublist (List.Sublist.map _ List.filter_sublist))
      exact List.mem_map_of_mem (List.mem_filter.mpr ⟨member, decide_eq_true status⟩)
    · apply List.count_eq_zero_of_not_mem
      intro present
      obtain ⟨other, carriedOut, sameSeq⟩ := List.mem_map.mp present
      obtain ⟨member', done⟩ := List.mem_filter.mp carriedOut
      rw [apart other member' row member sameSeq] at done
      exact status (of_decide_eq_true done)
  case exclusive =>
    intro row member other member' done done' sameKey sameBase
    by_contra different
    have first : row ∈ db.queue.filter fun row => decide (row.status = .done) :=
      List.mem_filter.mpr ⟨member, decide_eq_true done⟩
    have second : other ∈ db.queue.filter fun row => decide (row.status = .done) :=
      List.mem_filter.mpr ⟨member', decide_eq_true done'⟩
    have symmetric : Std.Symm fun row other : QueueRow =>
        row.writeKey = other.writeKey → row.baseVersion ≠ other.baseVersion :=
      ⟨fun _ _ apart same base => apart same.symm base.symm⟩
    exact bases.forall first second different sameKey sameBase
  case replayed => exact replayed

end Recovery

theorem resume_iterate_idle (methods : Methods) (db : Db) (rounds : Nat) :
    (Counter.resume methods)^[rounds] (.idle, db) = (.idle, db) := by
  induction rounds with
  | zero => rfl
  | succ rounds ih => rw [Function.iterate_succ_apply]; exact ih

/-- `drain_all` returns one set of tables. -/
theorem Drains.unique {db'' : Db} (first : Drains methods db db') (second : Drains methods db db'') :
    db' = db'' := by
  obtain ⟨rounds, first⟩ := first
  obtain ⟨rounds', second⟩ := second
  have same : ((Counter.idle, db') : Counter × Db) = (.idle, db'') := by
    rw [← resume_iterate_idle methods db' rounds', ← resume_iterate_idle methods db'' rounds, ← first,
      ← second, ← Function.iterate_add_apply, ← Function.iterate_add_apply, Nat.add_comm]
  exact congrArg Prod.snd same

end DurableContext.Maintenance
