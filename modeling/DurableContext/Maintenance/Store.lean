import DurableContext.Lib.Program
import DurableContext.Maintenance.Derived

/-! A store that admits intents to a queue and carries out one of them at a time: its tables, its
transactions, and the processes that run them.

Every transaction is atomic: it returns the tables it leaves, or it raises and leaves them as they
were. A process keeps the phase it has read in a variable of its own while others run
transactions. -/

namespace DurableContext.Maintenance

inductive Phase where
  | prepared
  | canonicalApplied
  | invalidated
  | rebuilding
  | repaired
  deriving DecidableEq

def Phase.text : Phase → String
  | prepared => "prepared"
  | canonicalApplied => "canonical_applied"
  | invalidated => "invalidated"
  | rebuilding => "rebuilding"
  | repaired => "repaired"

inductive QueueStatus where
  | queued
  | active
  | done
  | conflict
  deriving DecidableEq

structure QueueRow where
  seq : Nat
  intent : Intent
  status : QueueStatus
  baseVersion : Nat
  readKeys : List String
  writer : Option String
  conflictReason : Option String
  deriving DecidableEq

/-- The intent that is being carried out, named by its place in the queue. -/
structure Journal where
  seq : Nat
  intent : Intent
  phase : Phase
  affected : List NodeId
  partialNode : Option NodeId
  deriving DecidableEq

/-- The tables. `applied` and `ended` are no tables: they record which intents were applied to the
canonical rows and which were given a final status, one entry each time it happens. -/
structure Db where
  canonical : Canonical
  derived : Derived
  versions : Table WriteKey Nat
  queue : List QueueRow
  journal : Option Journal
  applied : List Nat
  ended : List Nat

/-- What the classes of the store override. -/
structure Methods where
  syncKeys : Canonical → Intent → Derived → Derived
  invalidate : Canonical → Intent → Derived → List NodeId × Derived
  rebuildNode : Canonical → NodeId → Derived → Except Raised Derived
  promotedReadKeys : Canonical → QueueRow → List String

namespace Db

def version (db : Db) (key : WriteKey) : Nat := (db.versions.lookup key).getD 0

def withPhase (db : Db) (journal : Journal) (phase : Phase) : Db :=
  { db with journal := some { journal with phase } }

/-! ### Admission and promotion -/

def queuedRow (db : Db) (writer : Option String) (intent : Intent) : QueueRow where
  seq := db.queue.length + 1
  intent
  status := .queued
  baseVersion := db.version intent.writeKey
  readKeys := queueReadKeys db.canonical intent
  writer
  conflictReason := none

def enqueueTx (db : Db) (writer : Option String) (intent : Intent) : Db :=
  { db with queue := db.queue ++ [db.queuedRow writer intent] }

def enqueue (request : Request) (writer : Option String) (db : Db) : Except Raised Db := do
  let intents ← request.intents db.canonical
  return intents.foldl (fun db intent => db.enqueueTx writer intent) db

inductive Promotion where
  | empty
  | busy (seq : Nat)
  | conflict (seq : Nat)
  | active (seq : Nat)
  deriving DecidableEq

def conflictReason (base current : Nat) : String :=
  "base_version=" ++ toString base ++ " current_version=" ++ toString current

/-- The record of a row was overwritten since the row was admitted. -/
def refuse (db : Db) (row : QueueRow) : Db :=
  let reason := conflictReason row.baseVersion (db.version row.intent.writeKey)
  { db with
    queue := db.queue.map fun other =>
      if other.seq = row.seq then
        { other with status := .conflict, conflictReason := some reason }
      else other
    ended := db.ended ++ [row.seq] }

def activate (methods : Methods) (db : Db) (row : QueueRow) : Db :=
  let readKeys := methods.promotedReadKeys db.canonical row
  { db with
    queue := db.queue.map fun other =>
      if other.seq = row.seq then { other with status := .active, readKeys } else other
    journal := some ⟨row.seq, row.intent, .prepared, [], none⟩ }

def promoteNext (methods : Methods) (db : Db) : Promotion × Db :=
  match db.journal with
  | some journal => (.busy journal.seq, db)
  | none =>
      match db.queue.find? fun row => decide (row.status = .queued) with
      | none => (.empty, db)
      | some row =>
          if db.version row.intent.writeKey ≠ row.baseVersion then (.conflict row.seq, db.refuse row)
          else (.active row.seq, db.activate methods row)

/-! ### The phases of an intent -/

/-- The tables with the intent's canonical rows, one version on. -/
def withCanonical (methods : Methods) (db : Db) (journal : Journal) (canonical : Canonical) : Db :=
  let key := journal.intent.writeKey
  { db with
    canonical
    derived := methods.syncKeys canonical journal.intent db.derived
    versions := db.versions.insert key (db.version key + 1)
    applied := db.applied ++ [journal.seq] }

def applyCanonicalTx (methods : Methods) (db : Db) (journal : Journal) : Except Raised Db :=
  if db.queue.any fun row => decide (row.seq = journal.seq ∧ row.status = .active) then
    (db.canonical.apply journal.intent).map (db.withCanonical methods journal)
  else
    .error (.runtimeError "v0.10 canonical apply requires an ACTIVE queue-backed intent")

def invalidateTx (methods : Methods) (db : Db) (journal : Journal) : Db :=
  let (affected, derived) := methods.invalidate db.canonical journal.intent db.derived
  { db with
    derived
    journal := some { journal with phase := .invalidated, affected, partialNode := none } }

def partialRebuildTx (db : Db) (journal : Journal) : Except Raised Db :=
  if journal.affected = [] then
    .error (.runtimeError "no affected node for partial rebuild")
  else
    match repairOrder db.derived journal.affected with
    | [] => .error (.runtimeError "affected nodes disappeared before partial rebuild")
    | (_, id) :: _ =>
        .ok { db with
          derived := db.derived.setRow id fun row =>
            { row with status := .rebuilding, value := .partialRebuild }
          journal := some { journal with phase := .rebuilding, partialNode := some id } }

def repairDerived (methods : Methods) (db : Db) (journal : Journal) : Except Raised Derived :=
  let derived :=
    if journal.phase = .rebuilding then db.derived.invalidate journal.affected else db.derived
  (repairOrder derived journal.affected).foldlM
    (fun derived row => methods.rebuildNode db.canonical row.2 derived) derived

def repairTx (methods : Methods) (db : Db) (journal : Journal) : Except Raised Db :=
  (db.repairDerived methods journal).map fun derived =>
    { db with derived, journal := some { journal with phase := .repaired } }

/-- Deleting the intent from the journal fires the trigger that ends it in the queue. -/
def deleteJournal (db : Db) (journal : Journal) : Db :=
  let finishes := fun row : QueueRow => decide (row.seq = journal.seq ∧ row.status = .active)
  { db with
    journal := none
    queue := db.queue.map fun row => if finishes row then { row with status := .done } else row
    ended := db.ended ++ (db.queue.filter finishes).map QueueRow.seq }

end Db

/-- Who asks for a phase: a caller of that phase alone, or `recover`. -/
inductive Caller where
  | direct
  | recover
  deriving DecidableEq

/-- What a phase raises when the journal is in another one, or empty. -/
def Caller.refusal (caller : Caller) (direct : String) : Raised :=
  match caller with
  | .direct => .runtimeError direct
  | .recover => .runtimeError "journal phase changed unexpectedly"

inductive Transaction where
  | enqueue (request : Request) (writer : Option String)
  | promote
  | apply (caller : Caller)
  | invalidate (caller : Caller)
  | partialRebuild
  | repair (caller : Caller)
  | finalize
  /-- The last transaction of `recover`, which deletes whatever intent it finds. -/
  | finish
  deriving DecidableEq

/-- Carry out `body` on the journalled intent if it is in one of the expected phases. -/
def Db.inPhase (expected : List Phase) (refusal : Option Phase → Raised)
    (body : Db → Journal → Except Raised Db) (db : Db) : Except Raised Db :=
  match db.journal with
  | none => .error (refusal none)
  | some journal =>
      if journal.phase ∈ expected then body db journal else .error (refusal (some journal.phase))

def applyRefusal (caller : Caller) : Option Phase → Raised
  | none => caller.refusal "no maintenance intent"
  | some phase => caller.refusal ("canonical apply requires PREPARED, got " ++ phase.text)

namespace Transaction

variable (methods : Methods)

def run : Transaction → Db → Except Raised Db
  | enqueue request writer, db => db.enqueue request writer
  | promote, db => .ok (db.promoteNext methods).2
  | apply caller, db =>
      db.inPhase [.prepared] (applyRefusal caller) fun db journal => do
        return (← db.applyCanonicalTx methods journal).withPhase journal .canonicalApplied
  | invalidate caller, db =>
      db.inPhase [.canonicalApplied] (fun _ => caller.refusal "CANONICAL_APPLIED intent required")
        fun db journal => .ok (db.invalidateTx methods journal)
  | partialRebuild, db =>
      db.inPhase [.invalidated] (fun _ => .runtimeError "INVALIDATED intent required")
        Db.partialRebuildTx
  | repair caller, db =>
      db.inPhase [.invalidated, .rebuilding]
        (fun _ => caller.refusal "INVALIDATED or REBUILDING intent required")
        (Db.repairTx methods)
  | finalize, db =>
      db.inPhase [.repaired] (fun _ => .runtimeError "REPAIRED intent required")
        fun db journal => .ok (db.deleteJournal journal)
  | finish, db =>
      match db.journal with
      | none => .ok db
      | some journal => .ok (db.deleteJournal journal)

/-- The tables after the transaction, which a raise leaves alone. -/
def after (transaction : Transaction) (db : Db) : Db :=
  match transaction.run methods db with
  | .ok db' => db'
  | .error _ => db

end Transaction

/-! ### Processes -/

/-- Where a process stands between two transactions, in `recover` or in `drain_all`, which calls
it. -/
inductive Counter where
  | idle
  | raised (error : Raised)
  | recoverStart (draining : Bool)
  | recoverAt (phase : Phase) (draining : Bool)
  | drainCheck
  | drainPromote
  deriving DecidableEq

namespace Counter

/-- Where `recover` returns to. -/
def afterRecover (draining : Bool) : Counter := if draining then drainCheck else idle

/-- The transaction of `recover` for the phase it has in its variable. -/
def transaction : Phase → Transaction
  | .prepared => .apply .recover
  | .canonicalApplied => .invalidate .recover
  | .invalidated => .repair .recover
  | .rebuilding => .repair .recover
  | .repaired => .finish

def next (draining : Bool) : Phase → Counter
  | .prepared => recoverAt .canonicalApplied draining
  | .canonicalApplied => recoverAt .invalidated draining
  | .invalidated => recoverAt .repaired draining
  | .rebuilding => recoverAt .repaired draining
  | .repaired => afterRecover draining

def resume (methods : Methods) : Counter × Db → Counter × Db
  | (idle, db) => (idle, db)
  | (raised error, db) => (raised error, db)
  | (recoverStart draining, db) =>
      match db.journal with
      | none => (afterRecover draining, db)
      | some journal => (recoverAt journal.phase draining, db)
  | (recoverAt phase draining, db) =>
      match (transaction phase).run methods db with
      | .ok db' => (next draining phase, db')
      | .error error => (raised error, db)
  | (drainCheck, db) =>
      match db.journal with
      | none => (drainPromote, db)
      | some _ => (recoverStart true, db)
  | (drainPromote, db) =>
      match db.promoteNext methods with
      | (.empty, db') => (idle, db')
      | (_, db') => (drainCheck, db')

def pending : Counter → Option Transaction
  | recoverAt phase _ => some (transaction phase)
  | drainPromote => some .promote
  | _ => none

/-- A process that is in no call. -/
def Resting : Counter → Prop
  | idle => True
  | raised _ => True
  | _ => False

end Counter

/-- `drain_all` returns `db'` when no other process runs. -/
def Drains (methods : Methods) (db db' : Db) : Prop :=
  ∃ rounds, (Counter.resume methods)^[rounds] (.drainCheck, db) = (.idle, db')

structure System (P : Type) where
  db : Db
  counter : P → Counter

/-- What happens next: a call of one transaction, the first step of `recover` or `drain_all`, another
step of a call, or the end of a process. -/
inductive Action (P : Type) where
  | call (process : P) (transaction : Transaction)
  | recover (process : P)
  | drainAll (process : P)
  | resume (process : P)
  | kill (process : P)

namespace System

variable {P : Type} [DecidableEq P] (methods : Methods)

def setCounter (system : System P) (process : P) (counter : Counter) : System P :=
  { system with counter := Function.update system.counter process counter }

def Enabled (system : System P) : Action P → Prop
  | .call process transaction => (system.counter process).Resting ∧ transaction ≠ .finish
  | .recover process => (system.counter process).Resting
  | .drainAll process => (system.counter process).Resting
  | .resume _ => True
  | .kill _ => True

def pending (system : System P) : Action P → Option Transaction
  | .call _ transaction => some transaction
  | .resume process => (system.counter process).pending
  | _ => none

def act (system : System P) : Action P → System P
  | .call _ transaction => { system with db := transaction.after methods system.db }
  | .recover process => system.setCounter process (.recoverStart false)
  | .drainAll process => system.setCounter process .drainCheck
  | .resume process =>
      let (counter, db) := Counter.resume methods (system.counter process, system.db)
      { system with db }.setCounter process counter
  | .kill process => system.setCounter process .idle

end System

/-- An action is a call that `offers`, or no call. -/
def Action.Offered {P : Type} (offers : Transaction → Prop) : Action P → Prop
  | .call _ transaction => offers transaction
  | _ => True

section Runs

variable {P : Type} [DecidableEq P] (methods : Methods) (offers : Transaction → Prop)
  (meets : Db → Transaction → Prop)

/-- Any number of actions, each of a call that `offers` and in a state that `meets` a condition on
the transaction it runs. -/
inductive Run (start : System P) : System P → Prop where
  | start : Run start start
  | step {system : System P} {action : Action P} (before : Run start system)
      (enabled : system.Enabled action) (offered : action.Offered offers)
      (met : ∀ transaction ∈ system.pending action, meets system.db transaction) :
      Run start (system.act methods action)

/-- The conditions of a run along a list of actions. -/
def System.Performs (system : System P) : List (Action P) → Prop
  | [] => True
  | action :: rest =>
      (system.Enabled action ∧ action.Offered offers ∧
        ∀ transaction ∈ system.pending action, meets system.db transaction) ∧
      (system.act methods action).Performs rest

def System.perform (system : System P) (actions : List (Action P)) : System P :=
  actions.foldl (fun system action => system.act methods action) system

variable {methods offers meets}

theorem Run.perform {start system : System P} {actions : List (Action P)}
    (run : Run methods offers meets start system)
    (performs : system.Performs methods offers meets actions) :
    Run methods offers meets start (system.perform methods actions) := by
  induction actions generalizing system with
  | nil => exact run
  | cons action rest ih =>
      obtain ⟨⟨enabled, offered, met⟩, performs⟩ := performs
      exact ih (run.step enabled offered met) performs

end Runs

instance : DecidablePred Counter.Resting := fun counter =>
  match counter with
  | .idle => isTrue trivial
  | .raised _ => isTrue trivial
  | .recoverStart _ => isFalse id
  | .recoverAt _ _ => isFalse id
  | .drainCheck => isFalse id
  | .drainPromote => isFalse id

instance {P : Type} (system : System P) (action : Action P) :
    Decidable (system.Enabled action) :=
  match action with
  | .call process transaction =>
      inferInstanceAs (Decidable ((system.counter process).Resting ∧ transaction ≠ .finish))
  | .recover process => inferInstanceAs (Decidable (system.counter process).Resting)
  | .drainAll process => inferInstanceAs (Decidable (system.counter process).Resting)
  | .resume _ => isTrue trivial
  | .kill _ => isTrue trivial

instance {P : Type} (offers : Transaction → Prop) [DecidablePred offers] (action : Action P) :
    Decidable (action.Offered offers) :=
  match action with
  | .call _ transaction => inferInstanceAs (Decidable (offers transaction))
  | .recover _ => isTrue trivial
  | .drainAll _ => isTrue trivial
  | .resume _ => isTrue trivial
  | .kill _ => isTrue trivial

instance instDecidablePerforms {P : Type} [DecidableEq P] (methods : Methods) (offers : Transaction → Prop)
    [DecidablePred offers] (meets : Db → Transaction → Prop)
    [∀ db transaction, Decidable (meets db transaction)] (system : System P) :
    (actions : List (Action P)) → Decidable (system.Performs methods offers meets actions)
  | [] => isTrue trivial
  | action :: rest =>
      have := instDecidablePerforms methods offers meets (system.act methods action) rest
      inferInstanceAs (Decidable ((system.Enabled action ∧ action.Offered offers ∧
        ∀ transaction ∈ system.pending action, meets system.db transaction) ∧
        (system.act methods action).Performs methods offers meets rest))

end DurableContext.Maintenance
