import DurableContext.Maintenance.MultiIntent

/-! The stores whose subject profiles only say which predicates are live: growth into missing rows,
the head of every cell, profiles as manifests, and profiles as descriptors with membership rows. -/

namespace DurableContext.Maintenance

/-! ### Growth -/

namespace GrowthAware

def candidateGrowthSpecs : Intent → List (NodeId × DerivedRow)
  | .upsertAssertion item previous =>
      if previous.any fun old => decide (old.key = item.key) then []
      else
        let obligation := fun kind predicate =>
          DerivedRow.mk kind item.subjectId predicate .invalid .materializationObligation
        [(.profile item.subjectId, obligation .profile none),
          (.state item.key, obligation .state (some item.predicate)),
          (.support item.key, obligation .support (some item.predicate)),
          (.context item.key, obligation .context (some item.predicate))]
  | _ => []

def growthSpecs (derived : Derived) (intent : Intent) : List (NodeId × DerivedRow) :=
  (candidateGrowthSpecs intent).filter fun spec => decide (spec.1 ∉ derived.nodes)

def ensureGrowthNodes (derived : Derived) (specs : List (NodeId × DerivedRow)) : Derived :=
  { derived with
    nodes := specs.foldl
      (fun nodes spec => if spec.1 ∈ nodes then nodes else nodes.insert spec.1 spec.2)
      derived.nodes }

end GrowthAware

/-! ### Heads -/

namespace HeadIndexed

def cellKeys (canonical : Canonical) : List CellKey := (canonical.rows.map Assertion.key).dedup

def headIndex (canonical : Canonical) : Table CellKey String :=
  Table.tabulate (fun key => (canonical.latestAssertion key).map Assertion.id) (cellKeys canonical)

def rebuildHeadIndex (canonical : Canonical) (derived : Derived) : Derived :=
  { derived with heads := headIndex canonical }

def refreshHead (canonical : Canonical) (derived : Derived) (key : CellKey) : Derived :=
  match canonical.latestAssertion key with
  | none => { derived with heads := derived.heads.erase key }
  | some item => { derived with heads := derived.heads.insert key item.id }

def syncHeads (canonical : Canonical) (intent : Intent) (derived : Derived) : Derived :=
  intent.cells.dedup.foldl (refreshHead canonical) derived

def headIndexMatchesCanonical (db : Db) : Prop :=
  Table.Same db.derived.heads (headIndex db.canonical)

instance (db : Db) : Decidable (headIndexMatchesCanonical db) :=
  inferInstanceAs (Decidable (Table.Same _ _))

end HeadIndexed

/-! ### Profiles -/

/-- What a subject's profile row holds and depends on. -/
abbrev Materialization := Option (DerivedValue × List NodeId)

structure ProfileScheme where
  /-- From the heads. -/
  materialization : Derived → String → Materialization
  /-- From the canonical rows, in a clean rebuild. -/
  clean : Canonical → String → Materialization
  /-- The membership rows follow the heads. -/
  keepsMembership : Bool

namespace PredicateSchema

def rebuildNode (scheme : ProfileScheme) (canonical : Canonical) (id : NodeId) (derived : Derived) :
    Except Raised Derived :=
  match id with
  | .profile _ =>
      match derived.nodes.lookup id with
      | none => .ok derived
      | some row =>
          .ok (SQLiteRecovery.rebuildProfile (scheme.materialization derived row.subject) id
            row.subject derived)
  | id => SQLiteRecovery.rebuildNode canonical id derived

end PredicateSchema

def distinct (texts : List String) : List String := texts.dedup.insertionSort (· ≤ ·)

namespace Compositional

def predicatesOf (heads : Table CellKey String) (subject : String) : List String :=
  distinct ((heads.keys.filter fun key => decide (key.1 = subject)).map Prod.snd)

def manifest (subject : String) (predicates : List String) : Materialization :=
  if predicates = [] then none
  else
    some (.manifest subject predicates,
      predicates.map fun predicate => .predicatePresence (subject, predicate))

def livePredicates (canonical : Canonical) (subject : String) : List String :=
  distinct ((canonical.rows.filter fun row => decide (row.subjectId = subject)).map
    Assertion.predicate)

def scheme : ProfileScheme where
  materialization derived subject := manifest subject (predicatesOf derived.heads subject)
  clean canonical subject := manifest subject (livePredicates canonical subject)
  keepsMembership := false

def predicateCount (canonical : Canonical) (key : CellKey) : Nat :=
  (canonical.assertionsOf key).length

/-- The subjects that gained or lost a predicate by the intent, which has been applied. -/
def manifestChangedSubjects (canonical : Canonical) : Intent → List String
  | .upsertEvidence _ _ => []
  | .upsertAssertion item previous =>
      if previous.any fun old => decide (old.key = item.key) then []
      else
        (previous.toList.filterMap fun old =>
          if predicateCount canonical old.key = 0 then some old.subjectId else none) ++
        if predicateCount canonical item.key = 1 then [item.subjectId] else []
  | .deleteAssertion _ previous =>
      if predicateCount canonical previous.key = 0 then [previous.subjectId] else []

def affected (canonical : Canonical) (intent : Intent) (derived : Derived) : List NodeId :=
  let changed := (manifestChangedSubjects canonical intent).map NodeId.profile
  let region := (SQLiteRecovery.affected derived intent).filter fun id =>
    !id.isProfile || decide (id ∈ changed)
  inOrder (region ++ (GrowthAware.growthSpecs derived intent).map Prod.fst).dedup

def invalidate (canonical : Canonical) (intent : Intent) (derived : Derived) :
    List NodeId × Derived :=
  let affected := affected canonical intent derived
  (affected,
    (GrowthAware.ensureGrowthNodes derived (GrowthAware.growthSpecs derived intent)).invalidate
      affected)

/-- Rewrite the profile of every subject that has a head. -/
def rewriteAllProfiles (scheme : ProfileScheme) (derived : Derived) : Derived :=
  (distinct (derived.heads.keys.map Prod.fst)).foldl
    (fun derived subject =>
      match scheme.materialization derived subject with
      | none => derived
      | some (value, dependencies) =>
          derived.writeDerived (.profile subject) .profile subject none value dependencies)
    derived

end Compositional

namespace NormalizedMembership

def scheme : ProfileScheme where
  materialization derived subject :=
    if derived.heads.keys.any fun key => decide (key.1 = subject) then
      some (.descriptor subject, [])
    else none
  clean canonical subject :=
    if canonical.rows.any fun row => decide (row.subjectId = subject) then
      some (.descriptor subject, [])
    else none
  keepsMembership := true

def syncMembershipKey (derived : Derived) (key : CellKey) : Derived :=
  if key ∈ derived.heads then { derived with membership := derived.membership.insert key () }
  else { derived with membership := derived.membership.erase key }

def rebuildMembership (derived : Derived) : Derived :=
  { derived with membership := Table.ofKeys derived.heads.keys }

def membershipMatchesHeads (db : Db) : Prop :=
  Table.Same db.derived.membership (Table.ofKeys db.derived.heads.keys)

end NormalizedMembership

namespace ProfileScheme

variable (scheme : ProfileScheme)

def syncKeys (canonical : Canonical) (intent : Intent) (derived : Derived) : Derived :=
  let derived := HeadIndexed.syncHeads canonical intent derived
  if scheme.keepsMembership then
    intent.cells.dedup.foldl NormalizedMembership.syncMembershipKey derived
  else derived

/-- The stores with growth, heads and these profiles. Promotion computes the read keys anew. -/
def methods : Methods where
  syncKeys := scheme.syncKeys
  invalidate := Compositional.invalidate
  rebuildNode := PredicateSchema.rebuildNode scheme
  promotedReadKeys canonical row := queueReadKeys canonical row.intent

/-- What `bootstrap` of these stores adds to that of the store with growth. -/
def withProfiles (db : Db) : Db :=
  let derived := Compositional.rewriteAllProfiles scheme
    (HeadIndexed.rebuildHeadIndex db.canonical db.derived)
  { db with
    derived :=
      if scheme.keepsMembership then NormalizedMembership.rebuildMembership derived else derived }

def bootstrap (entityCount : Nat) : Except Raised Db :=
  (SQLiteRecovery.bootstrap entityCount).map scheme.withProfiles

/-- The tables after `bootstrap`, which a raise leaves empty. -/
def bootstrapped (entityCount : Nat) : Db :=
  match scheme.bootstrap entityCount with
  | .ok db => db
  | .error _ => SQLiteRecovery.entities 0

def entities (entityCount : Nat) : Db := scheme.withProfiles (SQLiteRecovery.entities entityCount)

/-! ### Clean rebuilds -/

/-- The row and the dependencies that a clean rebuild gives an identifier. -/
def expected (canonical : Canonical) : NodeId → Option (DerivedRow × List NodeId)
  | .state key => (canonical.latestAssertion key).map fun item =>
      (⟨.state, key.1, some key.2, .fresh, stateValue item⟩, [.assertion item.id])
  | .support key => (canonical.latestAssertion key).map fun item =>
      (⟨.support, key.1, some key.2, .fresh,
          .support (supportValue item (canonical.payloads item.evidenceIds))⟩,
        .state key :: .assertion item.id :: evidenceNodes item)
  | .context key => (canonical.latestAssertion key).map fun item =>
      (⟨.context, key.1, some key.2, .fresh,
          .context key (supportValue item (canonical.payloads item.evidenceIds))⟩,
        [.support key])
  | .profile subject => (scheme.clean canonical subject).map fun made =>
      (⟨.profile, subject, none, .fresh, made.1⟩, made.2)
  | _ => none

def cleanIds (canonical : Canonical) : List NodeId :=
  ((HeadIndexed.cellKeys canonical).flatMap fun key => [.state key, .support key, .context key]) ++
    (distinct (canonical.rows.map Assertion.subjectId)).map .profile

def cleanNodes (canonical : Canonical) : Table NodeId DerivedRow :=
  Table.tabulate (fun id => (scheme.expected canonical id).map Prod.fst) (cleanIds canonical)

/-- What the identifier's row depends on in a clean rebuild. -/
def dependencies (canonical : Canonical) (id : NodeId) : List NodeId :=
  ((scheme.expected canonical id).map Prod.snd).getD []

def cleanEdges (canonical : Canonical) : Table (NodeId × NodeId) Unit :=
  Table.ofKeys ((cleanIds canonical).flatMap fun id =>
    (scheme.dependencies canonical id).map fun source => (source, id))

/-- The two digests agree: each covers its rows and edges in the order of their names. -/
def materializationMatchesCleanRebuild (db : Db) : Prop :=
  Table.Same db.derived.nodes (scheme.cleanNodes db.canonical) ∧
    Table.Same db.derived.edges (scheme.cleanEdges db.canonical)

def allDerivedFresh (db : Db) : Prop :=
  ∀ entry ∈ db.derived.nodes.entries, entry.2.status = .fresh

end ProfileScheme

end DurableContext.Maintenance
