import DurableContext.Maintenance.NormalizedMembership

/-! Reads of contexts and of composed profiles between two transactions, and what a clean rebuild of
the canonical rows of the same snapshot gives. -/

namespace DurableContext.Maintenance

/-! ### What a reader looks at -/

def Phase.canBeStale : Phase → Bool
  | prepared => false
  | canonicalApplied => true
  | invalidated => true
  | rebuilding => true
  | repaired => false

/-- What the queue says of the intent that can make reads stale: nothing if there is none, and no
keys if its queue row is missing. -/
def Db.guardedKeys (db : Db) : Option (Option (List String)) :=
  match db.journal with
  | none => none
  | some journal =>
      if journal.phase.canBeStale then
        some ((db.queue.find? fun row => decide (row.seq = journal.seq)).map QueueRow.readKeys)
      else none

/-- Raise if the intent's keys block the read, or are missing. -/
def Db.guard (db : Db) (message : String) (blocks : List String → Bool) : Except Raised Unit :=
  match db.guardedKeys with
  | none => .ok ()
  | some none => .error (.runtimeError message)
  | some (some keys) => if blocks keys then .error (.runtimeError message) else .ok ()

/-! ### Contexts -/

/-- The text of a context, as the parts it is formatted from. -/
def DerivedValue.text : DerivedValue → Option (CellKey × Support)
  | .context key value => some (key, value)
  | _ => none

namespace MultiIntent

def readContext (db : Db) (key : CellKey) : Except Raised (Option (CellKey × Support)) := do
  db.guard "active maintenance can make this derived read stale" fun keys =>
    decide (readKey key ∈ keys)
  return (readFresh db.derived.nodes (NodeId.context key).text).bind DerivedValue.text

end MultiIntent

/-- The context that a clean rebuild writes under the same identifier. -/
def ProfileScheme.cleanContext (scheme : ProfileScheme) (canonical : Canonical) (key : CellKey) :
    Option (CellKey × Support) :=
  (readFresh (scheme.cleanNodes canonical) (NodeId.context key).text).bind DerivedValue.text

/-! ### Composed profiles -/

structure ComposedProfile where
  subjectId : String
  predicates : List String
  evidencePayloads : List (String × String)
  deriving DecidableEq

/-- A later payload of the same evidence replaces an earlier one; the result is sorted. -/
def mergePayloads (payloads : List (String × String)) : List (String × String) :=
  ((payloads.foldl (fun merged row => merged.insert row.1 row.2) (∅ : Table String String)).entries.map
    fun entry => (entry.1, entry.2)).insertionSort
      fun pair other => pair.1 < other.1 ∨ (pair.1 = other.1 ∧ pair.2 ≤ other.2)

/-- `get("evidence_payloads", [])`. -/
def DerivedValue.facetPayloads : DerivedValue → List (String × String)
  | .support value => value.evidencePayloads
  | .profile _ _ payloads => payloads
  | _ => []

/-- `get("predicates", [])`. -/
def DerivedValue.manifestPredicates : DerivedValue → List String
  | .manifest _ predicates => predicates
  | .profile _ predicates _ => predicates
  | _ => []

def listText (texts : List String) : String :=
  "[" ++ ", ".intercalate (texts.map fun text => "'" ++ text ++ "'") ++ "]"

/-- The payloads of the fresh supports of the predicates, in their order. -/
def readFacets (db : Db) (subject : String) :
    List String → Except Raised (List (String × String))
  | [] => .ok []
  | predicate :: rest =>
      match readFresh db.derived.nodes (NodeId.support (subject, predicate)).text with
      | none =>
          .error (.runtimeError ("missing fresh profile facet: " ++ subject ++ "/" ++ predicate))
      | some value => do
          let payloads ← readFacets db subject rest
          return value.facetPayloads ++ payloads

def composeProfile (db : Db) (subject : String) (requested : List String) :
    Except Raised (Option ComposedProfile) := do
  let payloads ← readFacets db subject requested
  return some ⟨subject, requested, mergePayloads payloads⟩

/-- A full read is blocked by any key of the subject, a partial one by the requested keys. -/
def guardProfile (db : Db) (subject : String) (requested : Option (List String)) :
    Except Raised Unit :=
  match requested with
  | none =>
      db.guard "active maintenance can make full profile stale" fun keys =>
        keys.any fun key => decide ((subject ++ "|").toList <+: key.toList)
  | some predicates =>
      db.guard "active maintenance can make requested profile facets stale" fun keys =>
        predicates.any fun predicate => decide (readKey (subject, predicate) ∈ keys)

namespace Compositional

def readComposedProfile (db : Db) (subject : String) (requested : Option (List String)) :
    Except Raised (Option ComposedProfile) :=
  match readFresh db.derived.nodes (NodeId.profile subject).text with
  | none => .ok none
  | some value =>
      let live := value.manifestPredicates
      let predicates := requested.getD live
      let missing := distinct (predicates.filter fun predicate => decide (predicate ∉ live))
      if missing ≠ [] then
        .error (.keyError ("requested predicates are not live for " ++ subject ++ ": " ++
          listText missing))
      else do
        guardProfile db subject requested
        composeProfile db subject predicates

def cleanComposedProfile (canonical : Canonical) (subject : String)
    (requested : Option (List String)) : Except Raised (Option ComposedProfile) :=
  let live := livePredicates canonical subject
  if live = [] then .ok none
  else
    let predicates := requested.getD live
    let missing := distinct (predicates.filter fun predicate => decide (predicate ∉ live))
    if missing ≠ [] then .error (.keyError (listText missing))
    else
      .ok (some ⟨subject, predicates, mergePayloads (predicates.flatMap fun predicate =>
        ((canonical.latestAssertion (subject, predicate)).map fun item =>
          canonical.payloads item.evidenceIds).getD [])⟩)

end Compositional

namespace NormalizedMembership

/-- The predicates whose membership rows a read finds; the first one without a row is refused. -/
def probeMembership (db : Db) (subject : String) : List String → Except Raised Unit
  | [] => .ok ()
  | predicate :: rest =>
      if (subject, predicate) ∈ db.derived.membership then probeMembership db subject rest
      else
        .error (.keyError ("requested predicate is not live for " ++ subject ++ ": " ++ predicate))

def memberPredicates (db : Db) (subject : String) : List String :=
  distinct ((db.derived.membership.keys.filter fun key => decide (key.1 = subject)).map Prod.snd)

def readComposedProfile (db : Db) (subject : String) (requested : Option (List String)) :
    Except Raised (Option ComposedProfile) :=
  match readFresh db.derived.nodes (NodeId.profile subject).text with
  | none => .ok none
  | some _ => do
      guardProfile db subject requested
      match requested with
      | none => composeProfile db subject (memberPredicates db subject)
      | some predicates => do
          probeMembership db subject predicates
          composeProfile db subject predicates

end NormalizedMembership

/-! ### A snapshot between two transactions -/

/-- The rows of all cells but the listed ones are up to date, and a profile that is fresh is that of
a subject whose other predicates are still live. -/
structure Snapshot (scheme : ProfileScheme) (db : Db) (cells : List CellKey) : Prop where
  heads : HeadsMatch db.derived db.canonical
  members : MembersMatch scheme db.derived
  rows : ∀ id, ¬ id.Touches cells → MatchesAt scheme db.derived db.canonical id
  plain : db.canonical.Plain
  stored : ∀ id ∈ db.derived.nodes, id.Plain
  profile : ∀ subject value, db.derived.freshValue (.profile subject) = some value →
    ∃ canonical made, scheme.clean canonical subject = some made ∧ made.1 = value ∧
      ∀ predicate, (subject, predicate) ∉ cells →
        (canonical.Live (subject, predicate) ↔ db.canonical.Live (subject, predicate))
  queued : db.guardedKeys ≠ some none
  unguarded : db.guardedKeys = none → cells = []
  guarded : ∀ keys, db.guardedKeys = some (some keys) → ∀ key ∈ cells, readKey key ∈ keys

section Snapshots

variable {scheme : ProfileScheme} {db : Db} {cells : List CellKey}

theorem fresh_expected {derived : Derived} {canonical : Canonical} {subject : String}
    {value : DerivedValue} (matched : MatchesAt scheme derived canonical (.profile subject))
    (fresh : derived.freshValue (.profile subject) = some value) :
    ∃ made, scheme.clean canonical subject = some made ∧ made.1 = value := by
  rw [matched.freshValue] at fresh
  obtain ⟨row, expected, same⟩ := Option.map_eq_some_iff.mp fresh
  obtain ⟨made, clean, rfl⟩ := Option.map_eq_some_iff.mp expected
  exact ⟨made, clean, same⟩

theorem expected_plain {canonical : Canonical} (plain : canonical.Plain) {id : NodeId}
    (expected : (scheme.expected canonical id).isSome) : id.Plain := by
  cases cell : id.cell? with
  | some key =>
      obtain ⟨row, member, rfl⟩ := Canonical.live_iff.mp ((expected_cell_isSome cell).mp expected)
      obtain ⟨name, held⟩ := Canonical.mem_rows.mp member
      rcases NodeId.cell_cases cell with rfl | rfl | rfl
      · exact plain name row held
      · exact plain name row held
      · exact plain name row held
  | none =>
      cases id with
      | evidence name => trivial
      | assertion name => trivial
      | profile subject => trivial
      | predicatePresence key => cases expected
      | state key => cases cell
      | support key => cases cell
      | context key => cases cell

theorem MatchesAt.plain {derived : Derived} {canonical : Canonical} {id : NodeId}
    (matched : MatchesAt scheme derived canonical id) (plain : canonical.Plain)
    (present : id ∈ derived.nodes) : id.Plain := by
  apply expected_plain plain
  rw [Table.mem_iff, matched.row, Option.isSome_map] at present
  exact present

theorem Guards.plain {journal : Journal} (guards : Guards db journal cells) :
    ∀ key ∈ cells, Plain key.1 := by
  obtain ⟨row, -, listed⟩ := guards
  exact fun key member => (listed key member).1

theorem Stale.plain {derived : Derived} {id : NodeId} (stale : Stale derived id)
    (touches : id.Touches cells) (plain : ∀ key ∈ cells, Plain key.1) : id.Plain := by
  obtain ⟨row, -, shaped, -⟩ := stale.row
  cases id with
  | evidence name => trivial
  | assertion name => trivial
  | profile subject => trivial
  | predicatePresence key => cases shaped
  | state key => exact plain key touches
  | support key => exact plain key touches
  | context key => exact plain key touches

theorem Rebuilding.snapshot (clean : Rebuilding scheme db.derived db.canonical [])
    (plain : db.canonical.Plain) (unguarded : db.guardedKeys = none) : Snapshot scheme db [] where
  heads := clean.heads
  members := clean.members
  rows id _ := clean.others id List.not_mem_nil
  plain := plain
  stored id := (clean.others id List.not_mem_nil).plain plain
  profile subject value fresh := by
    obtain ⟨made, found, same⟩ := fresh_expected (clean.others _ List.not_mem_nil) fresh
    exact ⟨db.canonical, made, found, same, fun _ _ => Iff.rfl⟩
  queued := by
    rw [unguarded]
    nofun
  unguarded _ := rfl
  guarded keys blocked := by
    rw [unguarded] at blocked
    cases blocked

theorem guardedKeys_of {journal : Journal} (held : db.journal = some journal)
    (stale : journal.phase.canBeStale = true) (guards : Guards db journal cells) :
    ∃ keys, db.guardedKeys = some (some keys) ∧ ∀ key ∈ cells, readKey key ∈ keys := by
  obtain ⟨row, found, keys⟩ := guards
  refine ⟨row.readKeys, ?_, fun key member => (keys key member).2⟩
  simp only [Db.guardedKeys, held, if_pos stale, found, Option.map_some]

theorem Applied.snapshot (lawful : scheme.Lawful) {journal : Journal} {before : Canonical}
    (held : db.journal = some journal) (phase : journal.phase = .canonicalApplied)
    (guards : Guards db journal cells) (plain : db.canonical.Plain)
    (applied : Applied scheme db.derived before db.canonical journal.intent)
    (listed : readCells before journal.intent ⊆ cells) : Snapshot scheme db cells := by
  have stale : journal.phase.canBeStale = true := by rw [phase]; rfl
  obtain ⟨keys, guarded, blocks⟩ := guardedKeys_of held stale guards
  have unaffected : ∀ id, ¬ id.Touches cells →
      id ∉ Compositional.affected db.canonical journal.intent db.derived := by
    intro id apart member
    exact apart ((Compositional.affected_touches lawful applied.rows id member).mono listed)
  constructor
  case heads => exact applied.heads
  case members => exact applied.members
  case rows =>
    intro id apart
    have same := applied.expected_outside lawful (unaffected id apart)
    constructor
    · rw [same]
      exact (applied.rows id).row
    · intro source
      rw [ProfileScheme.dependencies, same]
      exact (applied.rows id).edges source
  case plain => exact plain
  case stored => exact fun id => (applied.rows id).plain applied.plain
  case profile =>
    intro subject value fresh
    obtain ⟨made, clean, same⟩ := fresh_expected (applied.rows _) fresh
    refine ⟨before, made, clean, same, fun predicate outside => ?_⟩
    have other : (subject, predicate) ∉ journal.intent.cells :=
      fun inside => outside (listed (mem_readCells inside))
    rw [Canonical.Live, Canonical.Live,
      assertionsOf_apply applied.ran applied.faithful applied.tracked other]
  case queued =>
    rw [guarded]
    intro same
    cases same
  case unguarded =>
    intro none
    rw [guarded] at none
    cases none
  case guarded =>
    intro keys' same
    rw [guarded] at same
    cases same
    exact blocks

theorem Rebuilding.pending_snapshot {journal : Journal} (held : db.journal = some journal)
    (stale : journal.phase.canBeStale = true) (guards : Guards db journal cells)
    (plain : db.canonical.Plain)
    (rebuilding : Rebuilding scheme db.derived db.canonical journal.affected)
    (touches : ∀ id ∈ journal.affected, id.Touches cells) : Snapshot scheme db cells := by
  obtain ⟨keys, guarded, blocks⟩ := guardedKeys_of held stale guards
  constructor
  case heads => exact rebuilding.heads
  case members => exact rebuilding.members
  case rows => exact fun id apart => rebuilding.others id fun member => apart (touches id member)
  case plain => exact plain
  case stored =>
    intro id present
    by_cases member : id ∈ journal.affected
    · exact (rebuilding.stale id member).plain (touches id member) guards.plain
    · exact (rebuilding.others id member).plain plain present
  case profile =>
    intro subject value fresh
    have settled : .profile subject ∉ journal.affected := by
      intro member
      obtain ⟨-, row, found, -, status⟩ := rebuilding.stale _ member
      simp only [Derived.freshValue, found, if_neg status] at fresh
      cases fresh
    obtain ⟨made, clean, same⟩ := fresh_expected (rebuilding.others _ settled) fresh
    exact ⟨db.canonical, made, clean, same, fun _ _ => Iff.rfl⟩
  case queued =>
    rw [guarded]
    intro same
    cases same
  case unguarded =>
    intro none
    rw [guarded] at none
    cases none
  case guarded =>
    intro keys' same
    rw [guarded] at same
    cases same
    exact blocks

/-- Between two transactions of a run that keeps the invariant, the rows are those of a snapshot. -/
theorem Consistent.snapshot (lawful : scheme.Lawful) (consistent : Consistent scheme db) :
    ∃ cells, Snapshot scheme db cells := by
  cases held : db.journal with
  | none =>
      have unguarded : db.guardedKeys = none := by simp only [Db.guardedKeys, held]
      exact ⟨[], (consistent.idle held).snapshot consistent.plain unguarded⟩
  | some journal =>
      obtain ⟨cells, guards, carrying⟩ := consistent.busy journal held
      cases phase : journal.phase with
      | prepared =>
          simp only [Carrying, phase] at carrying
          have unguarded : db.guardedKeys = none := by
            simp only [Db.guardedKeys, held, phase, Phase.canBeStale, Bool.false_eq_true, if_false]
          exact ⟨[], carrying.1.snapshot consistent.plain unguarded⟩
      | repaired =>
          simp only [Carrying, phase] at carrying
          have unguarded : db.guardedKeys = none := by
            simp only [Db.guardedKeys, held, phase, Phase.canBeStale, Bool.false_eq_true, if_false]
          exact ⟨[], carrying.snapshot consistent.plain unguarded⟩
      | canonicalApplied =>
          simp only [Carrying, phase] at carrying
          obtain ⟨before, applied, listed⟩ := carrying
          exact ⟨cells, applied.snapshot lawful held phase guards consistent.plain listed⟩
      | invalidated =>
          simp only [Carrying, phase] at carrying
          exact ⟨cells, carrying.1.pending_snapshot held (by rw [phase]; rfl) guards
            consistent.plain carrying.2.2⟩
      | rebuilding =>
          simp only [Carrying, phase] at carrying
          exact ⟨cells, carrying.1.pending_snapshot held (by rw [phase]; rfl) guards
            consistent.plain carrying.2.2⟩

end Snapshots

/-! ### Reads of a snapshot -/

/-- The read raises, or returns what a clean rebuild gives. -/
def RaisesOrReturns {α : Type} (read : Except Raised α) (clean : Except Raised α) : Prop :=
  (∃ error, read = .error error) ∨ read = clean

section Reads

variable {scheme : ProfileScheme} {db : Db} {cells : List CellKey} {subject : String}

theorem Snapshot.guard_ok (snapshot : Snapshot scheme db cells) {message : String}
    {blocks : List String → Bool} (passed : db.guard message blocks = .ok ()) :
    cells = [] ∨ ∃ keys, blocks keys = false ∧ ∀ key ∈ cells, readKey key ∈ keys := by
  unfold Db.guard at passed
  cases guarded : db.guardedKeys with
  | none => exact Or.inl (snapshot.unguarded guarded)
  | some found =>
      rw [guarded] at passed
      cases found with
      | none => cases passed
      | some keys =>
          cases blocked : blocks keys with
          | true =>
              simp only [blocked, if_true] at passed
              cases passed
          | false => exact Or.inr ⟨keys, blocked, snapshot.guarded keys guarded⟩

/-- A read that is not blocked is of none of the keys that guard a cell. -/
theorem Snapshot.guard_keys (snapshot : Snapshot scheme db cells) {message : String}
    {blocks : List String → Bool} (passed : db.guard message blocks = .ok ()) {key : CellKey}
    (member : key ∈ cells) : ∃ keys, db.guardedKeys = some (some keys) ∧ blocks keys = false ∧
      readKey key ∈ keys := by
  unfold Db.guard at passed
  cases guarded : db.guardedKeys with
  | none =>
      rw [snapshot.unguarded guarded] at member
      cases member
  | some found =>
      rw [guarded] at passed
      cases found with
      | none => cases passed
      | some keys =>
          cases blocked : blocks keys with
          | true =>
              simp only [blocked, if_true] at passed
              cases passed
          | false => exact ⟨keys, rfl, blocked, snapshot.guarded keys guarded key member⟩

theorem guard_cases (db : Db) (message : String) (blocks : List String → Bool) :
    (∃ error, db.guard message blocks = .error error) ∨ db.guard message blocks = .ok () := by
  cases outcome : db.guard message blocks with
  | error error => exact Or.inl ⟨error, rfl⟩
  | ok done => exact Or.inr rfl

/-- Another cell, with a context of the same identifier, is guarded by the intent under way under
a read key of its own. -/
def Db.Aliased (db : Db) (key : CellKey) : Prop :=
  ∃ cell, cell ≠ key ∧ Plain cell.1 ∧ (NodeId.context cell).text = (NodeId.context key).text ∧
    ∃ keys, db.guardedKeys = some (some keys) ∧ readKey cell ∈ keys

/-- No key of a subject without a colon is aliased. -/
theorem not_aliased {key : CellKey} (plain : Plain key.1) : ¬ db.Aliased key := by
  rintro ⟨cell, other, plain', same, -⟩
  exact other (NodeId.context.inj (NodeId.text_inj plain' plain same))

theorem Snapshot.readFresh (snapshot : Snapshot scheme db cells) {id : NodeId} (plain : id.Plain) :
    readFresh db.derived.nodes id.text = db.derived.freshValue id :=
  readFresh_eq fun other present same => NodeId.text_inj (snapshot.stored other present) plain same

theorem readFresh_profile (db : Db) (subject : String) :
    readFresh db.derived.nodes (NodeId.profile subject).text =
      db.derived.freshValue (.profile subject) :=
  readFresh_eq fun _ _ same => NodeId.eq_profile same

theorem readFresh_cleanNodes (lawful : scheme.Lawful) {canonical : Canonical}
    (plain : canonical.Plain) {id : NodeId} (named : id.Plain) :
    readFresh (scheme.cleanNodes canonical) id.text =
      (scheme.expected canonical id).map fun made => made.1.value := by
  have read : readFresh (scheme.cleanNodes canonical) id.text =
      Derived.freshValue { Derived.empty with nodes := scheme.cleanNodes canonical } id := by
    refine @readFresh_eq { Derived.empty with nodes := scheme.cleanNodes canonical } id ?_
    intro other present same
    rw [Table.mem_iff, ProfileScheme.lookup_cleanNodes lawful, Option.isSome_map] at present
    exact NodeId.text_inj (expected_plain plain present) named same
  rw [read, Derived.freshValue, ProfileScheme.lookup_cleanNodes lawful]
  cases expected : scheme.expected canonical id with
  | none => rfl
  | some made =>
      simp only [Option.map_some, if_pos (expected_row expected).2]

theorem Snapshot.readContext (lawful : scheme.Lawful) (snapshot : Snapshot scheme db cells)
    {key : CellKey} (own : ¬ db.Aliased key) :
    RaisesOrReturns (MultiIntent.readContext db key) (.ok (scheme.cleanContext db.canonical key)) := by
  unfold MultiIntent.readContext
  rcases guard_cases db "active maintenance can make this derived read stale" (fun keys =>
    decide (readKey key ∈ keys)) with ⟨error, raised⟩ | passed
  · rw [raised]
    exact Or.inl ⟨error, rfl⟩
  rw [passed]
  refine Or.inr (congrArg Except.ok ?_)
  rw [ProfileScheme.cleanContext]
  by_cases stored : ∃ cell : CellKey, Plain cell.1 ∧
      (NodeId.context cell).text = (NodeId.context key).text
  · -- the row that is read is that of a cell outside the guarded ones
    obtain ⟨cell, plain, same⟩ := stored
    have outside : cell ∉ cells := by
      intro member
      obtain ⟨keys, guarded, unblocked, listed⟩ := snapshot.guard_keys passed member
      by_cases equal : cell = key
      · exact of_decide_eq_false unblocked (equal ▸ listed)
      · exact own ⟨cell, equal, plain, same, keys, guarded, listed⟩
    have matched := snapshot.rows (.context cell) outside
    have named : (NodeId.context cell).Plain := plain
    rw [← same, snapshot.readFresh named, readFresh_cleanNodes lawful snapshot.plain named,
      matched.freshValue]
  · -- no row is stored under the identifier
    have missing : ∀ id : NodeId, id.Plain → id.text ≠ (NodeId.context key).text := by
      intro id plain same
      obtain ⟨cell, rfl⟩ := NodeId.eq_context same
      exact stored ⟨cell, plain, same⟩
    have read := readFresh_none fun id present => missing id (snapshot.stored id present)
    have clean : Maintenance.readFresh (scheme.cleanNodes db.canonical)
        (NodeId.context key).text = none := by
      apply readFresh_none
      intro id present
      rw [Table.mem_iff, ProfileScheme.lookup_cleanNodes lawful, Option.isSome_map] at present
      exact missing id (expected_plain snapshot.plain present)
    rw [read, clean]

/-! ### Composed profiles of a snapshot -/

def cleanFacets (canonical : Canonical) (subject : String) (predicates : List String) :
    List (String × String) :=
  predicates.flatMap fun predicate =>
    ((canonical.latestAssertion (subject, predicate)).map fun item =>
      canonical.payloads item.evidenceIds).getD []

theorem Snapshot.readFacets (snapshot : Snapshot scheme db cells) {predicates : List String}
    (outside : ∀ predicate ∈ predicates, (subject, predicate) ∉ cells)
    (live : ∀ predicate ∈ predicates, db.canonical.Live (subject, predicate)) :
    readFacets db subject predicates = .ok (cleanFacets db.canonical subject predicates) := by
  induction predicates with
  | nil => rfl
  | cons predicate rest ih =>
      have ih := ih (fun other member => outside other (List.mem_cons_of_mem _ member))
        fun other member => live other (List.mem_cons_of_mem _ member)
      obtain ⟨item, latest⟩ := Canonical.live_iff_latest.mp (live predicate List.mem_cons_self)
      have matched := snapshot.rows (.support (subject, predicate))
        (outside predicate List.mem_cons_self)
      have expected : (scheme.expected db.canonical (.support (subject, predicate))).isSome :=
        (expected_cell_isSome rfl).mpr (live predicate List.mem_cons_self)
      have plain := expected_plain snapshot.plain expected
      have fresh : Maintenance.readFresh db.derived.nodes
          (NodeId.support (subject, predicate)).text =
          some (.support (supportValue item (db.canonical.payloads item.evidenceIds))) := by
        rw [snapshot.readFresh plain, matched.freshValue, ProfileScheme.expected, latest]
        rfl
      have facets : cleanFacets db.canonical subject (predicate :: rest) =
          db.canonical.payloads item.evidenceIds ++ cleanFacets db.canonical subject rest := by
        rw [cleanFacets, List.flatMap_cons, latest]
        rfl
      rw [facets]
      simp only [Maintenance.readFacets, fresh, ih]
      rfl

theorem Snapshot.composeProfile (snapshot : Snapshot scheme db cells) {predicates : List String}
    (outside : ∀ predicate ∈ predicates, (subject, predicate) ∉ cells)
    (live : ∀ predicate ∈ predicates, db.canonical.Live (subject, predicate)) :
    composeProfile db subject predicates = .ok (some ⟨subject, predicates,
      mergePayloads (cleanFacets db.canonical subject predicates)⟩) := by
  rw [Maintenance.composeProfile, snapshot.readFacets outside live]
  rfl

/-- A full read that is not blocked is of a subject that the intent does not touch. -/
theorem Snapshot.full_outside (snapshot : Snapshot scheme db cells)
    (passed : guardProfile db subject none = .ok ()) : ∀ key ∈ cells, key.1 ≠ subject := by
  rcases snapshot.guard_ok passed with rfl | ⟨keys, unblocked, listed⟩
  · exact fun key member => nomatch member
  · rintro ⟨other, predicate⟩ member rfl
    have free := List.any_eq_false.mp unblocked _ (listed _ member)
    apply free
    apply decide_eq_true
    have split : (readKey (other, predicate)).toList = (other ++ "|").toList ++ predicate.toList :=
      String.toList_append
    rw [split]
    exact List.prefix_append _ _

theorem Snapshot.partial_outside (snapshot : Snapshot scheme db cells) {predicates : List String}
    (passed : guardProfile db subject (some predicates) = .ok ()) :
    ∀ predicate ∈ predicates, (subject, predicate) ∉ cells := by
  rcases snapshot.guard_ok passed with rfl | ⟨keys, unblocked, listed⟩
  · exact fun _ _ => List.not_mem_nil
  · intro predicate member inside
    have free := List.any_eq_false.mp unblocked _ member
    exact free (decide_eq_true (listed _ inside))

def HasHeads (canonical : Canonical) (subject : String) : Prop :=
  ∃ predicate, canonical.Live (subject, predicate)

theorem livePredicates_eq_nil {canonical : Canonical} :
    Compositional.livePredicates canonical subject = [] ↔ ¬ HasHeads canonical subject := by
  rw [List.eq_nil_iff_forall_not_mem]
  simp only [mem_livePredicates, HasHeads, not_exists]

theorem clean_of_dead {canonical : Canonical} {requested : Option (List String)}
    (dead : ¬ HasHeads canonical subject) :
    Compositional.cleanComposedProfile canonical subject requested = .ok none := by
  simp only [Compositional.cleanComposedProfile, livePredicates_eq_nil.mpr dead, if_true]

theorem missing_eq_nil {predicates live : List String} (listed : ∀ predicate ∈ predicates,
    predicate ∈ live) : distinct (predicates.filter fun predicate => decide (predicate ∉ live)) = [] := by
  rw [List.eq_nil_iff_forall_not_mem]
  intro predicate member
  obtain ⟨member, missing⟩ := List.mem_filter.mp (mem_distinct.mp member)
  exact of_decide_eq_true missing (listed predicate member)

theorem missing_listed {predicates live : List String}
    (none : distinct (predicates.filter fun predicate => decide (predicate ∉ live)) = []) :
    ∀ predicate ∈ predicates, predicate ∈ live := by
  intro predicate member
  by_contra missing
  have listed : predicate ∈ distinct (predicates.filter fun predicate => decide (predicate ∉ live)) :=
    mem_distinct.mpr (List.mem_filter.mpr ⟨member, decide_eq_true missing⟩)
  rw [none] at listed
  cases listed

theorem clean_of_live {canonical : Canonical} {requested : Option (List String)}
    (live : HasHeads canonical subject)
    (listed : ∀ predicate ∈ requested.getD (Compositional.livePredicates canonical subject),
      canonical.Live (subject, predicate)) :
    Compositional.cleanComposedProfile canonical subject requested =
      .ok (some ⟨subject, requested.getD (Compositional.livePredicates canonical subject),
        mergePayloads (cleanFacets canonical subject
          (requested.getD (Compositional.livePredicates canonical subject)))⟩) := by
  have some_live : Compositional.livePredicates canonical subject ≠ [] :=
    fun empty => livePredicates_eq_nil.mp empty live
  have none_missing := missing_eq_nil fun predicate member =>
    mem_livePredicates.mpr (listed predicate member)
  simp only [Compositional.cleanComposedProfile, if_neg some_live, none_missing, ne_eq,
    not_true_eq_false, if_false]
  rfl

/-- When a read of a composed profile is exact: the subject's profile is fresh and the read is not of
no predicates of a subject without assertions, or the subject has no assertions. -/
def Readable (db : Db) (subject : String) (requested : Option (List String)) : Prop :=
  if (db.derived.freshValue (.profile subject)).isSome then
    HasHeads db.canonical subject ∨ requested ≠ some []
  else ¬ HasHeads db.canonical subject

/-- A profile that is not fresh reads as none, whatever the subject's assertions are. -/
theorem unread_iff {requested : Option (List String)} {read : Except Raised (Option ComposedProfile)}
    (unread : db.derived.freshValue (.profile subject) = none) (none : read = .ok none) :
    RaisesOrReturns read (Compositional.cleanComposedProfile db.canonical subject requested) ↔
      Readable db subject requested := by
  simp only [Readable, unread, Option.isSome_none, Bool.false_eq_true, if_false]
  constructor
  · rintro (⟨error, raised⟩ | same)
    · rw [none] at raised
      cases raised
    · intro live
      rw [none] at same
      unfold Compositional.cleanComposedProfile at same
      rw [if_neg fun empty => livePredicates_eq_nil.mp empty live] at same
      by_cases missing : distinct ((requested.getD (Compositional.livePredicates db.canonical
          subject)).filter fun predicate =>
            decide (predicate ∉ Compositional.livePredicates db.canonical subject)) = []
      · simp only [missing, ne_eq, not_true_eq_false, if_false] at same
        cases same
      · simp only [missing, ne_eq, not_false_eq_true, if_true] at same
        cases same
  · intro dead
    rw [none, clean_of_dead dead]
    exact Or.inr rfl

theorem readable_of_live {requested : Option (List String)} {value : DerivedValue}
    (fresh : db.derived.freshValue (.profile subject) = some value)
    (live : HasHeads db.canonical subject) : Readable db subject requested := by
  simp only [Readable, fresh, Option.isSome_some, if_true]
  exact Or.inl live

theorem composed_iff {requested : Option (List String)} {value : DerivedValue}
    {read : Except Raised (Option ComposedProfile)}
    (fresh : db.derived.freshValue (.profile subject) = some value)
    (live : HasHeads db.canonical subject)
    (listed : ∀ predicate ∈ requested.getD (Compositional.livePredicates db.canonical subject),
      db.canonical.Live (subject, predicate))
    (composed : read = .ok (some ⟨subject,
      requested.getD (Compositional.livePredicates db.canonical subject),
      mergePayloads (cleanFacets db.canonical subject
        (requested.getD (Compositional.livePredicates db.canonical subject)))⟩)) :
    RaisesOrReturns read (Compositional.cleanComposedProfile db.canonical subject requested) ↔
      Readable db subject requested := by
  apply iff_of_true ?_ (readable_of_live fresh live)
  rw [composed, clean_of_live live listed]
  exact Or.inr rfl

theorem empty_iff {value : DerivedValue} {read : Except Raised (Option ComposedProfile)}
    (fresh : db.derived.freshValue (.profile subject) = some value)
    (dead : ¬ HasHeads db.canonical subject)
    (composed : read = .ok (some ⟨subject, [], mergePayloads []⟩)) :
    RaisesOrReturns read (Compositional.cleanComposedProfile db.canonical subject (some [])) ↔
      Readable db subject (some []) := by
  apply iff_of_false
  · rw [composed, clean_of_dead dead]
    rintro (⟨error, raised⟩ | same)
    · cases raised
    · cases same
  · simp only [Readable, fresh, Option.isSome_some, if_true, not_or]
    exact ⟨dead, fun different => different rfl⟩

theorem raised_iff {requested : Option (List String)} {value : DerivedValue} {error : Raised}
    {read : Except Raised (Option ComposedProfile)}
    (fresh : db.derived.freshValue (.profile subject) = some value) (raised : read = .error error)
    (asked : HasHeads db.canonical subject ∨ requested ≠ some []) :
    RaisesOrReturns read (Compositional.cleanComposedProfile db.canonical subject requested) ↔
      Readable db subject requested := by
  apply iff_of_true
  · exact Or.inl ⟨error, raised⟩
  · simp only [Readable, fresh, Option.isSome_some, if_true]
    exact asked

/-- A partial read of live predicates is exact, but for no predicates of a subject without any. -/
theorem requested_iff {predicates : List String} {value : DerivedValue}
    {read : Except Raised (Option ComposedProfile)}
    (fresh : db.derived.freshValue (.profile subject) = some value)
    (listed : ∀ predicate ∈ predicates, db.canonical.Live (subject, predicate))
    (composed : read = .ok (some ⟨subject, predicates,
      mergePayloads (cleanFacets db.canonical subject predicates)⟩)) :
    RaisesOrReturns read
        (Compositional.cleanComposedProfile db.canonical subject (some predicates)) ↔
      Readable db subject (some predicates) := by
  by_cases live : HasHeads db.canonical subject
  · exact composed_iff fresh live listed composed
  · cases predicates with
    | nil => exact empty_iff fresh live composed
    | cons predicate rest => exact absurd ⟨predicate, listed predicate List.mem_cons_self⟩ live

theorem Snapshot.request_nonempty (snapshot : Snapshot scheme db cells) {predicates : List String}
    {error : Raised} (raised : guardProfile db subject (some predicates) = .error error) :
    some predicates ≠ some [] := by
  rintro same
  obtain rfl := Option.some.inj same
  simp only [guardProfile, Db.guard, List.any_nil] at raised
  cases guarded : db.guardedKeys with
  | none =>
      rw [guarded] at raised
      cases raised
  | some found =>
      cases found with
      | none => exact snapshot.queued guarded
      | some keys =>
          rw [guarded] at raised
          cases raised

theorem guardProfile_cases (db : Db) (subject : String) (requested : Option (List String)) :
    (∃ error, guardProfile db subject requested = .error error) ∨
      guardProfile db subject requested = .ok () := by
  cases requested with
  | none => exact guard_cases db _ _
  | some predicates => exact guard_cases db _ _

namespace NormalizedMembership

theorem probeMembership_cases (db : Db) (subject : String) (predicates : List String) :
    (predicates ≠ [] ∧ ∃ error, probeMembership db subject predicates = .error error) ∨
      (probeMembership db subject predicates = .ok () ∧
        ∀ predicate ∈ predicates, (subject, predicate) ∈ db.derived.membership) := by
  induction predicates with
  | nil => exact Or.inr ⟨rfl, fun _ member => nomatch member⟩
  | cons predicate rest ih =>
      by_cases present : (subject, predicate) ∈ db.derived.membership
      · simp only [probeMembership, if_pos present]
        rcases ih with ⟨-, raised⟩ | ⟨passed, listed⟩
        · exact Or.inl ⟨List.cons_ne_nil _ _, raised⟩
        · exact Or.inr ⟨passed, List.forall_mem_cons.mpr ⟨present, listed⟩⟩
      · simp only [probeMembership, if_neg present]
        exact Or.inl ⟨List.cons_ne_nil _ _, _, rfl⟩

theorem memberPredicates_eq (snapshot : Snapshot NormalizedMembership.scheme db cells) :
    memberPredicates db subject = Compositional.livePredicates db.canonical subject := by
  have listed : ∀ predicate, predicate ∈ memberPredicates db subject ↔
      db.canonical.Live (subject, predicate) := by
    intro predicate
    rw [memberPredicates, mem_distinct, List.mem_map, ← snapshot.heads.mem_iff,
      ← snapshot.members rfl]
    constructor
    · rintro ⟨key, member, rfl⟩
      obtain ⟨member, same⟩ := List.mem_filter.mp member
      rw [← of_decide_eq_true same]
      exact AList.mem_keys.mpr member
    · intro member
      exact ⟨_, List.mem_filter.mpr ⟨AList.mem_keys.mp member, decide_eq_true rfl⟩, rfl⟩
  apply distinct_congr
  intro predicate
  exact mem_distinct.symm.trans ((listed predicate).trans mem_subject_predicates.symm)

theorem read_iff (snapshot : Snapshot NormalizedMembership.scheme db cells) (requested : Option (List String)) :
    RaisesOrReturns (readComposedProfile db subject requested)
        (Compositional.cleanComposedProfile db.canonical subject requested) ↔
      Readable db subject requested := by
  cases fresh : db.derived.freshValue (.profile subject) with
  | none =>
      apply unread_iff fresh
      simp only [readComposedProfile, readFresh_profile, fresh]
  | some value =>
      have read : readComposedProfile db subject requested = (do
          guardProfile db subject requested
          match requested with
          | none => composeProfile db subject (memberPredicates db subject)
          | some predicates => do
              probeMembership db subject predicates
              composeProfile db subject predicates) := by
        simp only [readComposedProfile, readFresh_profile, fresh]
      rcases guardProfile_cases db subject requested with ⟨error, raised⟩ | passed
      · rw [raised] at read
        apply raised_iff fresh read
        cases requested with
        | none => exact Or.inr nofun
        | some predicates => exact Or.inr (snapshot.request_nonempty raised)
      · rw [passed] at read
        cases requested with
        | none =>
            have apart := snapshot.full_outside passed
            have untouched : ¬ (NodeId.profile subject).Touches cells :=
              fun ⟨key, member, same⟩ => apart key member same
            obtain ⟨made, clean, -⟩ := fresh_expected (snapshot.rows _ untouched) fresh
            have live : HasHeads db.canonical subject :=
              (lawful.present _ _).mp (Option.isSome_iff_exists.mpr ⟨made, clean⟩)
            have listed : ∀ predicate ∈ Compositional.livePredicates db.canonical subject,
                db.canonical.Live (subject, predicate) := fun _ => mem_livePredicates.mp
            apply composed_iff fresh live
            · exact listed
            · refine read.trans ?_
              show composeProfile db subject (memberPredicates db subject) = _
              rw [memberPredicates_eq snapshot]
              exact snapshot.composeProfile (fun _ _ inside => apart _ inside rfl) listed
        | some predicates =>
            have outside := snapshot.partial_outside passed
            rcases probeMembership_cases db subject predicates with ⟨nonempty, error, raised⟩ |
              ⟨found, members⟩
            · have failed : readComposedProfile db subject (some predicates) = .error error := by
                rw [read]
                simp only [raised]
                rfl
              exact raised_iff fresh failed (Or.inr fun same => nonempty (Option.some.inj same))
            · have listed : ∀ predicate ∈ predicates, db.canonical.Live (subject, predicate) := by
                intro predicate member
                rw [← snapshot.heads.mem_iff, ← snapshot.members rfl]
                exact members predicate member
              have composed := snapshot.composeProfile outside listed
              apply requested_iff fresh listed
              rw [read]
              simp only [found]
              exact composed

end NormalizedMembership

namespace Compositional

/-- A fresh manifest lists the predicates that are live, as far as they are not guarded. -/
theorem manifest_listed (snapshot : Snapshot Compositional.scheme db cells) {value : DerivedValue}
    (fresh : db.derived.freshValue (.profile subject) = some value) :
    (∃ predicate, predicate ∈ value.manifestPredicates) ∧
      (∀ predicate, (subject, predicate) ∉ cells →
        (predicate ∈ value.manifestPredicates ↔ db.canonical.Live (subject, predicate))) ∧
      ((∀ key ∈ cells, key.1 ≠ subject) →
        value.manifestPredicates = livePredicates db.canonical subject) := by
  obtain ⟨canonical, made, clean, rfl, agree⟩ := snapshot.profile subject value fresh
  have live : HasHeads canonical subject :=
    (lawful.present _ _).mp (Option.isSome_iff_exists.mpr ⟨made, clean⟩)
  have shown : manifest subject (livePredicates canonical subject) = some made := clean
  unfold manifest at shown
  split_ifs at shown
  obtain rfl := Option.some.inj shown
  obtain ⟨predicate, living⟩ := live
  refine ⟨⟨predicate, mem_livePredicates.mpr living⟩, ?_, ?_⟩
  · intro other outside
    exact mem_livePredicates.trans (agree other outside)
  · intro apart
    apply distinct_congr
    intro other
    rw [mem_subject_predicates, mem_subject_predicates]
    exact agree other fun inside => apart _ inside rfl

theorem read_iff (snapshot : Snapshot Compositional.scheme db cells)
    (requested : Option (List String)) :
    RaisesOrReturns (readComposedProfile db subject requested)
        (cleanComposedProfile db.canonical subject requested) ↔
      Readable db subject requested := by
  cases fresh : db.derived.freshValue (.profile subject) with
  | none =>
      apply unread_iff fresh
      simp only [readComposedProfile, readFresh_profile, fresh]
  | some value =>
      obtain ⟨⟨some_predicate, some_listed⟩, agree, same_list⟩ := manifest_listed snapshot fresh
      by_cases missing : distinct ((requested.getD value.manifestPredicates).filter fun predicate =>
          decide (predicate ∉ value.manifestPredicates)) = []
      · have read : readComposedProfile db subject requested = (do
            guardProfile db subject requested
            composeProfile db subject (requested.getD value.manifestPredicates)) := by
          simp only [readComposedProfile, readFresh_profile, fresh, missing, ne_eq,
            not_true_eq_false, if_false]
        rcases guardProfile_cases db subject requested with ⟨error, raised⟩ | passed
        · rw [raised] at read
          apply raised_iff fresh read
          cases requested with
          | none => exact Or.inr nofun
          | some predicates => exact Or.inr (snapshot.request_nonempty raised)
        · rw [passed] at read
          cases requested with
          | none =>
              have apart := snapshot.full_outside passed
              have outside : ∀ predicate, (subject, predicate) ∉ cells :=
                fun _ inside => apart _ inside rfl
              have live : HasHeads db.canonical subject :=
                ⟨some_predicate, (agree _ (outside _)).mp some_listed⟩
              have listed : ∀ predicate ∈ livePredicates db.canonical subject,
                  db.canonical.Live (subject, predicate) := fun _ => mem_livePredicates.mp
              apply composed_iff fresh live
              · exact listed
              · refine read.trans ?_
                show composeProfile db subject value.manifestPredicates = _
                rw [same_list apart]
                exact snapshot.composeProfile (fun predicate _ => outside predicate) listed
          | some predicates =>
              have outside := snapshot.partial_outside passed
              have listed : ∀ predicate ∈ predicates, db.canonical.Live (subject, predicate) :=
                fun predicate member =>
                  (agree predicate (outside predicate member)).mp (missing_listed missing _ member)
              apply requested_iff fresh listed
              exact read.trans (snapshot.composeProfile outside listed)
      · have read : readComposedProfile db subject requested = .error (.keyError
            ("requested predicates are not live for " ++ subject ++ ": " ++
              listText (distinct ((requested.getD value.manifestPredicates).filter fun predicate =>
                decide (predicate ∉ value.manifestPredicates))))) := by
          simp only [readComposedProfile, readFresh_profile, fresh, missing, ne_eq,
            not_false_eq_true, if_true]
        apply raised_iff fresh read
        right
        rintro rfl
        exact missing rfl

end Compositional

end Reads

/-! ### Runs -/

/-- Every read of a context that is not aliased raises or is exact, and so is a read of a composed
profile just where the profile is readable. -/
def ReadsExactly (scheme : ProfileScheme)
    (readComposedProfile : Db → String → Option (List String) →
      Except Raised (Option ComposedProfile)) (db : Db) : Prop :=
  (∀ key, ¬ db.Aliased key → RaisesOrReturns (MultiIntent.readContext db key)
    (.ok (scheme.cleanContext db.canonical key))) ∧
  ∀ subject requested,
    RaisesOrReturns (readComposedProfile db subject requested)
        (Compositional.cleanComposedProfile db.canonical subject requested) ↔
      Readable db subject requested

section Runs

variable {P : Type} [DecidableEq P]

def ProfileScheme.shared (scheme : ProfileScheme) (P : Type) (entityCount : Nat) : System P :=
  ⟨scheme.bootstrapped entityCount, fun _ => .idle⟩

theorem Run.snapshot {scheme : ProfileScheme} (lawful : scheme.Lawful) {entityCount : Nat}
    {system : System P}
    (run : Run scheme.methods (fun _ => True) (fun db transaction => transaction.Sound db)
      (scheme.shared P entityCount) system) : ∃ cells, Snapshot scheme system.db cells := by
  obtain ⟨-, consistent⟩ := run.consistent lawful (fun _ _ sound => sound)
    (ProfileScheme.bootstrapped_kept entityCount) (ProfileScheme.bootstrapped_consistent lawful entityCount)
  exact consistent.snapshot lawful

theorem Run.texts_apart {scheme : ProfileScheme} (lawful : scheme.Lawful) {entityCount : Nat}
    {system : System P}
    (run : Run scheme.methods (fun _ => True) (fun db transaction => transaction.Sound db)
      (scheme.shared P entityCount) system) {id other : NodeId}
    (present : id ∈ system.db.derived.nodes) (present' : other ∈ system.db.derived.nodes)
    (same : id.text = other.text) : id = other := by
  obtain ⟨cells, snapshot⟩ := run.snapshot lawful
  exact NodeId.text_inj (snapshot.stored id present) (snapshot.stored other present') same

/-- Between any two transactions of a run of any number of processes that applies only tracked
intents and ends only repaired ones, reads are exact. -/
theorem reads_exactly (entityCount : Nat) :
    (∀ system : System P,
      Run NormalizedMembership.scheme.methods (fun _ => True)
          (fun db transaction => transaction.Sound db)
          (NormalizedMembership.scheme.shared P entityCount) system →
        ReadsExactly NormalizedMembership.scheme NormalizedMembership.readComposedProfile
          system.db) ∧
    ∀ system : System P,
      Run Compositional.scheme.methods (fun _ => True) (fun db transaction => transaction.Sound db)
          (Compositional.scheme.shared P entityCount) system →
        ReadsExactly Compositional.scheme Compositional.readComposedProfile system.db := by
  constructor
  · intro system run
    obtain ⟨cells, snapshot⟩ := run.snapshot NormalizedMembership.lawful
    exact ⟨fun _ => snapshot.readContext NormalizedMembership.lawful,
      fun subject requested => NormalizedMembership.read_iff snapshot requested⟩
  · intro system run
    obtain ⟨cells, snapshot⟩ := run.snapshot Compositional.lawful
    exact ⟨fun _ => snapshot.readContext Compositional.lawful,
      fun subject requested => Compositional.read_iff snapshot requested⟩

/-- A new predicate of the first subject, up to the invalidation of its assertion. -/
def invalidatedAddition : List (Action (Fin 2)) :=
  let process : Fin 2 := ⟨0, Nat.two_pos⟩
  .call process (.enqueue (.predicateAddition 0 "owner" 55) none) :: .drainAll process ::
    List.replicate 14 (.resume process)

theorem reads_exactly_sample :
    ReadsExactly NormalizedMembership.scheme NormalizedMembership.readComposedProfile
        ((NormalizedMembership.scheme.shared (Fin 2) 1).perform NormalizedMembership.scheme.methods
          invalidatedAddition).db ∧
      ReadsExactly Compositional.scheme Compositional.readComposedProfile
        ((Compositional.scheme.shared (Fin 2) 1).perform Compositional.scheme.methods
          invalidatedAddition).db :=
  ⟨(reads_exactly 1).1 _ (Run.start.perform (by decide +kernel)),
    (reads_exactly 1).2 _ (Run.start.perform (by decide +kernel))⟩

/-- While the profile is invalidated, its subject reads as one without a profile. -/
theorem invalidated_profile_reads_none :
    ¬ ∀ system : System (Fin 2),
      Run NormalizedMembership.scheme.methods (fun _ => True) (fun _ _ => True)
        (NormalizedMembership.scheme.shared (Fin 2) 1) system →
      ∀ subject requested,
        RaisesOrReturns (NormalizedMembership.readComposedProfile system.db subject requested)
          (Compositional.cleanComposedProfile system.db.canonical subject requested) := by
  intro claim
  have run : Run NormalizedMembership.scheme.methods (fun _ => True) (fun _ _ => True)
      (NormalizedMembership.scheme.shared (Fin 2) 1)
      ((NormalizedMembership.scheme.shared (Fin 2) 1).perform NormalizedMembership.scheme.methods
        invalidatedAddition) := Run.start.perform (by decide +kernel)
  have read : NormalizedMembership.readComposedProfile
      ((NormalizedMembership.scheme.shared (Fin 2) 1).perform NormalizedMembership.scheme.methods
        invalidatedAddition).db (subjectId 0) none = .ok none := by
    decide +kernel
  have clean : Compositional.cleanComposedProfile
      ((NormalizedMembership.scheme.shared (Fin 2) 1).perform NormalizedMembership.scheme.methods
        invalidatedAddition).db.canonical (subjectId 0) none ≠ .ok none := by
    decide +kernel
  rcases claim _ run (subjectId 0) none with ⟨error, raised⟩ | same
  · rw [read] at raised
    cases raised
  · exact clean (same.symm.trans read)

end Runs

end DurableContext.Maintenance
