import DurableContext.Maintenance.Materialized

/-! A repair rebuilds the pending rows in the order of their kinds, each after the rows it is made
from, and leaves none of them pending. -/

namespace DurableContext.Maintenance

section Rebuild

variable {scheme : ProfileScheme} {derived : Derived} {canonical : Canonical}
  {id : NodeId} {pending rest : List NodeId}

theorem Rebuilding.rebuild (lawful : scheme.Lawful)
    (rebuilding : Rebuilding scheme derived canonical (id :: rest)) (apart : id ∉ rest) :
    Rebuilding scheme
      (match scheme.expected canonical id with
      | none => derived.retireNode id
      | some made => derived.writeDerived id made.1.kind made.1.subject made.1.predicate
          made.1.value made.2) canonical rest := by
  cases expected : scheme.expected canonical id with
  | none => exact rebuilding.retire lawful apart expected
  | some made => exact rebuilding.write apart expected

theorem Rebuilding.source_value (rebuilding : Rebuilding scheme derived canonical (id :: rest))
    {source : NodeId} (below : id.source? = some source) (ready : source ∉ rest) :
    derived.freshValue source = (scheme.expected canonical source).map fun made => made.1.value := by
  have different : source ≠ id := by
    rintro rfl
    cases source <;> cases below
  apply MatchesAt.freshValue
  apply rebuilding.others
  intro member
  exact (List.mem_cons.mp member).elim different ready

theorem read_predicate {key : CellKey} (named : key.2 ≠ "") :
    ((some key.2).filter fun text => decide (text ≠ "")).getD "deadline" = key.2 := by
  simp only [Option.filter, ne_eq, named, not_false_eq_true, decide_true, if_true, Option.getD_some]

/-- One row is rebuilt as a clean rebuild writes it, once the row it is made from is not pending. -/
theorem Rebuilding.rebuildNode (lawful : scheme.Lawful)
    (rebuilding : Rebuilding scheme derived canonical (id :: rest)) (apart : id ∉ rest)
    (ready : ∀ source, id.source? = some source → source ∉ rest) :
    ∃ derived', PredicateSchema.rebuildNode scheme canonical id derived = .ok derived' ∧
      Rebuilding scheme derived' canonical rest := by
  refine ⟨_, ?_, rebuilding.rebuild lawful apart⟩
  obtain ⟨named, row, held, shape, -⟩ := rebuilding.stale id List.mem_cons_self
  cases id with
  | evidence name => cases shape
  | assertion name => cases shape
  | predicatePresence key => cases shape
  | profile subject =>
      obtain ⟨kind, rowSubject, predicate, status, value⟩ := row
      cases shape
      have same := lawful.fromHeads derived canonical rowSubject rebuilding.heads
      simp only [PredicateSchema.rebuildNode, held, SQLiteRecovery.rebuildProfile, same,
        ProfileScheme.expected]
      cases scheme.clean canonical rowSubject <;> rfl
  | state key =>
      obtain ⟨kind, rowSubject, predicate, status, value⟩ := row
      cases shape
      have read := read_predicate named
      simp only [PredicateSchema.rebuildNode, SQLiteRecovery.rebuildNode, held, read,
        ProfileScheme.expected]
      cases canonical.latestAssertion key <;> rfl
  | support key =>
      have fresh := rebuilding.source_value rfl (ready (.state key) rfl)
      obtain ⟨kind, rowSubject, predicate, status, value⟩ := row
      cases shape
      have read := read_predicate named
      simp only [PredicateSchema.rebuildNode, SQLiteRecovery.rebuildNode, held, read,
        ProfileScheme.expected, fresh]
      cases canonical.latestAssertion key <;> rfl
  | context key =>
      have fresh := rebuilding.source_value rfl (ready (.support key) rfl)
      obtain ⟨kind, rowSubject, predicate, status, value⟩ := row
      cases shape
      have read := read_predicate named
      simp only [PredicateSchema.rebuildNode, SQLiteRecovery.rebuildNode, held, read,
        ProfileScheme.expected, fresh]
      cases canonical.latestAssertion key <;> rfl

/-- Rows listed so that none comes before the row it is made from. -/
def SourcesFirst (ids : List NodeId) : Prop :=
  ids.Pairwise fun id other => id ≠ other ∧ id.source? ≠ some other

theorem Rebuilding.rebuildAll (lawful : scheme.Lawful) {rows : List (Kind × NodeId)}
    (ordered : SourcesFirst (rows.map Prod.snd))
    (rebuilding : Rebuilding scheme derived canonical (rows.map Prod.snd)) :
    ∃ derived',
      rows.foldlM (fun derived row => PredicateSchema.rebuildNode scheme canonical row.2 derived)
        derived = .ok derived' ∧ Rebuilding scheme derived' canonical [] := by
  induction rows generalizing derived with
  | nil => exact ⟨derived, rfl, rebuilding⟩
  | cons row rows ih =>
      rw [List.map_cons] at rebuilding ordered
      obtain ⟨before, ordered⟩ := List.pairwise_cons.mp ordered
      have apart : row.2 ∉ rows.map Prod.snd := fun member => (before _ member).1 rfl
      have ready : ∀ source, row.2.source? = some source → source ∉ rows.map Prod.snd :=
        fun source below member => (before source member).2 below
      obtain ⟨next, ran, rebuilding⟩ := rebuilding.rebuildNode lawful apart ready
      obtain ⟨derived', rest, rebuilding⟩ := ih ordered rebuilding
      refine ⟨derived', ?_, rebuilding⟩
      rw [List.foldlM_cons, ran]
      exact rest

/-! ### The order of a repair -/

theorem mem_repairOrder {affected : List NodeId} {pair : Kind × NodeId} :
    pair ∈ repairOrder derived affected ↔
      pair.2 ∈ affected ∧ ∃ row, derived.nodes.lookup pair.2 = some row ∧ row.kind = pair.1 := by
  obtain ⟨kind, id⟩ := pair
  rw [repairOrder, List.mem_insertionSort, List.mem_filterMap]
  constructor
  · rintro ⟨other, member, found⟩
    obtain ⟨row, held, same⟩ := Option.map_eq_some_iff.mp found
    obtain ⟨rfl, rfl⟩ := Prod.mk.inj same
    exact ⟨member, row, held, rfl⟩
  · rintro ⟨member, row, held, rfl⟩
    exact ⟨id, member, by rw [held]; rfl⟩

instance : Std.Total RepairsBefore where
  total pair other := by
    rcases Nat.lt_trichotomy pair.1.priority other.1.priority with less | same | more
    · exact Or.inl (Or.inl less)
    · rcases String.le_total pair.2.text other.2.text with low | high
      · exact Or.inl (Or.inr ⟨same, low⟩)
      · exact Or.inr (Or.inr ⟨same.symm, high⟩)
    · exact Or.inr (Or.inl more)

instance : IsTrans (Kind × NodeId) RepairsBefore where
  trans first second third before after := by
    rcases before with less | ⟨same, low⟩
    · rcases after with less' | ⟨same', -⟩
      · exact Or.inl (less.trans less')
      · exact Or.inl (same' ▸ less)
    · rcases after with less' | ⟨same', low'⟩
      · exact Or.inl (same ▸ less')
      · exact Or.inr ⟨same.trans same', String.le_trans low low'⟩

theorem repairOrder_nodup {affected : List NodeId} (distinct : affected.Nodup) :
    ((repairOrder derived affected).map Prod.snd).Nodup := by
  have plain : ((affected.filterMap fun id =>
      (derived.nodes.lookup id).map fun row => (row.kind, id)).map Prod.snd).Sublist affected := by
    induction affected with
    | nil => exact List.Sublist.slnil
    | cons id rest ih =>
        have ih := ih distinct.of_cons
        rw [List.filterMap_cons]
        cases derived.nodes.lookup id with
        | none => exact ih.cons id
        | some row => exact ih.cons_cons id
  have sorted := (List.perm_insertionSort RepairsBefore (affected.filterMap fun id =>
      (derived.nodes.lookup id).map fun row => (row.kind, id))).map Prod.snd
  exact sorted.nodup_iff.mpr (distinct.sublist plain)

theorem source_priority {source : NodeId} (below : id.source? = some source) {row row' : DerivedRow}
    (shape : id.shape = some row.shape) (shape' : source.shape = some row'.shape) :
    row'.kind.priority < row.kind.priority := by
  obtain ⟨kind, subject, predicate, status, value⟩ := row
  obtain ⟨kind', subject', predicate', status', value'⟩ := row'
  cases id with
  | support key =>
      cases below
      cases shape
      cases shape'
      exact Nat.zero_lt_one
  | context key =>
      cases below
      cases shape
      cases shape'
      exact Nat.one_lt_two
  | evidence name => cases below
  | assertion name => cases below
  | predicatePresence key => cases below
  | profile subject => cases below
  | state key => cases below

/-- Rows of the right shape are repaired after the rows they are made from. -/
theorem repairOrder_sourcesFirst {affected : List NodeId} (distinct : affected.Nodup)
    (shaped : ∀ id ∈ affected, ∀ row, derived.nodes.lookup id = some row → id.shape = some row.shape) :
    SourcesFirst ((repairOrder derived affected).map Prod.snd) := by
  have sorted : (repairOrder derived affected).Pairwise RepairsBefore :=
    List.pairwise_insertionSort _ _
  have before : (repairOrder derived affected).Pairwise fun pair other =>
      pair.2.source? ≠ some other.2 := by
    apply List.Pairwise.imp_of_mem ?_ sorted
    intro pair other member member' before below
    obtain ⟨listed, row, held, kind⟩ := mem_repairOrder.mp member
    obtain ⟨listed', row', held', kind'⟩ := mem_repairOrder.mp member'
    have less := source_priority below (shaped _ listed row held) (shaped _ listed' row' held')
    rw [kind, kind'] at less
    rcases before with more | ⟨same, -⟩
    · exact Nat.lt_asymm less more
    · exact Nat.lt_irrefl _ (same ▸ less)
  have apart : (repairOrder derived affected).Pairwise fun pair other => pair.2 ≠ other.2 :=
    List.pairwise_map.mp (repairOrder_nodup distinct)
  exact List.pairwise_map.mpr (apart.and before)

/-! ### Pending rows changed before the repair -/

theorem setRow_lookup {change : DerivedRow → DerivedRow} {other : NodeId} :
    (derived.setRow id change).nodes.lookup other =
      if other = id then (derived.nodes.lookup other).map change else derived.nodes.lookup other := by
  unfold Derived.setRow
  split_ifs with same
  · subst same
    cases held : derived.nodes.lookup other with
    | none =>
        simp only [Option.map_none]
        exact held
    | some row => exact AList.lookup_insert _
  · cases held : derived.nodes.lookup id with
    | none => rfl
    | some row => exact AList.lookup_insert_ne same

theorem setRow_rest {change : DerivedRow → DerivedRow} :
    (derived.setRow id change).edges = derived.edges ∧
      (derived.setRow id change).heads = derived.heads ∧
      (derived.setRow id change).membership = derived.membership := by
  unfold Derived.setRow
  cases derived.nodes.lookup id <;> exact ⟨rfl, rfl, rfl⟩

/-- A pending row may be changed in any way that leaves it a row that readers may not use. -/
theorem Rebuilding.setRow (rebuilding : Rebuilding scheme derived canonical pending)
    (member : id ∈ pending) {change : DerivedRow → DerivedRow}
    (shape : ∀ row, (change row).shape = row.shape)
    (status : ∀ row, (change row).status ≠ .fresh) :
    Rebuilding scheme (derived.setRow id change) canonical pending where
  heads := by
    intro key
    rw [setRow_rest.2.1]
    exact rebuilding.heads key
  members := by
    rw [MembersMatch, setRow_rest.2.1, setRow_rest.2.2]
    exact rebuilding.members
  others other outside := by
    have different : other ≠ id := fun same => outside (same ▸ member)
    have before := rebuilding.others other outside
    constructor
    · rw [setRow_lookup, if_neg different, before.row]
    · intro source
      rw [setRow_rest.1]
      exact before.edges source
  stale other listed := by
    obtain ⟨named, row, held, shaped, unread⟩ := rebuilding.stale other listed
    by_cases same : other = id
    · refine ⟨named, change row, ?_, ?_, status row⟩
      · rw [setRow_lookup, if_pos same, held, Option.map_some]
      · rw [shape, shaped]
    · exact ⟨named, row, by rw [setRow_lookup, if_neg same, held], shaped, unread⟩

theorem invalidate_lookup {affected : List NodeId} {other : NodeId} :
    (derived.invalidate affected).nodes.lookup other =
      if other ∈ affected then
        (derived.nodes.lookup other).map fun row => { row with status := .invalid }
      else derived.nodes.lookup other := by
  induction affected generalizing derived with
  | nil => rfl
  | cons first rest ih =>
      show ((derived.setRow first _).invalidate rest).nodes.lookup other = _
      rw [ih, setRow_lookup]
      by_cases same : other = first
      · simp only [same, List.mem_cons, true_or, if_true, Option.map_map]
        split_ifs <;> rfl
      · simp only [List.mem_cons, same, false_or, if_false]

theorem invalidate_rest {affected : List NodeId} :
    (derived.invalidate affected).edges = derived.edges ∧
      (derived.invalidate affected).heads = derived.heads ∧
      (derived.invalidate affected).membership = derived.membership := by
  induction affected generalizing derived with
  | nil => exact ⟨rfl, rfl, rfl⟩
  | cons first rest ih =>
      obtain ⟨edges, heads, membership⟩ :=
        @ih (derived.setRow first fun row => { row with status := .invalid })
      obtain ⟨edges', heads', membership'⟩ :=
        @setRow_rest derived first fun row => { row with status := .invalid }
      exact ⟨edges.trans edges', heads.trans heads', membership.trans membership'⟩

theorem Rebuilding.invalidate {affected : List NodeId}
    (rebuilding : Rebuilding scheme derived canonical pending) (listed : affected ⊆ pending) :
    Rebuilding scheme (derived.invalidate affected) canonical pending := by
  induction affected generalizing derived with
  | nil => exact rebuilding
  | cons first rest ih =>
      have listed := List.cons_subset.mp listed
      apply ih ?_ listed.2
      exact rebuilding.setRow listed.1 (fun _ => rfl) fun _ => nofun

/-! ### The repair -/

theorem Rebuilding.repair (lawful : scheme.Lawful)
    (rebuilding : Rebuilding scheme derived canonical pending) (distinct : pending.Nodup) :
    ∃ derived',
      (repairOrder derived pending).foldlM
        (fun derived row => PredicateSchema.rebuildNode scheme canonical row.2 derived) derived =
          .ok derived' ∧ Rebuilding scheme derived' canonical [] := by
  have shaped : ∀ id ∈ pending, ∀ row, derived.nodes.lookup id = some row →
      id.shape = some row.shape := by
    intro id member row held
    obtain ⟨-, row', held', shape, -⟩ := rebuilding.stale id member
    rw [held] at held'
    exact Option.some.inj held' ▸ shape
  have ordered := repairOrder_sourcesFirst distinct shaped
  apply Rebuilding.rebuildAll lawful ordered
  apply rebuilding.congr
  intro id
  rw [List.mem_map]
  constructor
  · intro member
    obtain ⟨-, row, held, -, -⟩ := rebuilding.stale id member
    exact ⟨(row.kind, id), mem_repairOrder.mpr ⟨member, row, held, rfl⟩, rfl⟩
  · rintro ⟨pair, member, rfl⟩
    exact (mem_repairOrder.mp member).1

end Rebuild

end DurableContext.Maintenance
