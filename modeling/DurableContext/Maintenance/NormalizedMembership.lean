import DurableContext.Maintenance.Bootstrap

/-! The store with normalized membership rows, driven by one process at a time. -/

namespace DurableContext.Maintenance

/-! ### What a store with nothing under way holds -/

namespace ProfileScheme

variable {scheme : ProfileScheme} {db : Db}

theorem mem_cleanIds (lawful : scheme.Lawful) {canonical : Canonical} {id : NodeId}
    (expected : (scheme.expected canonical id).isSome) : id ∈ cleanIds canonical := by
  have cell_case : ∀ key, id.cell? = some key → id ∈ cleanIds canonical := by
    intro key cell
    apply List.mem_append_left
    rw [List.mem_flatMap]
    refine ⟨key, mem_cellKeys.mpr ((expected_cell_isSome cell).mp expected), ?_⟩
    rcases NodeId.cell_cases cell with rfl | rfl | rfl
    · exact List.mem_cons_self
    · exact List.mem_cons_of_mem _ List.mem_cons_self
    · exact List.mem_cons_of_mem _ (List.mem_cons_of_mem _ List.mem_cons_self)
  cases id with
  | evidence name => cases expected
  | assertion name => cases expected
  | predicatePresence key => cases expected
  | state key => exact cell_case key rfl
  | support key => exact cell_case key rfl
  | context key => exact cell_case key rfl
  | profile subject =>
      obtain ⟨predicate, live⟩ := (expected_profile_isSome lawful).mp expected
      apply List.mem_append_right
      apply List.mem_map_of_mem
      rw [mem_distinct]
      obtain ⟨row, member, same⟩ := Canonical.live_iff.mp live
      exact List.mem_map.mpr ⟨row, member, congrArg Prod.fst same⟩

theorem lookup_cleanNodes (lawful : scheme.Lawful) (canonical : Canonical) (id : NodeId) :
    (scheme.cleanNodes canonical).lookup id = (scheme.expected canonical id).map Prod.fst := by
  rw [cleanNodes, Table.lookup_tabulate]
  by_cases listed : id ∈ cleanIds canonical
  · rw [if_pos listed]
  · have nothing : scheme.expected canonical id = none := by
      rw [← Option.not_isSome_iff_eq_none]
      exact fun expected => listed (mem_cleanIds lawful expected)
    rw [if_neg listed, nothing]
    rfl

theorem matches_cleanRebuild (lawful : scheme.Lawful)
    (clean : Rebuilding scheme db.derived db.canonical []) :
    scheme.materializationMatchesCleanRebuild db := by
  constructor
  · apply Table.same_iff.mpr
    intro id
    rw [(clean.others id List.not_mem_nil).row, lookup_cleanNodes lawful]
  · apply Table.same_keys_iff.mpr
    rintro ⟨source, id⟩
    rw [(clean.others id List.not_mem_nil).edges source, cleanEdges, Table.mem_ofKeys,
      List.mem_flatMap]
    constructor
    · intro member
      obtain ⟨made, expected, -⟩ := mem_dependencies.mp member
      refine ⟨id, mem_cleanIds lawful ?_, List.mem_map_of_mem member⟩
      rw [expected]
      rfl
    · rintro ⟨other, -, member⟩
      obtain ⟨source', listed, same⟩ := List.mem_map.mp member
      obtain ⟨rfl, rfl⟩ := Prod.mk.inj same
      exact listed

theorem allDerivedFresh_of (clean : Rebuilding scheme db.derived db.canonical []) :
    allDerivedFresh db := by
  rintro ⟨id, row⟩ member
  have held : db.derived.nodes.lookup id = some row := AList.mem_lookup_iff.mpr member
  rw [(clean.others id List.not_mem_nil).row] at held
  obtain ⟨made, expected, rfl⟩ := Option.map_eq_some_iff.mp held
  exact (expected_row expected).2

theorem headIndexMatchesCanonical_of (heads : HeadsMatch db.derived db.canonical) :
    HeadIndexed.headIndexMatchesCanonical db := by
  apply Table.same_iff.mpr
  intro key
  rw [heads key, lookup_headIndex]

theorem membershipMatchesHeads_of (keeps : scheme.keepsMembership = true)
    (members : MembersMatch scheme db.derived) : NormalizedMembership.membershipMatchesHeads db := by
  apply Table.same_keys_iff.mpr
  intro key
  rw [members keeps key, Table.mem_ofKeys]
  exact AList.mem_keys

end ProfileScheme

/-! ### Draining -/

/-- What an undisturbed process sees is what it sees in the rounds until it returns. -/
theorem Sees.of_rounds {methods : Methods} {good : Db → Prop} {state : Counter × Db} (rounds : Nat)
    (returns : ((Counter.resume methods)^[rounds] state).1 = .idle)
    (each : ∀ round ≤ rounds, good ((Counter.resume methods)^[round] state).2) :
    Sees methods good state := by
  rintro state' ⟨round, rfl⟩
  by_cases within : round ≤ rounds
  · exact each round within
  · obtain ⟨more, rfl⟩ := Nat.exists_eq_add_of_le (Nat.le_of_not_le within)
    have returned : (Counter.resume methods)^[rounds] state =
        (.idle, ((Counter.resume methods)^[rounds] state).2) := Prod.ext returns rfl
    rw [Nat.add_comm, Function.iterate_add_apply, returned, resume_iterate_idle]
    exact each rounds (Nat.le_refl _)

namespace ProfileScheme

def started (scheme : ProfileScheme) (entityCount : Nat) : System Unit :=
  ⟨scheme.bootstrapped entityCount, fun _ => .idle⟩

structure UpToDate (scheme : ProfileScheme) (db : Db) : Prop where
  idle : db.journal = none
  fresh : allDerivedFresh db
  materialization : scheme.materializationMatchesCleanRebuild db
  heads : HeadIndexed.headIndexMatchesCanonical db

theorem drained_upToDate {scheme : ProfileScheme} (lawful : scheme.Lawful) (entityCount : Nat)
    {system : System Unit}
    (run : Run scheme.methods (fun _ => True) (fun db transaction => transaction.Tracks db)
      (scheme.started entityCount) system)
    (sees : Sees scheme.methods (fun db => db.TracksIntent ∧ db.StoresIntent)
      (.drainCheck, system.db)) :
    ∃ db', Drains scheme.methods system.db db' ∧ scheme.UpToDate db' ∧
      MembersMatch scheme db'.derived := by
  obtain ⟨run, -⟩ := run.alone rfl
  obtain ⟨⟨finished, active, waiting, ledger⟩, consistent⟩ :=
    run.consistent lawful (fun _ _ sound => sound) (bootstrapped_kept entityCount)
      (bootstrapped_consistent lawful entityCount)
  have working := Consistent.working lawful (SQLiteRecovery.bootstrapped entityCount).canonical
  obtain ⟨db', finished', drained, ⟨-, consistent'⟩, -, ledger'⟩ :=
    working.drained ledger ⟨⟨finished, active, waiting, ledger⟩, consistent⟩ sees
  have clean := consistent'.idle ledger'.journal
  exact ⟨db', drained, ⟨ledger'.journal, allDerivedFresh_of clean, matches_cleanRebuild lawful clean,
    headIndexMatchesCanonical_of clean.heads⟩, clean.members⟩

end ProfileScheme

namespace NormalizedMembership

/-- A move of the first assertion and then a new predicate of its subject; the recovery of the first
intent is killed after the invalidation. -/
def moveAndAddition : List (Action Unit) :=
  [.call () (.enqueue (.topologyMove 0 1) none),
    .call () (.enqueue (.predicateAddition 0 "owner" 55) none), .call () .promote,
    .call () (.apply .direct), .recover (), .resume (), .resume (), .kill ()]

/-- Two predicates that the assertion's name does not tell apart. -/
def repeatedAddition : List (Action Unit) :=
  .call () (.enqueue (.predicateAddition 0 "due date" 55) none) :: .drainAll () ::
    (List.replicate 18 (.resume ()) ++
      [.call () (.enqueue (.predicateAddition 0 "due_date" 56) none)])

end NormalizedMembership

end DurableContext.Maintenance
