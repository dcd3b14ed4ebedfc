import DurableContext.Maintenance.Identifiers
import DurableContext.Maintenance.Repair

/-! What an invalidation covers: every row that a clean rebuild writes differently, or no longer,
once an intent has been applied to the canonical rows. -/

namespace DurableContext.Maintenance

/-! ### The cells an intent changes -/

namespace Canonical

variable {canonical canonical' : Canonical} {intent : Intent} {key : CellKey}

/-- No assertion has the empty predicate. -/
def Named (canonical : Canonical) : Prop :=
  ∀ id row, canonical.assertions.lookup id = some row → row.predicate ≠ ""

theorem mem_rows {row : Assertion} :
    row ∈ canonical.rows ↔ ∃ id, canonical.assertions.lookup id = some row := by
  rw [rows, List.mem_map]
  constructor
  · rintro ⟨entry, member, rfl⟩
    exact ⟨entry.1, AList.mem_lookup_iff.mpr member⟩
  · rintro ⟨id, held⟩
    exact ⟨⟨id, row⟩, AList.mem_lookup_iff.mp held, rfl⟩

theorem Live.named (named : canonical.Named) (live : canonical.Live key) : key.2 ≠ "" := by
  obtain ⟨row, member, rfl⟩ := live_iff.mp live
  obtain ⟨id, held⟩ := mem_rows.mp member
  exact named id row held

theorem live_of_lookup {id : String} {row : Assertion}
    (held : canonical.assertions.lookup id = some row) : canonical.Live row.key :=
  live_iff.mpr ⟨row, mem_rows.mpr ⟨id, held⟩, rfl⟩

theorem assertionsOf_eq (canonical : Canonical) (key : CellKey) :
    canonical.assertionsOf key =
      (canonical.assertions.entries.filter fun entry => decide (entry.2.key = key)).map
        Sigma.snd := by
  rw [assertionsOf, rows, List.filter_map]
  rfl

theorem assertionsOf_erase {id : String}
    (old : ∀ stored, canonical.assertions.lookup id = some stored → stored.key ≠ key) :
    assertionsOf { canonical with assertions := canonical.assertions.erase id } key =
      canonical.assertionsOf key := by
  rw [assertionsOf_eq, assertionsOf_eq]
  refine congrArg (List.map fun entry : Sigma fun _ : String => Assertion => entry.2)
    (Table.filter_kerase ?_)
  rintro ⟨other, row⟩ member rfl
  exact decide_eq_false (old row (AList.mem_lookup_iff.mpr member))

theorem assertionsOf_insert {id : String} {row : Assertion}
    (old : ∀ stored, canonical.assertions.lookup id = some stored → stored.key ≠ key) :
    assertionsOf { canonical with assertions := canonical.assertions.insert id row } key =
      if row.key = key then row :: canonical.assertionsOf key else canonical.assertionsOf key := by
  have rest := assertionsOf_erase old
  rw [assertionsOf_eq] at rest
  rw [assertionsOf_eq]
  show ((⟨id, row⟩ :: canonical.assertions.entries.kerase id).filter
    fun entry : Sigma fun _ : String => Assertion => decide (entry.2.key = key)).map Sigma.snd = _
  by_cases same : row.key = key
  · simp only [List.filter_cons, same, decide_true, if_true, List.map_cons]
    exact congrArg (List.cons row) rest
  · simp only [List.filter_cons, same, decide_false, Bool.false_eq_true, if_false]
    exact rest

end Canonical

/-- An assertion is written under a predicate, and the row that it overwrites is of the same cell
unless the intent was admitted against that row. -/
def Tracked (canonical : Canonical) : Intent → Prop
  | .upsertAssertion item previous =>
      item.predicate ≠ "" ∧
        (previous = none → ∀ stored ∈ canonical.assertions.lookup item.id, stored.key = item.key)
  | _ => True

instance (canonical : Canonical) : DecidablePred (Tracked canonical) := fun intent =>
  match intent with
  | .upsertEvidence _ _ => isTrue trivial
  | .upsertAssertion _ _ => inferInstanceAs (Decidable (_ ∧ _))
  | .deleteAssertion _ _ => isTrue trivial

/-- An intent has been applied to the canonical rows, and its cells have been given their heads. -/
structure Applied (scheme : ProfileScheme) (derived : Derived) (before canonical : Canonical)
    (intent : Intent) : Prop where
  ran : before.apply intent = .ok canonical
  faithful : Faithful before intent
  tracked : Tracked before intent
  named : before.Named
  plain : before.Plain
  heads : HeadsMatch derived canonical
  members : MembersMatch scheme derived
  rows : ∀ id, MatchesAt scheme derived before id

section Cells

variable {before canonical : Canonical} {intent : Intent} {key : CellKey}

theorem Faithful.stored {item previous : Assertion}
    (faithful : Faithful before (.upsertAssertion item (some previous))) :
    before.assertions.lookup item.id = some previous := by
  have same := faithful.resolve_left nofun
  obtain ⟨row, held, equal⟩ := Option.map_eq_some_iff.mp same.symm
  cases equal
  exact held

theorem Faithful.deleted {id : String} {previous : Assertion}
    (faithful : Faithful before (.deleteAssertion id previous)) :
    before.assertions.lookup id = some previous := by
  have same := faithful.resolve_left nofun
  obtain ⟨row, held, equal⟩ := Option.map_eq_some_iff.mp same.symm
  cases equal
  exact held

theorem Tracked.stored {item stored : Assertion} {previous : Option Assertion}
    (tracked : Tracked before (.upsertAssertion item previous))
    (faithful : Faithful before (.upsertAssertion item previous))
    (held : before.assertions.lookup item.id = some stored) :
    stored.key ∈ (Intent.upsertAssertion item previous).cells := by
  cases previous with
  | none =>
      rw [tracked.2 rfl stored held]
      exact List.mem_cons_self
  | some previous =>
      rw [faithful.stored] at held
      rw [← Option.some.inj held]
      exact List.mem_cons_of_mem _ (List.mem_singleton_self _)

theorem assertionsOf_apply (ran : before.apply intent = .ok canonical)
    (faithful : Faithful before intent) (tracked : Tracked before intent)
    (outside : key ∉ intent.cells) : canonical.assertionsOf key = before.assertionsOf key := by
  cases intent with
  | upsertEvidence item previous =>
      obtain ⟨-, rfl⟩ := Canonical.apply_evidence ran
      rfl
  | upsertAssertion item previous =>
      obtain ⟨-, rfl⟩ := Canonical.apply_upsert ran
      rw [Canonical.assertionsOf_insert, if_neg]
      · rintro rfl
        exact outside List.mem_cons_self
      · rintro stored held rfl
        exact outside (tracked.stored faithful held)
  | deleteAssertion id previous =>
      obtain rfl := Except.ok.inj ran
      apply Canonical.assertionsOf_erase
      rintro stored held rfl
      rw [faithful.deleted] at held
      obtain rfl := Option.some.inj held
      exact outside (List.mem_singleton_self _)

theorem live_or_grows (faithful : Faithful before intent) (inside : key ∈ intent.cells) :
    before.Live key ∨ ∃ item previous, intent = .upsertAssertion item previous ∧ key = item.key ∧
      previous.any (fun old => decide (old.key = item.key)) = false := by
  cases intent with
  | upsertEvidence item previous => cases inside
  | deleteAssertion id previous =>
      rw [List.mem_singleton.mp inside]
      exact Or.inl (Canonical.live_of_lookup faithful.deleted)
  | upsertAssertion item previous =>
      cases previous with
      | none =>
          rw [List.mem_singleton.mp inside]
          exact Or.inr ⟨item, none, rfl, rfl, rfl⟩
      | some previous =>
          have live := Canonical.live_of_lookup faithful.stored
          rcases List.mem_cons.mp inside with rfl | inside
          · by_cases same : previous.key = item.key
            · exact Or.inl (same ▸ live)
            · exact Or.inr ⟨item, some previous, rfl, rfl, decide_eq_false same⟩
          · rw [List.mem_singleton.mp inside]
            exact Or.inl live

theorem evidence_apply {id : String} (ran : before.apply intent = .ok canonical)
    (other : intent.writeKey ≠ .evidence id) :
    canonical.evidence.lookup id = before.evidence.lookup id := by
  have same := Canonical.row_apply ran other.symm
  exact Option.map_injective (fun _ _ equal => CanonicalRow.evidence.inj equal) same

end Cells

/-! ### Rows that are expected alike -/

theorem payloads_congr {canonical other : Canonical} {ids : List String}
    (same : ∀ id ∈ ids, canonical.evidence.lookup id = other.evidence.lookup id) :
    canonical.payloads ids = other.payloads ids := by
  have rows : ids.filterMap (fun id =>
        (canonical.evidence.lookup id).map fun row => (id, row.payload)) =
      ids.filterMap fun id => (other.evidence.lookup id).map fun row => (id, row.payload) := by
    apply List.filterMap_congr
    intro id member
    rw [same id member]
  rw [Canonical.payloads, Canonical.payloads, rows]

def NodeId.cell? : NodeId → Option CellKey
  | state key => some key
  | support key => some key
  | context key => some key
  | _ => none

theorem NodeId.cell_cases {id : NodeId} {key : CellKey} (cell : id.cell? = some key) :
    id = .state key ∨ id = .support key ∨ id = .context key := by
  cases id with
  | evidence name => cases cell
  | assertion name => cases cell
  | predicatePresence key => cases cell
  | profile subject => cases cell
  | state key' => exact Or.inl (congrArg NodeId.state (Option.some.inj cell))
  | support key' => exact Or.inr (Or.inl (congrArg NodeId.support (Option.some.inj cell)))
  | context key' => exact Or.inr (Or.inr (congrArg NodeId.context (Option.some.inj cell)))

theorem expected_cell_congr {scheme : ProfileScheme} {canonical other : Canonical} {id : NodeId}
    {key : CellKey} (cell : id.cell? = some key)
    (same : canonical.assertionsOf key = other.assertionsOf key)
    (cited : id ≠ .state key → ∀ item, other.latestAssertion key = some item →
      ∀ name ∈ item.evidenceIds, canonical.evidence.lookup name = other.evidence.lookup name) :
    scheme.expected canonical id = scheme.expected other id := by
  have latest := Canonical.latest_congr same
  have payloads : id ≠ .state key → ∀ item, other.latestAssertion key = some item →
      canonical.payloads item.evidenceIds = other.payloads item.evidenceIds :=
    fun above item held => payloads_congr (cited above item held)
  rcases NodeId.cell_cases cell with rfl | rfl | rfl
  · simp only [ProfileScheme.expected, latest]
  · simp only [ProfileScheme.expected, latest]
    cases held : other.latestAssertion key with
    | none => rfl
    | some item =>
        rw [Option.map_some, payloads (by intro same; cases same) item held]
        rfl
  · simp only [ProfileScheme.expected, latest]
    cases held : other.latestAssertion key with
    | none => rfl
    | some item =>
        rw [Option.map_some, payloads (by intro same; cases same) item held]
        rfl

theorem expected_cell_isSome {scheme : ProfileScheme} {canonical : Canonical} {id : NodeId}
    {key : CellKey} (cell : id.cell? = some key) :
    (scheme.expected canonical id).isSome ↔ canonical.Live key := by
  rw [Canonical.live_iff_latest, ← Option.isSome_iff_exists]
  rcases NodeId.cell_cases cell with rfl | rfl | rfl
  · simp only [ProfileScheme.expected, Option.isSome_map]
  · simp only [ProfileScheme.expected, Option.isSome_map]
  · simp only [ProfileScheme.expected, Option.isSome_map]

theorem expected_profile_isSome {scheme : ProfileScheme} (lawful : scheme.Lawful)
    {canonical : Canonical} {subject : String} :
    (scheme.expected canonical (.profile subject)).isSome ↔
      ∃ predicate, canonical.Live (subject, predicate) := by
  rw [← lawful.present]
  simp only [ProfileScheme.expected, Option.isSome_map]

/-! ### What is affected -/

section Affected

variable {scheme : ProfileScheme} {derived : Derived} {before canonical : Canonical}
  {intent : Intent} {id source : NodeId} {key : CellKey} {subject : String}

theorem mem_nodes_iff (rows : ∀ id, MatchesAt scheme derived before id) :
    id ∈ derived.nodes ↔ (scheme.expected before id).isSome := by
  rw [Table.mem_iff, (rows id).row, Option.isSome_map]

theorem mem_edgeList : (source, id) ∈ derived.edgeList ↔ (source, id) ∈ derived.edges :=
  AList.mem_keys.symm

theorem edge_expected (rows : ∀ id, MatchesAt scheme derived before id)
    (edge : (source, id) ∈ derived.edgeList) : (scheme.expected before id).isSome := by
  obtain ⟨made, expected, -⟩ := mem_dependencies.mp (((rows id).edges source).mp (mem_edgeList.mp edge))
  rw [expected]
  rfl

theorem region_expected (rows : ∀ id, MatchesAt scheme derived before id) :
    ∀ id ∈ SQLiteRecovery.affected derived intent, (scheme.expected before id).isSome := by
  apply Reach.reach_induction
  · intro node start
    rcases List.mem_append.mp start with named | dependent
    · exact (mem_nodes_iff rows).mp (of_decide_eq_true (List.mem_filter.mp named).2)
    · obtain ⟨source, -, edge⟩ := Reach.mem_targets.mp dependent
      exact edge_expected rows edge
  · intro source node _ edge
    exact edge_expected rows edge

theorem region_of_seed (rows : ∀ id, MatchesAt scheme derived before id)
    (seed : id ∈ SQLiteRecovery.seeds intent) (expected : (scheme.expected before id).isSome) :
    id ∈ SQLiteRecovery.affected derived intent := by
  apply Reach.mem_reach_of_start
  apply List.mem_append_left
  exact List.mem_filter.mpr ⟨seed, decide_eq_true ((mem_nodes_iff rows).mpr expected)⟩

theorem region_of_edge (member : source ∈ SQLiteRecovery.affected derived intent)
    (edge : (source, id) ∈ derived.edges) : id ∈ SQLiteRecovery.affected derived intent :=
  Reach.mem_reach_of_edge member (mem_edgeList.mpr edge)

theorem state_mem_seeds (inside : key ∈ intent.cells) :
    .state key ∈ SQLiteRecovery.seeds intent := by
  cases intent with
  | upsertEvidence item previous => cases inside
  | upsertAssertion item previous => exact List.mem_append_left _ (List.mem_map_of_mem inside)
  | deleteAssertion id previous =>
      rw [List.mem_singleton.mp inside]
      exact List.mem_cons_self

theorem cell_edges (rows : ∀ id, MatchesAt scheme derived before id) (live : before.Live key) :
    (NodeId.state key, .support key) ∈ derived.edges ∧
      (NodeId.support key, .context key) ∈ derived.edges := by
  obtain ⟨item, latest⟩ := Canonical.live_iff_latest.mp live
  constructor
  · apply ((rows _).edges _).mpr
    apply mem_dependencies.mpr
    exact ⟨_, congrArg (Option.map _) latest, List.mem_cons_self⟩
  · apply ((rows _).edges _).mpr
    apply mem_dependencies.mpr
    exact ⟨_, congrArg (Option.map _) latest, List.mem_singleton_self _⟩

namespace Compositional

theorem mem_affected :
    id ∈ affected canonical intent derived ↔
      (id ∈ SQLiteRecovery.affected derived intent ∧
        (id.isProfile = false ∨
          ∃ subject ∈ manifestChangedSubjects canonical intent, .profile subject = id)) ∨
      ∃ spec ∈ GrowthAware.growthSpecs derived intent, spec.1 = id := by
  rw [affected, inOrder, List.mem_insertionSort, List.mem_dedup, List.mem_append, List.mem_filter]
  simp only [Bool.or_eq_true, Bool.not_eq_true', decide_eq_true_eq, List.mem_map]

theorem affected_nodup : (affected canonical intent derived).Nodup := by
  rw [affected, inOrder]
  exact (List.perm_insertionSort _ _).nodup_iff.mpr (List.nodup_dedup _)

theorem mem_affected_of_region (member : id ∈ SQLiteRecovery.affected derived intent)
    (plain : id.isProfile = false) : id ∈ affected canonical intent derived :=
  mem_affected.mpr (Or.inl ⟨member, Or.inl plain⟩)

theorem mem_affected_of_growth
    (candidate : id ∈ (GrowthAware.candidateGrowthSpecs intent).map Prod.fst)
    (absent : id ∉ derived.nodes) : id ∈ affected canonical intent derived := by
  obtain ⟨spec, member, rfl⟩ := List.mem_map.mp candidate
  exact mem_affected.mpr (Or.inr ⟨spec, List.mem_filter.mpr ⟨member, decide_eq_true absent⟩, rfl⟩)

end Compositional

theorem growth_ids {item : Assertion} {previous : Option Assertion}
    (grows : previous.any (fun old => decide (old.key = item.key)) = false) :
    (GrowthAware.candidateGrowthSpecs (.upsertAssertion item previous)).map Prod.fst =
      [.profile item.subjectId, .state item.key, .support item.key, .context item.key] := by
  simp only [GrowthAware.candidateGrowthSpecs, grows, Bool.false_eq_true, if_false, List.map_cons,
    List.map_nil]

theorem Canonical.live_upserted {item : Assertion} {previous : Option Assertion}
    (ran : before.apply (.upsertAssertion item previous) = .ok canonical) :
    canonical.Live item.key := by
  obtain ⟨-, rfl⟩ := Canonical.apply_upsert ran
  exact Canonical.live_iff.mpr ⟨_, Canonical.mem_rows.mpr ⟨item.id, AList.lookup_insert _⟩, rfl⟩

theorem count_of_gained {item : Assertion} {previous : Option Assertion}
    (ran : before.apply (.upsertAssertion item previous) = .ok canonical)
    (dead : ¬ before.Live item.key) : Compositional.predicateCount canonical item.key = 1 := by
  obtain ⟨-, rfl⟩ := Canonical.apply_upsert ran
  have fresh : ∀ stored, before.assertions.lookup item.id = some stored → stored.key ≠ item.key :=
    fun stored held same => dead (same ▸ Canonical.live_of_lookup held)
  rw [Compositional.predicateCount, Canonical.assertionsOf_insert fresh, not_not.mp dead]
  exact congrArg List.length (if_pos rfl)

theorem count_of_lost (changed : ¬ (canonical.Live key ↔ before.Live key))
    (live : before.Live key) : Compositional.predicateCount canonical key = 0 := by
  by_contra positive
  exact changed ⟨fun _ => live, fun _ empty => positive (congrArg List.length empty)⟩

theorem profileChanged_of_grows {item : Assertion} {previous : Option Assertion}
    (grows : previous.any (fun old => decide (old.key = item.key)) = false) :
    SQLiteRecovery.profileChanged item previous = true := by
  cases previous with
  | none => rfl
  | some previous =>
      have apart : previous.key ≠ item.key := of_decide_eq_false grows
      apply decide_eq_true
      by_contra same
      simp only [not_or, not_not] at same
      exact apart (Prod.ext same.1 same.2.1)

namespace Applied

variable (applied : Applied scheme derived before canonical intent)

include applied

theorem cell_covered (inside : key ∈ intent.cells) (cell : id.cell? = some key) :
    id ∈ Compositional.affected canonical intent derived := by
  have plain : id.isProfile = false := by
    rcases NodeId.cell_cases cell with rfl | rfl | rfl <;> rfl
  by_cases live : before.Live key
  · apply Compositional.mem_affected_of_region ?_ plain
    obtain ⟨support, context⟩ := cell_edges applied.rows live
    have state : .state key ∈ SQLiteRecovery.affected derived intent :=
      region_of_seed applied.rows (state_mem_seeds inside) ((expected_cell_isSome rfl).mpr live)
    rcases NodeId.cell_cases cell with rfl | rfl | rfl
    · exact state
    · exact region_of_edge state support
    · exact region_of_edge (region_of_edge state support) context
  · obtain ⟨item, previous, rfl, rfl, grows⟩ :=
      (live_or_grows applied.faithful inside).resolve_left live
    have absent : id ∉ derived.nodes := by
      rw [mem_nodes_iff applied.rows, expected_cell_isSome cell]
      exact live
    apply Compositional.mem_affected_of_growth ?_ absent
    rw [growth_ids grows]
    rcases NodeId.cell_cases cell with rfl | rfl | rfl
    · exact List.mem_cons_of_mem _ List.mem_cons_self
    · exact List.mem_cons_of_mem _ (List.mem_cons_of_mem _ List.mem_cons_self)
    · exact List.mem_cons_of_mem _ (List.mem_cons_of_mem _
        (List.mem_cons_of_mem _ List.mem_cons_self))

theorem citing_covered {item : EvidenceRecord} {previous : Option EvidenceRecord} {row : Assertion}
    (writes : intent = .upsertEvidence item previous)
    (latest : before.latestAssertion key = some row) (cited : item.id ∈ row.evidenceIds)
    (cell : id.cell? = some key) (above : id ≠ .state key) :
    id ∈ Compositional.affected canonical intent derived := by
  have support_edge : (NodeId.evidence item.id, .support key) ∈ derived.edges := by
    apply ((applied.rows _).edges _).mpr
    apply mem_dependencies.mpr
    refine ⟨_, congrArg (Option.map _) latest, ?_⟩
    exact List.mem_cons_of_mem _ (List.mem_cons_of_mem _ (List.mem_map_of_mem cited))
  have support : .support key ∈ SQLiteRecovery.affected derived intent := by
    apply Reach.mem_reach_of_start
    apply List.mem_append_right
    rw [writes]
    exact Reach.mem_targets.mpr ⟨_, List.mem_singleton_self _, mem_edgeList.mpr support_edge⟩
  have live : before.Live key := Canonical.live_iff_latest.mpr ⟨row, latest⟩
  rcases NodeId.cell_cases cell with rfl | rfl | rfl
  · exact absurd rfl above
  · exact Compositional.mem_affected_of_region support rfl
  · apply Compositional.mem_affected_of_region ?_ rfl
    exact region_of_edge support (cell_edges applied.rows live).2

theorem profile_covered_of_seed (lawful : scheme.Lawful)
    (changed : subject ∈ Compositional.manifestChangedSubjects canonical intent)
    (seed : .profile subject ∈ SQLiteRecovery.seeds intent)
    (live : ∃ predicate, before.Live (subject, predicate)) :
    .profile subject ∈ Compositional.affected canonical intent derived := by
  apply Compositional.mem_affected.mpr
  refine Or.inl ⟨?_, Or.inr ⟨subject, changed, rfl⟩⟩
  exact region_of_seed applied.rows seed ((expected_profile_isSome lawful).mpr live)

/-- A cell that is live before or after but not both belongs to the intent. -/
theorem inside_of_changed (changed : ¬ (canonical.Live key ↔ before.Live key)) :
    key ∈ intent.cells := by
  by_contra outside
  apply changed
  rw [Canonical.Live, Canonical.Live,
    assertionsOf_apply applied.ran applied.faithful applied.tracked outside]

omit applied in
theorem profile_gained {item : Assertion} {previous : Option Assertion}
    (applied : Applied scheme derived before canonical (.upsertAssertion item previous))
    (lawful : scheme.Lawful) (dead : ¬ before.Live item.key) :
    .profile item.subjectId ∈
      Compositional.affected canonical (.upsertAssertion item previous) derived := by
  have grows : previous.any (fun old => decide (old.key = item.key)) = false := by
    cases previous with
    | none => rfl
    | some previous =>
        apply decide_eq_false
        intro same
        exact dead (same ▸ Canonical.live_of_lookup applied.faithful.stored)
  by_cases present : .profile item.subjectId ∈ derived.nodes
  · have live := (expected_profile_isSome lawful).mp ((mem_nodes_iff applied.rows).mp present)
    apply applied.profile_covered_of_seed lawful ?_ ?_ live
    · simp only [Compositional.manifestChangedSubjects, grows, Bool.false_eq_true, if_false,
        count_of_gained applied.ran dead, if_true]
      exact List.mem_append_right _ (List.mem_singleton_self _)
    · apply List.mem_append_right
      rw [if_pos (profileChanged_of_grows grows)]
      exact List.mem_cons_self
  · apply Compositional.mem_affected_of_growth ?_ present
    rw [growth_ids grows]
    exact List.mem_cons_self

theorem profile_covered (lawful : scheme.Lawful) {predicate : String}
    (changed : ¬ (canonical.Live (subject, predicate) ↔ before.Live (subject, predicate))) :
    .profile subject ∈ Compositional.affected canonical intent derived := by
  have inside := applied.inside_of_changed changed
  cases intent with
  | upsertEvidence item previous => cases inside
  | deleteAssertion id previous =>
      have same : (subject, predicate) = previous.key := List.mem_singleton.mp inside
      have live := Canonical.live_of_lookup applied.faithful.deleted
      rw [same] at changed
      obtain rfl : subject = previous.subjectId := congrArg Prod.fst same
      apply applied.profile_covered_of_seed lawful ?_ ?_ ⟨_, live⟩
      · simp only [Compositional.manifestChangedSubjects, count_of_lost changed live, if_true,
          List.mem_singleton]
      · exact List.mem_cons_of_mem _ (List.mem_singleton_self _)
  | upsertAssertion item previous =>
      by_cases same : (subject, predicate) = item.key
      · rw [same] at changed
        obtain rfl : subject = item.subjectId := congrArg Prod.fst same
        exact applied.profile_gained lawful fun live =>
          changed ⟨fun _ => live, fun _ => Canonical.live_upserted applied.ran⟩
      · cases previous with
        | none => exact absurd (List.mem_singleton.mp inside) same
        | some previous =>
            obtain same' : (subject, predicate) = previous.key :=
              List.mem_singleton.mp ((List.mem_cons.mp inside).resolve_left same)
            have live := Canonical.live_of_lookup applied.faithful.stored
            have apart : previous.key ≠ item.key := fun equal => same (same'.trans equal)
            rw [same'] at changed
            obtain rfl : subject = previous.subjectId := congrArg Prod.fst same'
            have grows : (some previous).any (fun old => decide (old.key = item.key)) = false :=
              decide_eq_false apart
            apply applied.profile_covered_of_seed lawful ?_ ?_ ⟨_, live⟩
            · simp only [Compositional.manifestChangedSubjects, grows, Bool.false_eq_true, if_false]
              apply List.mem_append_left
              apply List.mem_filterMap.mpr
              exact ⟨previous, List.mem_singleton_self _, if_pos (count_of_lost changed live)⟩
            · apply List.mem_append_right
              rw [if_pos (profileChanged_of_grows grows)]
              exact List.mem_cons_of_mem _ (List.mem_singleton_self _)

theorem expected_outside (lawful : scheme.Lawful)
    (outside : id ∉ Compositional.affected canonical intent derived) :
    scheme.expected canonical id = scheme.expected before id := by
  have cell_case : ∀ key, id.cell? = some key →
      scheme.expected canonical id = scheme.expected before id := by
    intro key cell
    apply expected_cell_congr cell
    · apply assertionsOf_apply applied.ran applied.faithful applied.tracked
      exact fun inside => outside (applied.cell_covered inside cell)
    · intro above row latest name cited
      apply evidence_apply applied.ran
      intro same
      cases intent with
      | upsertAssertion item previous => cases same
      | deleteAssertion id previous => cases same
      | upsertEvidence item previous =>
          cases same
          exact outside (applied.citing_covered rfl latest cited cell above)
  cases id with
  | evidence name => rfl
  | assertion name => rfl
  | predicatePresence key => rfl
  | state key => exact cell_case key rfl
  | support key => exact cell_case key rfl
  | context key => exact cell_case key rfl
  | profile subject =>
      have same : scheme.clean canonical subject = scheme.clean before subject := by
        apply lawful.congr
        intro predicate
        by_contra changed
        exact outside (applied.profile_covered lawful changed)
      rw [ProfileScheme.expected, same, ProfileScheme.expected]

end Applied

/-! ### The rows after an invalidation -/

theorem lookup_growth (nodes : Table NodeId DerivedRow) (specs : List (NodeId × DerivedRow)) :
    (specs.foldl (fun nodes spec => if spec.1 ∈ nodes then nodes else nodes.insert spec.1 spec.2)
        nodes).lookup id =
      (nodes.lookup id).or ((specs.find? fun spec => decide (spec.1 = id)).map Prod.snd) := by
  induction specs generalizing nodes with
  | nil => exact Option.or_none.symm
  | cons spec rest ih =>
      rw [List.foldl_cons, ih]
      by_cases same : spec.1 = id
      · simp only [List.find?_cons, same, decide_true, Option.map_some]
        by_cases present : spec.1 ∈ nodes
        · rw [if_pos (same ▸ present)]
          rw [same, Table.mem_iff, Option.isSome_iff_exists] at present
          obtain ⟨row, held⟩ := present
          rw [held]
          rfl
        · rw [if_neg (same ▸ present)]
          rw [same, Table.mem_iff, Option.not_isSome_iff_eq_none] at present
          rw [present, AList.lookup_insert]
          rfl
      · simp only [List.find?_cons, same, decide_false]
        have kept : (if spec.1 ∈ nodes then nodes else nodes.insert spec.1 spec.2).lookup id =
            nodes.lookup id := by
          split_ifs
          · rfl
          · exact AList.lookup_insert_ne fun equal => same equal.symm
        rw [kept]

theorem candidate_stale {spec : NodeId × DerivedRow}
    (candidate : spec ∈ GrowthAware.candidateGrowthSpecs intent) (tracked : Tracked before intent) :
    spec.1.shape = some spec.2.shape ∧ spec.1.Named := by
  cases intent with
  | upsertEvidence item previous => cases candidate
  | deleteAssertion id previous => cases candidate
  | upsertAssertion item previous =>
      simp only [GrowthAware.candidateGrowthSpecs] at candidate
      split_ifs at candidate
      · cases candidate
      · rcases List.mem_cons.mp candidate with rfl | candidate
        · exact ⟨rfl, trivial⟩
        · rcases List.mem_cons.mp candidate with rfl | candidate
          · exact ⟨rfl, tracked.1⟩
          · rcases List.mem_cons.mp candidate with rfl | candidate
            · exact ⟨rfl, tracked.1⟩
            · obtain rfl := List.mem_singleton.mp candidate
              exact ⟨rfl, tracked.1⟩

theorem expected_named (named : before.Named) (expected : (scheme.expected before id).isSome) :
    id.Named := by
  cases id with
  | evidence name => trivial
  | assertion name => trivial
  | predicatePresence key => trivial
  | profile subject => trivial
  | state key => exact ((expected_cell_isSome rfl).mp expected).named named
  | support key => exact ((expected_cell_isSome rfl).mp expected).named named
  | context key => exact ((expected_cell_isSome rfl).mp expected).named named

theorem Applied.affected_row (applied : Applied scheme derived before canonical intent)
    (member : id ∈ Compositional.affected canonical intent derived) :
    id.Named ∧ ∃ row,
      (GrowthAware.ensureGrowthNodes derived (GrowthAware.growthSpecs derived intent)).nodes.lookup
        id = some row ∧ id.shape = some row.shape := by
  have looked := @lookup_growth id derived.nodes (GrowthAware.growthSpecs derived intent)
  rcases Compositional.mem_affected.mp member with ⟨region, -⟩ | ⟨spec, grown, same⟩
  · have expected := region_expected applied.rows id region
    obtain ⟨made, found⟩ := Option.isSome_iff_exists.mp expected
    refine ⟨expected_named applied.named expected, made.1, ?_, (expected_row found).1⟩
    refine looked.trans ?_
    rw [(applied.rows id).row, found]
    rfl
  · have absent : derived.nodes.lookup id = none := by
      have missing := of_decide_eq_true (List.mem_filter.mp grown).2
      rw [same, Table.mem_iff, Option.not_isSome_iff_eq_none] at missing
      exact missing
    have some_spec : ((GrowthAware.growthSpecs derived intent).find? fun spec =>
        decide (spec.1 = id)).isSome := by
      rw [List.find?_isSome]
      exact ⟨spec, grown, decide_eq_true same⟩
    obtain ⟨found, isFound⟩ := Option.isSome_iff_exists.mp some_spec
    have same' : decide (found.1 = id) = true :=
      List.find?_some (p := fun spec : NodeId × DerivedRow => decide (spec.1 = id)) isFound
    have listed := (List.mem_filter.mp (List.mem_of_find?_eq_some isFound)).1
    obtain ⟨shape, named⟩ := candidate_stale listed applied.tracked
    rw [of_decide_eq_true same'] at shape named
    refine ⟨named, found.2, looked.trans ?_, shape⟩
    rw [absent, isFound]
    rfl

theorem Applied.unaffected_row (outside : id ∉ Compositional.affected canonical intent derived) :
    (GrowthAware.ensureGrowthNodes derived (GrowthAware.growthSpecs derived intent)).nodes.lookup
      id = derived.nodes.lookup id := by
  have looked := @lookup_growth id derived.nodes (GrowthAware.growthSpecs derived intent)
  have nothing : (GrowthAware.growthSpecs derived intent).find? (fun spec =>
      decide (spec.1 = id)) = none := by
    rw [List.find?_eq_none]
    intro spec grown same
    exact outside (Compositional.mem_affected.mpr (Or.inr ⟨spec, grown, of_decide_eq_true same⟩))
  rw [nothing] at looked
  exact looked.trans Option.or_none

theorem Applied.invalidate (lawful : scheme.Lawful)
    (applied : Applied scheme derived before canonical intent) :
    Rebuilding scheme (Compositional.invalidate canonical intent derived).2 canonical
      (Compositional.affected canonical intent derived) := by
  have rest := @invalidate_rest
    (GrowthAware.ensureGrowthNodes derived (GrowthAware.growthSpecs derived intent))
    (Compositional.affected canonical intent derived)
  constructor
  case heads =>
    intro key
    exact (congrArg (AList.lookup key) rest.2.1).trans (applied.heads key)
  case members =>
    intro keeps key
    exact (iff_of_eq (congrArg (key ∈ ·) rest.2.2)).trans
      ((applied.members keeps key).trans (iff_of_eq (congrArg (key ∈ ·) rest.2.1.symm)))
  case others =>
    intro id outside
    have same := applied.expected_outside lawful outside
    constructor
    · refine invalidate_lookup.trans ?_
      rw [if_neg outside, Applied.unaffected_row outside, same]
      exact (applied.rows id).row
    · intro source
      rw [ProfileScheme.dependencies, same]
      refine Iff.trans ?_ ((applied.rows id).edges source)
      exact iff_of_eq (congrArg (fun edges => (source, id) ∈ edges) rest.1)
  case stale =>
    intro id member
    obtain ⟨named, row, held, shape⟩ := applied.affected_row member
    refine ⟨named, { row with status := .invalid }, ?_, shape, nofun⟩
    refine invalidate_lookup.trans ?_
    rw [if_pos member, held]
    rfl

/-! ### The cells that are read no more -/

/-- A row of one of the cells, or the profile of a subject of one of them. -/
def NodeId.Touches (cells : List CellKey) : NodeId → Prop
  | state key => key ∈ cells
  | support key => key ∈ cells
  | context key => key ∈ cells
  | profile subject => ∃ key ∈ cells, key.1 = subject
  | _ => True

theorem NodeId.Touches.mono {cells others : List CellKey} (touches : id.Touches cells)
    (listed : cells ⊆ others) : id.Touches others := by
  cases id with
  | evidence name => trivial
  | assertion name => trivial
  | predicatePresence key => trivial
  | state key => exact listed touches
  | support key => exact listed touches
  | context key => exact listed touches
  | profile subject =>
      obtain ⟨key, member, same⟩ := touches
      exact ⟨key, listed member, same⟩

theorem NodeId.touches_cell {cells : List CellKey} (cell : id.cell? = some key) :
    id.Touches cells ↔ key ∈ cells := by
  rcases NodeId.cell_cases cell with rfl | rfl | rfl <;> rfl

theorem mem_readCells (inside : key ∈ intent.cells) : key ∈ readCells before intent := by
  cases intent with
  | upsertEvidence item previous => cases inside
  | upsertAssertion item previous => exact inside
  | deleteAssertion id previous => exact inside

theorem previous_mem_cells {item old : Assertion} {previous : Option Assertion}
    (held : previous = some old) : old.key ∈ (Intent.upsertAssertion item previous).cells := by
  rw [held]
  exact List.mem_cons_of_mem _ (List.mem_singleton_self _)

theorem seed_touches (seed : id ∈ SQLiteRecovery.seeds intent) :
    id.Touches (readCells before intent) := by
  cases intent with
  | upsertEvidence item previous => cases seed
  | deleteAssertion name previous =>
      rcases List.mem_cons.mp seed with rfl | seed
      · exact List.mem_singleton_self _
      · obtain rfl := List.mem_singleton.mp seed
        exact ⟨_, List.mem_singleton_self _, rfl⟩
  | upsertAssertion item previous =>
      rcases List.mem_append.mp seed with state | profile
      · obtain ⟨key, inside, rfl⟩ := List.mem_map.mp state
        exact inside
      · split_ifs at profile
        · obtain ⟨subject, member, rfl⟩ := List.mem_map.mp profile
          rcases List.mem_cons.mp member with rfl | member
          · exact ⟨_, List.mem_cons_self, rfl⟩
          · obtain ⟨old, held, rfl⟩ := Option.map_eq_some_iff.mp (Option.mem_toList.mp member)
            exact ⟨_, previous_mem_cells held, rfl⟩
        · cases profile

theorem seed_shape (seed : id ∈ SQLiteRecovery.seeds intent) : id.shape ≠ none := by
  cases intent with
  | upsertEvidence item previous => cases seed
  | deleteAssertion name previous =>
      rcases List.mem_cons.mp seed with rfl | seed
      · nofun
      · obtain rfl := List.mem_singleton.mp seed
        nofun
  | upsertAssertion item previous =>
      rcases List.mem_append.mp seed with state | profile
      · obtain ⟨key, -, rfl⟩ := List.mem_map.mp state
        nofun
      · split_ifs at profile
        · obtain ⟨subject, -, rfl⟩ := List.mem_map.mp profile
          nofun
        · cases profile

theorem changed_subject_touches {subject : String}
    (changed : subject ∈ Compositional.manifestChangedSubjects canonical intent) :
    ∃ key ∈ intent.cells, key.1 = subject := by
  cases intent with
  | upsertEvidence item previous => cases changed
  | deleteAssertion id previous =>
      simp only [Compositional.manifestChangedSubjects] at changed
      split_ifs at changed
      · exact ⟨_, List.mem_singleton_self _, (List.mem_singleton.mp changed).symm⟩
      · cases changed
  | upsertAssertion item previous =>
      simp only [Compositional.manifestChangedSubjects] at changed
      by_cases stays : previous.any (fun old => decide (old.key = item.key)) = true
      · rw [if_pos stays] at changed
        cases changed
      · rw [if_neg stays] at changed
        rcases List.mem_append.mp changed with lost | gained
        · obtain ⟨old, held, dead⟩ := List.mem_filterMap.mp lost
          split_ifs at dead
          obtain rfl := Option.some.inj dead
          exact ⟨_, previous_mem_cells (Option.mem_toList.mp held), rfl⟩
        · split_ifs at gained
          · exact ⟨_, List.mem_cons_self, (List.mem_singleton.mp gained).symm⟩
          · cases gained

/-- An evidence row is cited by the supports of the cells that are read with it. -/
theorem evidence_edge {name : String}
    (member : .evidence name ∈ scheme.dependencies before id) (plain : id.isProfile = false) :
    ∃ key row, id.cell? = some key ∧ before.latestAssertion key = some row ∧
      name ∈ row.evidenceIds := by
  obtain ⟨made, expected, member⟩ := mem_dependencies.mp member
  cases id with
  | evidence name => cases expected
  | assertion name => cases expected
  | predicatePresence key => cases expected
  | profile subject => cases plain
  | state key =>
      obtain ⟨row, latest, rfl⟩ := Option.map_eq_some_iff.mp expected
      cases List.mem_singleton.mp member
  | context key =>
      obtain ⟨row, latest, rfl⟩ := Option.map_eq_some_iff.mp expected
      cases List.mem_singleton.mp member
  | support key =>
      obtain ⟨row, latest, rfl⟩ := Option.map_eq_some_iff.mp expected
      rcases List.mem_cons.mp member with same | member
      · cases same
      · rcases List.mem_cons.mp member with same | member
        · cases same
        · obtain ⟨cited, listed, same⟩ := List.mem_map.mp member
          cases same
          exact ⟨key, row, rfl, latest, listed⟩

theorem source_touches {cells : List CellKey} (below : id.source? = some source)
    (touches : source.Touches cells) : id.Touches cells := by
  cases id with
  | support key =>
      cases below
      exact touches
  | context key =>
      cases below
      exact touches
  | evidence name => cases below
  | assertion name => cases below
  | predicatePresence key => cases below
  | profile subject => cases below
  | state key => cases below

theorem edge_touches (lawful : scheme.Lawful) (rows : ∀ id, MatchesAt scheme derived before id)
    {cells : List CellKey} (derivable : source.shape ≠ none) (touches : source.Touches cells)
    (edge : (source, id) ∈ derived.edgeList) : id.Touches cells := by
  have member := ((rows id).edges source).mp (mem_edgeList.mp edge)
  exact source_touches (dependency_source lawful derivable member) touches

/-- What depends on the evidence an intent writes is of a cell that is read with it. -/
theorem evidence_touches {name : String}
    (canonicalSeed : .evidence name ∈ SQLiteRecovery.canonicalSeeds intent)
    (rows : ∀ id, MatchesAt scheme derived before id)
    (plain : id.isProfile = false) (edge : (.evidence name, id) ∈ derived.edgeList) :
    id.Touches (readCells before intent) := by
  have member := ((rows id).edges _).mp (mem_edgeList.mp edge)
  obtain ⟨key, row, cell, latest, cited⟩ := evidence_edge member plain
  rw [NodeId.touches_cell cell]
  cases intent with
  | upsertAssertion item previous => cases canonicalSeed
  | deleteAssertion id previous => cases canonicalSeed
  | upsertEvidence item previous =>
      cases List.mem_singleton.mp canonicalSeed
      rw [← Canonical.latest_key latest]
      apply List.mem_map_of_mem
      refine List.mem_filter.mpr ⟨?_, decide_eq_true cited⟩
      exact List.mem_of_mem_filter (Canonical.latest_mem latest)

theorem region_touches (lawful : scheme.Lawful) (rows : ∀ id, MatchesAt scheme derived before id) :
    ∀ id ∈ SQLiteRecovery.affected derived intent, id.isProfile = false →
      id.Touches (readCells before intent) := by
  -- a profile that only cites the evidence need not touch the cells, but nothing depends on it
  have every : ∀ id ∈ SQLiteRecovery.affected derived intent, id.shape ≠ none ∧
      (id.isProfile = false → id.Touches (readCells before intent)) := by
    have shaped : ∀ id, (scheme.expected before id).isSome → id.shape ≠ none := by
      intro id expected
      obtain ⟨made, found⟩ := Option.isSome_iff_exists.mp expected
      rw [(expected_row found).1]
      nofun
    apply Reach.reach_induction
    · intro node start
      rcases List.mem_append.mp start with named | dependent
      · obtain ⟨seed, present⟩ := List.mem_filter.mp named
        have expected := (mem_nodes_iff rows).mp (of_decide_eq_true present)
        exact ⟨shaped node expected, fun _ => seed_touches seed⟩
      · obtain ⟨source, listed, edge⟩ := Reach.mem_targets.mp dependent
        refine ⟨shaped node (edge_expected rows edge), fun plain => ?_⟩
        rcases List.mem_append.mp listed with seed | canonicalSeed
        · exact edge_touches lawful rows (seed_shape seed) (seed_touches seed) edge
        · cases intent with
          | upsertAssertion item previous => cases canonicalSeed
          | deleteAssertion id previous => cases canonicalSeed
          | upsertEvidence item previous =>
              obtain rfl := List.mem_singleton.mp canonicalSeed
              exact evidence_touches (List.mem_singleton_self _) rows plain edge
    · rintro source node ⟨derivable, touches⟩ edge
      refine ⟨shaped node (edge_expected rows edge), fun plain => ?_⟩
      have member := ((rows node).edges source).mp (mem_edgeList.mp edge)
      have below := dependency_source lawful derivable member
      apply source_touches below
      apply touches
      cases source with
      | profile subject => cases node <;> cases below
      | _ => rfl
  exact fun id member => (every id member).2

theorem Compositional.affected_touches (lawful : scheme.Lawful)
    (rows : ∀ id, MatchesAt scheme derived before id) :
    ∀ id ∈ affected canonical intent derived, id.Touches (readCells before intent) := by
  intro id member
  rcases mem_affected.mp member with ⟨region, plain | ⟨subject, changed, rfl⟩⟩ | ⟨spec, grown, rfl⟩
  · exact region_touches lawful rows id region plain
  · obtain ⟨key, inside, same⟩ := changed_subject_touches changed
    exact ⟨key, mem_readCells inside, same⟩
  · have candidate := (List.mem_filter.mp grown).1
    cases intent with
    | upsertEvidence item previous => cases candidate
    | deleteAssertion id previous => cases candidate
    | upsertAssertion item previous =>
        simp only [GrowthAware.candidateGrowthSpecs] at candidate
        split_ifs at candidate
        · cases candidate
        · rcases List.mem_cons.mp candidate with rfl | candidate
          · exact ⟨_, List.mem_cons_self, rfl⟩
          · rcases List.mem_cons.mp candidate with rfl | candidate
            · exact List.mem_cons_self
            · rcases List.mem_cons.mp candidate with rfl | candidate
              · exact List.mem_cons_self
              · obtain rfl := List.mem_singleton.mp candidate
                exact List.mem_cons_self

end Affected

end DurableContext.Maintenance
