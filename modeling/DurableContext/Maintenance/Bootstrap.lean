import DurableContext.Maintenance.Consistent

/-! A new database: its derived rows are those of a clean rebuild. -/

namespace DurableContext.Maintenance

namespace SQLiteRecovery

theorem entities_succ (entityCount : Nat) :
    (entities (entityCount + 1)).canonical =
        bootstrapCanonical (entities entityCount).canonical entityCount ∧
      (entities (entityCount + 1)).derived =
        bootstrapDerived (entities entityCount).derived entityCount := by
  constructor
  · show (List.range (entityCount + 1)).foldl bootstrapCanonical .empty = _
    rw [List.range_succ, List.foldl_append]
    rfl
  · show (List.range (entityCount + 1)).foldl bootstrapDerived .empty = _
    rw [List.range_succ, List.foldl_append]
    rfl

variable {entityCount : Nat}

theorem entities_assertion {id : String} {row : Assertion}
    (held : (entities entityCount).canonical.assertions.lookup id = some row) :
    ∃ i < entityCount, id = assertionId i ∧ row = bootstrapAssertion i := by
  induction entityCount with
  | zero => cases held
  | succ n ih =>
      rw [(entities_succ n).1, bootstrapCanonical] at held
      by_cases same : id = assertionId n
      · subst same
        rw [AList.lookup_insert] at held
        exact ⟨n, Nat.lt_succ_self n, rfl, (Option.some.inj held).symm⟩
      · rw [AList.lookup_insert_ne same] at held
        obtain ⟨i, below, rest⟩ := ih held
        exact ⟨i, Nat.lt_succ_of_lt below, rest⟩

theorem entities_named (entityCount : Nat) : (entities entityCount).canonical.Named := by
  intro id row held
  obtain ⟨i, -, -, rfl⟩ := entities_assertion held
  exact (by decide : "deadline" ≠ "")

theorem entities_plain (entityCount : Nat) : (entities entityCount).canonical.Plain := by
  intro id row held
  obtain ⟨i, -, -, rfl⟩ := entities_assertion held
  exact subjectId_plain i

theorem entities_live {key : CellKey} (live : (entities entityCount).canonical.Live key) :
    ∃ i < entityCount, key = (subjectId i, "deadline") := by
  obtain ⟨row, member, rfl⟩ := Canonical.live_iff.mp live
  obtain ⟨id, held⟩ := Canonical.mem_rows.mp member
  obtain ⟨i, below, -, rfl⟩ := entities_assertion held
  exact ⟨i, below, rfl⟩

theorem not_live_next : ¬ (entities entityCount).canonical.Live (subjectId entityCount, "deadline") := by
  intro live
  obtain ⟨i, below, same⟩ := entities_live live
  have equal : entityCount = i := subjectId_inj (congrArg Prod.fst same)
  exact Nat.lt_irrefl i (equal ▸ below)

theorem assertionsOf_succ (key : CellKey) :
    (entities (entityCount + 1)).canonical.assertionsOf key =
      if key = (subjectId entityCount, "deadline") then [bootstrapAssertion entityCount]
      else (entities entityCount).canonical.assertionsOf key := by
  have fresh : ∀ stored,
      (entities entityCount).canonical.assertions.lookup (assertionId entityCount) = some stored →
        stored.key ≠ key := by
    intro stored held
    obtain ⟨i, below, same, -⟩ := entities_assertion held
    have equal : entityCount = i := assertionId_inj same
    exact absurd below (equal ▸ Nat.lt_irrefl i)
  have inserted := @Canonical.assertionsOf_insert (entities entityCount).canonical key
    (assertionId entityCount) (bootstrapAssertion entityCount) fresh
  rw [(entities_succ entityCount).1]
  refine inserted.trans ?_
  have own : (bootstrapAssertion entityCount).key = (subjectId entityCount, "deadline") := rfl
  rw [own]
  by_cases same : key = (subjectId entityCount, "deadline")
  · subst same
    rw [if_pos rfl, if_pos rfl, not_not.mp not_live_next]
  · rw [if_neg same, if_neg fun equal => same equal.symm]

theorem latest_succ :
    (entities (entityCount + 1)).canonical.latestAssertion (subjectId entityCount, "deadline") =
      some (bootstrapAssertion entityCount) := by
  rw [Canonical.latestAssertion, assertionsOf_succ, if_pos rfl]
  rfl

theorem payloads_succ :
    (entities (entityCount + 1)).canonical.payloads (bootstrapAssertion entityCount).evidenceIds =
      bootstrapPayloads entityCount := by
  have held : (entities (entityCount + 1)).canonical.evidence.lookup (evidenceId entityCount) =
      some (bootstrapEvidence entityCount) := by
    rw [(entities_succ entityCount).1]
    exact AList.lookup_insert _
  simp only [Canonical.payloads, bootstrapAssertion, List.filterMap_cons, held, Option.map_some,
    List.filterMap_nil]
  rfl

theorem expected_succ {scheme : ProfileScheme} {id : NodeId} {key : CellKey}
    (cell : id.cell? = some key) (other : key ≠ (subjectId entityCount, "deadline")) :
    scheme.expected (entities (entityCount + 1)).canonical id =
      scheme.expected (entities entityCount).canonical id := by
  apply expected_cell_congr cell
  · rw [assertionsOf_succ, if_neg other]
  · intro _ item latest name cited
    obtain ⟨stored, held⟩ := Canonical.mem_rows.mp
      (List.mem_of_mem_filter (Canonical.latest_mem latest))
    obtain ⟨i, below, -, rfl⟩ := entities_assertion held
    obtain rfl := List.mem_singleton.mp cited
    rw [(entities_succ entityCount).1]
    apply AList.lookup_insert_ne
    intro same
    have equal : i = entityCount := evidenceId_inj same
    exact Nat.lt_irrefl i (equal ▸ below)

/-! ### The rows of one more entity -/

theorem mem_edges_succ {source id : NodeId} :
    (source, id) ∈ (entities (entityCount + 1)).derived.edges ↔
      (source, id) ∈ (entities entityCount).derived.edges ∨
        (source, id) ∈ bootstrapEdges entityCount := by
  rw [(entities_succ entityCount).2, bootstrapDerived, Table.mem_foldl_insert fun edge => edge]
  simp only [exists_eq_right']

theorem lookup_nodes_succ {id : NodeId} (other : id ∉ (bootstrapNodes entityCount).map Prod.fst) :
    (entities (entityCount + 1)).derived.nodes.lookup id =
      (entities entityCount).derived.nodes.lookup id := by
  simp only [bootstrapNodes, List.map_cons, List.map_nil, List.mem_cons, List.not_mem_nil, or_false,
    not_or] at other
  rw [(entities_succ entityCount).2]
  simp only [bootstrapDerived, bootstrapNodes, List.foldl_cons, List.foldl_nil]
  rw [AList.lookup_insert_ne other.2.2.2, AList.lookup_insert_ne other.2.2.1,
    AList.lookup_insert_ne other.2.1, AList.lookup_insert_ne other.1]

theorem edge_target {source id : NodeId} (edge : (source, id) ∈ bootstrapEdges entityCount) :
    id ∈ (bootstrapNodes entityCount).map Prod.fst := by
  simp only [bootstrapEdges, List.mem_cons, Prod.mk.injEq, List.not_mem_nil, or_false] at edge
  simp only [bootstrapNodes, List.map_cons, List.map_nil, List.mem_cons, List.not_mem_nil, or_false]
  tauto

variable {scheme : ProfileScheme}

theorem matches_other {id : NodeId} (other : id ∉ (bootstrapNodes entityCount).map Prod.fst)
    (same : scheme.expected (entities (entityCount + 1)).canonical id =
      scheme.expected (entities entityCount).canonical id)
    (before : MatchesAt scheme (entities entityCount).derived (entities entityCount).canonical id) :
    MatchesAt scheme (entities (entityCount + 1)).derived (entities (entityCount + 1)).canonical
      id := by
  constructor
  · rw [lookup_nodes_succ other, before.row, same]
  · intro source
    rw [mem_edges_succ, before.edges source, ProfileScheme.dependencies, ProfileScheme.dependencies,
      same]
    constructor
    · rintro (listed | edge)
      · exact listed
      · exact absurd (edge_target edge) other
    · exact Or.inl

theorem matches_next {id : NodeId} (cell : id.cell? = some (subjectId entityCount, "deadline"))
    (before : MatchesAt scheme (entities entityCount).derived (entities entityCount).canonical id) :
    MatchesAt scheme (entities (entityCount + 1)).derived (entities (entityCount + 1)).canonical
      id := by
  have empty : scheme.expected (entities entityCount).canonical id = none := by
    rw [← Option.not_isSome_iff_eq_none, expected_cell_isSome cell]
    exact not_live_next
  have none_before : ∀ source, (source, id) ∉ (entities entityCount).derived.edges := by
    intro source edge
    have listed := (before.edges source).mp edge
    rw [ProfileScheme.dependencies, empty] at listed
    cases listed
  have latest := @latest_succ entityCount
  have payloads := @payloads_succ entityCount
  rcases NodeId.cell_cases cell with rfl | rfl | rfl
  · constructor
    · rw [(entities_succ entityCount).2]
      simp [bootstrapDerived, bootstrapNodes, ProfileScheme.expected, latest]
    · intro source
      rw [mem_edges_succ]
      simp [none_before, bootstrapEdges, ProfileScheme.dependencies, ProfileScheme.expected, latest,
        bootstrapAssertion]
  · constructor
    · rw [(entities_succ entityCount).2]
      simp [bootstrapDerived, bootstrapNodes, ProfileScheme.expected, latest, payloads]
    · intro source
      rw [mem_edges_succ]
      simp [none_before, bootstrapEdges, ProfileScheme.dependencies, ProfileScheme.expected, latest,
        evidenceNodes, bootstrapAssertion]
  · constructor
    · rw [(entities_succ entityCount).2]
      simp [bootstrapDerived, bootstrapNodes, ProfileScheme.expected, latest, payloads]
    · intro source
      rw [mem_edges_succ]
      simp [none_before, bootstrapEdges, ProfileScheme.dependencies, ProfileScheme.expected, latest]

theorem entities_matches (entityCount : Nat) {id : NodeId} (plain : id.isProfile = false) :
    MatchesAt scheme (entities entityCount).derived (entities entityCount).canonical id := by
  induction entityCount with
  | zero =>
      constructor
      · cases id with
        | profile subject => cases plain
        | _ => rfl
      · intro source
        cases id with
        | profile subject => cases plain
        | _ => exact ⟨nofun, nofun⟩
  | succ n ih =>
      by_cases next : id.cell? = some (subjectId n, "deadline")
      · exact matches_next next ih
      · have other : id ∉ (bootstrapNodes n).map Prod.fst := by
          intro listed
          simp only [bootstrapNodes, List.map_cons, List.map_nil, List.mem_cons, List.not_mem_nil,
            or_false] at listed
          rcases listed with rfl | rfl | rfl | rfl
          · cases plain
          · exact next rfl
          · exact next rfl
          · exact next rfl
        apply matches_other other ?_ ih
        cases cell : id.cell? with
        | some key =>
            apply expected_succ cell
            rintro rfl
            exact next cell
        | none =>
            cases id with
            | profile subject => cases plain
            | state key => cases cell
            | support key => cases cell
            | context key => cases cell
            | _ => rfl

theorem entities_profile {subject : String}
    (present : (.profile subject) ∈ (entities entityCount).derived.nodes ∨
      ∃ source, (source, .profile subject) ∈ (entities entityCount).derived.edges) :
    ∃ i < entityCount, subject = subjectId i := by
  induction entityCount with
  | zero =>
      rcases present with present | ⟨source, edge⟩
      · cases present
      · cases edge
  | succ n ih =>
      by_cases same : subject = subjectId n
      · exact ⟨n, Nat.lt_succ_self n, same⟩
      · have other : .profile subject ∉ (bootstrapNodes n).map Prod.fst := by
          simp [bootstrapNodes, same]
        rw [Table.mem_iff, lookup_nodes_succ other, ← Table.mem_iff] at present
        obtain ⟨i, below, equal⟩ : ∃ i < n, subject = subjectId i := by
          apply ih
          refine present.imp_right ?_
          rintro ⟨source, edge⟩
          rcases mem_edges_succ.mp edge with edge | edge
          · exact ⟨source, edge⟩
          · exact absurd (edge_target edge) other
        exact ⟨i, Nat.lt_succ_of_lt below, equal⟩

theorem entities_lives {i : Nat} (below : i < entityCount) :
    (entities entityCount).canonical.Live (subjectId i, "deadline") := by
  induction entityCount with
  | zero => cases below
  | succ n ih =>
      rw [Canonical.Live, assertionsOf_succ]
      by_cases same : i = n
      · rw [if_pos (same ▸ rfl)]
        exact List.cons_ne_nil _ _
      · rw [if_neg fun equal => same (subjectId_inj (congrArg Prod.fst equal))]
        exact ih (Nat.lt_of_le_of_ne (Nat.le_of_lt_succ below) same)

end SQLiteRecovery

/-! ### The profiles -/

namespace ProfileScheme

variable {scheme : ProfileScheme} {derived : Derived} {canonical : Canonical}

def rewriteProfile (scheme : ProfileScheme) (derived : Derived) (subject : String) : Derived :=
  match scheme.materialization derived subject with
  | none => derived
  | some (value, dependencies) =>
      derived.writeDerived (.profile subject) .profile subject none value dependencies

theorem rewriteAllProfiles_eq (derived : Derived) :
    Compositional.rewriteAllProfiles scheme derived =
      (distinct (derived.heads.keys.map Prod.fst)).foldl scheme.rewriteProfile derived := rfl

theorem rewriteProfile_heads (subject : String) :
    (scheme.rewriteProfile derived subject).heads = derived.heads := by
  unfold rewriteProfile
  cases scheme.materialization derived subject <;> rfl

theorem rewriteProfiles_heads (subjects : List String) :
    (subjects.foldl scheme.rewriteProfile derived).heads = derived.heads := by
  induction subjects generalizing derived with
  | nil => rfl
  | cons subject rest ih => exact ih.trans (rewriteProfile_heads subject)

theorem rewriteProfiles_match (lawful : scheme.Lawful) (subjects : List String)
    (heads : HeadsMatch derived canonical)
    (live : ∀ subject ∈ subjects, ∃ predicate, canonical.Live (subject, predicate))
    (others : ∀ id, (∀ subject ∈ subjects, id ≠ .profile subject) →
      MatchesAt scheme derived canonical id) (id : NodeId) :
    MatchesAt scheme (subjects.foldl scheme.rewriteProfile derived) canonical id := by
  induction subjects generalizing derived with
  | nil => exact others id fun _ member => nomatch member
  | cons subject rest ih =>
      obtain ⟨made, clean⟩ := Option.isSome_iff_exists.mp
        ((lawful.present canonical subject).mpr (live subject List.mem_cons_self))
      have written : scheme.rewriteProfile derived subject =
          derived.writeDerived (.profile subject) .profile subject none made.1 made.2 := by
        rw [rewriteProfile, lawful.fromHeads derived canonical subject heads, clean]
      have expected : scheme.expected canonical (.profile subject) =
          some (⟨.profile, subject, none, .fresh, made.1⟩, made.2) := by
        rw [ProfileScheme.expected, clean]
        rfl
      rw [List.foldl_cons]
      apply ih
      · intro key
        rw [rewriteProfile_heads]
        exact heads key
      · exact fun other member => live other (List.mem_cons_of_mem _ member)
      · intro other outside
        rw [written]
        refine MatchesAt.write expected fun different => others other ?_
        intro other_subject member
        rcases List.mem_cons.mp member with rfl | member
        · exact different
        · exact outside other_subject member

theorem subject_mem_heads (heads : HeadsMatch derived canonical) {subject : String} :
    subject ∈ distinct (derived.heads.keys.map Prod.fst) ↔
      ∃ predicate, canonical.Live (subject, predicate) := by
  rw [mem_distinct, List.mem_map]
  constructor
  · rintro ⟨key, member, rfl⟩
    exact ⟨key.2, heads.mem_iff.mp (AList.mem_keys.mpr member)⟩
  · rintro ⟨predicate, live⟩
    exact ⟨_, AList.mem_keys.mp (heads.mem_iff.mpr live), rfl⟩

theorem rewriteAllProfiles_match (lawful : scheme.Lawful) (heads : HeadsMatch derived canonical)
    (plain : ∀ id, id.isProfile = false → MatchesAt scheme derived canonical id)
    (living : ∀ subject, ((.profile subject) ∈ derived.nodes ∨
      ∃ source, (source, .profile subject) ∈ derived.edges) →
      ∃ predicate, canonical.Live (subject, predicate)) (id : NodeId) :
    MatchesAt scheme (Compositional.rewriteAllProfiles scheme derived) canonical id := by
  apply rewriteProfiles_match lawful _ heads fun subject => (subject_mem_heads heads).mp
  intro id outside
  cases id with
  | profile subject =>
      have dead : ¬ ∃ predicate, canonical.Live (subject, predicate) := by
        intro live
        exact outside subject ((subject_mem_heads heads).mpr live) rfl
      have nothing : scheme.expected canonical (.profile subject) = none := by
        rw [← Option.not_isSome_iff_eq_none, expected_profile_isSome lawful]
        exact dead
      constructor
      · rw [nothing]
        have missing : .profile subject ∉ derived.nodes :=
          fun present => dead (living subject (Or.inl present))
        rw [Table.mem_iff, Option.not_isSome_iff_eq_none] at missing
        exact missing
      · intro source
        rw [ProfileScheme.dependencies, nothing]
        exact iff_of_false (fun edge => dead (living subject (Or.inr ⟨source, edge⟩)))
          List.not_mem_nil
  | _ => exact plain _ rfl

/-- The tables of a new database before the membership rows are made. -/
def profiled (scheme : ProfileScheme) (entityCount : Nat) : Derived :=
  Compositional.rewriteAllProfiles scheme
    (HeadIndexed.rebuildHeadIndex (SQLiteRecovery.entities entityCount).canonical
      (SQLiteRecovery.entities entityCount).derived)

theorem entities_derived (entityCount : Nat) :
    (scheme.entities entityCount).derived =
      if scheme.keepsMembership then
        NormalizedMembership.rebuildMembership (scheme.profiled entityCount)
      else scheme.profiled entityCount := rfl

theorem profiled_match (lawful : scheme.Lawful) (entityCount : Nat) (id : NodeId) :
    MatchesAt scheme (scheme.profiled entityCount) (SQLiteRecovery.entities entityCount).canonical
      id := by
  apply rewriteAllProfiles_match lawful
  · exact lookup_headIndex _
  · intro id plain
    have old : MatchesAt scheme _ _ id := SQLiteRecovery.entities_matches entityCount plain
    exact ⟨old.row, old.edges⟩
  · intro subject present
    obtain ⟨i, below, rfl⟩ := SQLiteRecovery.entities_profile present
    exact ⟨_, SQLiteRecovery.entities_lives below⟩

theorem profiled_heads (entityCount : Nat) :
    HeadsMatch (scheme.profiled entityCount) (SQLiteRecovery.entities entityCount).canonical := by
  intro key
  rw [profiled, rewriteAllProfiles_eq, rewriteProfiles_heads]
  exact lookup_headIndex _ key

theorem Rebuilding.rebuildMembership (heads : HeadsMatch derived canonical)
    (rows : ∀ id, MatchesAt scheme derived canonical id) :
    Rebuilding scheme
      (if scheme.keepsMembership then NormalizedMembership.rebuildMembership derived else derived)
      canonical [] := by
  constructor
  case heads =>
    split_ifs
    · exact heads
    · exact heads
  case members =>
    intro keeps key
    rw [if_pos keeps]
    exact Table.mem_ofKeys.trans AList.mem_keys.symm
  case others =>
    intro id _
    split_ifs
    · exact ⟨(rows id).row, (rows id).edges⟩
    · exact rows id
  case stale => exact fun _ member => absurd member List.not_mem_nil

theorem entities_clean (lawful : scheme.Lawful) (entityCount : Nat) :
    Rebuilding scheme (scheme.entities entityCount).derived
      (SQLiteRecovery.entities entityCount).canonical [] := by
  rw [entities_derived]
  exact Rebuilding.rebuildMembership (profiled_heads entityCount) (profiled_match lawful entityCount)

theorem entities_consistent (lawful : scheme.Lawful) (entityCount : Nat) :
    Consistent scheme (scheme.entities entityCount) where
  named := SQLiteRecovery.entities_named entityCount
  plain := SQLiteRecovery.entities_plain entityCount
  queued row member := by
    have empty : (scheme.entities entityCount).queue = [] := rfl
    rw [empty] at member
    cases member
  idle _ := entities_clean lawful entityCount
  busy journal held := by
    have idle : (scheme.entities entityCount).journal = none := rfl
    rw [idle] at held
    cases held

theorem entities_kept (entityCount : Nat) :
    Kept (SQLiteRecovery.entities entityCount).canonical (scheme.entities entityCount) := by
  have wf : (scheme.entities entityCount).canonical.Wf := SQLiteRecovery.entities_wf entityCount
  exact ⟨[], none, [], Ledger.start wf rfl rfl rfl rfl⟩

theorem entities_zero : scheme.entities 0 = SQLiteRecovery.entities 0 := by
  rw [entities, withProfiles]
  split_ifs <;> rfl

theorem bootstrapped_eq (scheme : ProfileScheme) (entityCount : Nat) :
    ∃ count, SQLiteRecovery.bootstrapped entityCount = SQLiteRecovery.entities count ∧
      scheme.bootstrapped entityCount = scheme.entities count := by
  rw [SQLiteRecovery.bootstrapped, bootstrapped, bootstrap, SQLiteRecovery.bootstrap]
  split_ifs
  · exact ⟨entityCount, rfl, rfl⟩
  · exact ⟨0, rfl, entities_zero.symm⟩

theorem bootstrapped_kept (entityCount : Nat) :
    Kept (SQLiteRecovery.bootstrapped entityCount).canonical (scheme.bootstrapped entityCount) := by
  obtain ⟨count, same, same'⟩ := bootstrapped_eq scheme entityCount
  rw [same, same']
  exact entities_kept count

theorem bootstrapped_consistent (lawful : scheme.Lawful) (entityCount : Nat) :
    Consistent scheme (scheme.bootstrapped entityCount) := by
  obtain ⟨count, -, same⟩ := bootstrapped_eq scheme entityCount
  rw [same]
  exact entities_consistent lawful count

end ProfileScheme

end DurableContext.Maintenance
