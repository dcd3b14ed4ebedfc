import DurableContext.Maintenance.Profile

/-! Derived rows that are what a clean rebuild would make them, but for some that are still to be
rebuilt, and how a repair rebuilds those. -/

namespace DurableContext.Maintenance

/-! ### Latest assertions -/

namespace Canonical

variable {canonical : Canonical} {key : CellKey} {item : Assertion}

theorem latest_mem (latest : canonical.latestAssertion key = some item) :
    item ∈ canonical.assertionsOf key := by
  rw [← List.mem_insertionSort Later]
  exact List.mem_of_mem_head? latest

theorem key_of_mem (member : item ∈ canonical.assertionsOf key) : item.key = key :=
  of_decide_eq_true (List.mem_filter.mp member).2

theorem latest_key (latest : canonical.latestAssertion key = some item) : item.key = key :=
  key_of_mem (latest_mem latest)

theorem latest_eq_none : canonical.latestAssertion key = none ↔ canonical.assertionsOf key = [] := by
  rw [latestAssertion, List.head?_eq_none_iff]
  constructor
  · intro sorted
    have same := List.perm_insertionSort Later (canonical.assertionsOf key)
    rw [sorted] at same
    exact same.symm.eq_nil
  · intro empty
    rw [empty]
    rfl

theorem latest_congr {other : Canonical} (same : canonical.assertionsOf key = other.assertionsOf key) :
    canonical.latestAssertion key = other.latestAssertion key := by
  rw [latestAssertion, latestAssertion, same]

def Live (canonical : Canonical) (key : CellKey) : Prop := canonical.assertionsOf key ≠ []

theorem live_iff : canonical.Live key ↔ ∃ row ∈ canonical.rows, row.key = key := by
  constructor
  · intro live
    obtain ⟨row, member⟩ := List.exists_mem_of_ne_nil _ live
    exact ⟨row, List.mem_of_mem_filter member, key_of_mem member⟩
  · rintro ⟨row, member, same⟩ empty
    have listed : row ∈ canonical.assertionsOf key :=
      List.mem_filter.mpr ⟨member, decide_eq_true same⟩
    rw [empty] at listed
    cases listed

theorem live_iff_latest : canonical.Live key ↔ ∃ item, canonical.latestAssertion key = some item := by
  rw [Live, ne_eq, ← latest_eq_none, ← ne_eq, Option.ne_none_iff_exists']

end Canonical

/-! ### Distinct texts -/

theorem mem_distinct {texts : List String} {text : String} :
    text ∈ distinct texts ↔ text ∈ texts := by
  rw [distinct, List.mem_insertionSort, List.mem_dedup]

theorem distinct_congr {texts others : List String} (same : ∀ text, text ∈ texts ↔ text ∈ others) :
    distinct texts = distinct others := by
  have perm : texts.dedup.Perm others.dedup := by
    apply (List.perm_ext_iff_of_nodup (List.nodup_dedup _) (List.nodup_dedup _)).mpr
    intro text
    rw [List.mem_dedup, List.mem_dedup]
    exact same text
  apply List.Perm.eq_of_pairwise (fun _ _ _ _ low high => String.le_antisymm low high)
    (List.pairwise_insertionSort _ _) (List.pairwise_insertionSort _ _)
  exact (List.perm_insertionSort _ _).trans (perm.trans (List.perm_insertionSort _ _).symm)

/-! ### Profiles from heads and from canonical rows -/

def HeadsMatch (derived : Derived) (canonical : Canonical) : Prop :=
  ∀ key, derived.heads.lookup key = (canonical.latestAssertion key).map Assertion.id

theorem HeadsMatch.mem_iff {derived : Derived} {canonical : Canonical}
    (heads : HeadsMatch derived canonical) {key : CellKey} :
    key ∈ derived.heads ↔ canonical.Live key := by
  rw [Table.mem_iff, heads key, Option.isSome_map, Option.isSome_iff_exists,
    Canonical.live_iff_latest]

theorem mem_cellKeys {canonical : Canonical} {key : CellKey} :
    key ∈ HeadIndexed.cellKeys canonical ↔ canonical.Live key := by
  rw [HeadIndexed.cellKeys, List.mem_dedup, List.mem_map, Canonical.live_iff]

theorem lookup_headIndex (canonical : Canonical) (key : CellKey) :
    (HeadIndexed.headIndex canonical).lookup key =
      (canonical.latestAssertion key).map Assertion.id := by
  rw [HeadIndexed.headIndex, Table.lookup_tabulate]
  split_ifs with listed
  · rfl
  · rw [mem_cellKeys, Canonical.live_iff_latest] at listed
    rw [Option.eq_none_iff_forall_ne_some.mpr fun item held => listed ⟨item, held⟩]
    rfl

/-- What a profile scheme has to satisfy: heads and canonical rows give the same profile, which
depends only on the live predicates of the subject. -/
structure ProfileScheme.Lawful (scheme : ProfileScheme) : Prop where
  fromHeads : ∀ derived canonical subject, HeadsMatch derived canonical →
    scheme.materialization derived subject = scheme.clean canonical subject
  congr : ∀ canonical other subject,
    (∀ predicate, canonical.Live (subject, predicate) ↔ other.Live (subject, predicate)) →
    scheme.clean canonical subject = scheme.clean other subject
  present : ∀ canonical subject, (scheme.clean canonical subject).isSome ↔
    ∃ predicate, canonical.Live (subject, predicate)
  presence : ∀ canonical subject made, scheme.clean canonical subject = some made →
    ∀ source ∈ made.2, ∃ key, source = .predicatePresence key

theorem mem_subject_predicates {canonical : Canonical} {subject predicate : String} :
    predicate ∈ (canonical.rows.filter fun row => decide (row.subjectId = subject)).map
        Assertion.predicate ↔ canonical.Live (subject, predicate) := by
  rw [List.mem_map, Canonical.live_iff]
  constructor
  · rintro ⟨row, member, rfl⟩
    obtain ⟨member, same⟩ := List.mem_filter.mp member
    exact ⟨row, member, Prod.ext (of_decide_eq_true same) rfl⟩
  · rintro ⟨row, member, same⟩
    obtain ⟨rfl, rfl⟩ := Prod.mk.inj same
    exact ⟨row, List.mem_filter.mpr ⟨member, decide_eq_true rfl⟩, rfl⟩

theorem mem_livePredicates {canonical : Canonical} {subject predicate : String} :
    predicate ∈ Compositional.livePredicates canonical subject ↔
      canonical.Live (subject, predicate) := by
  rw [Compositional.livePredicates, mem_distinct, mem_subject_predicates]

theorem mem_predicatesOf {heads : Table CellKey String} {subject predicate : String} :
    predicate ∈ Compositional.predicatesOf heads subject ↔ (subject, predicate) ∈ heads := by
  rw [Compositional.predicatesOf, mem_distinct, List.mem_map]
  constructor
  · rintro ⟨key, member, rfl⟩
    obtain ⟨member, same⟩ := List.mem_filter.mp member
    rw [← of_decide_eq_true same]
    exact AList.mem_keys.mpr member
  · intro member
    exact ⟨_, List.mem_filter.mpr ⟨AList.mem_keys.mp member, decide_eq_true rfl⟩, rfl⟩

theorem Compositional.lawful : Compositional.scheme.Lawful where
  fromHeads derived canonical subject heads := by
    have same : predicatesOf derived.heads subject = livePredicates canonical subject := by
      apply distinct_congr
      intro predicate
      have listed : predicate ∈ predicatesOf derived.heads subject ↔
          canonical.Live (subject, predicate) := mem_predicatesOf.trans heads.mem_iff
      rw [predicatesOf, mem_distinct] at listed
      exact listed.trans mem_subject_predicates.symm
    exact congrArg (manifest subject) same
  congr canonical other subject same := by
    have lists : livePredicates canonical subject = livePredicates other subject := by
      apply distinct_congr
      intro predicate
      rw [mem_subject_predicates, mem_subject_predicates]
      exact same predicate
    exact congrArg (manifest subject) lists
  present canonical subject := by
    show (manifest subject (livePredicates canonical subject)).isSome ↔ _
    unfold manifest
    split_ifs with empty
    · constructor
      · nofun
      · rintro ⟨predicate, live⟩
        rw [← mem_livePredicates, empty] at live
        cases live
    · obtain ⟨predicate, member⟩ := List.exists_mem_of_ne_nil _ empty
      exact ⟨fun _ => ⟨predicate, mem_livePredicates.mp member⟩, fun _ => rfl⟩
  presence canonical subject made held := by
    have shown : manifest subject (livePredicates canonical subject) = some made := held
    unfold manifest at shown
    split_ifs at shown
    obtain rfl := Option.some.inj shown
    intro source member
    obtain ⟨predicate, -, rfl⟩ := List.mem_map.mp member
    exact ⟨_, rfl⟩

theorem any_subject_iff {canonical : Canonical} {subject : String} :
    (canonical.rows.any fun row => decide (row.subjectId = subject)) = true ↔
      ∃ predicate, canonical.Live (subject, predicate) := by
  rw [List.any_eq_true]
  constructor
  · rintro ⟨row, member, same⟩
    refine ⟨row.predicate, Canonical.live_iff.mpr ⟨row, member, ?_⟩⟩
    rw [← of_decide_eq_true same]
    rfl
  · rintro ⟨predicate, live⟩
    obtain ⟨row, member, sameKey⟩ := Canonical.live_iff.mp live
    exact ⟨row, member, decide_eq_true (congrArg Prod.fst sameKey)⟩

theorem NormalizedMembership.lawful : NormalizedMembership.scheme.Lawful where
  fromHeads derived canonical subject heads := by
    have same : (derived.heads.keys.any fun key => decide (key.1 = subject)) =
        canonical.rows.any fun row => decide (row.subjectId = subject) := by
      rw [Bool.eq_iff_iff, any_subject_iff, List.any_eq_true]
      constructor
      · rintro ⟨key, member, same⟩
        refine ⟨key.2, heads.mem_iff.mp (AList.mem_keys.mpr ?_)⟩
        rw [← of_decide_eq_true same]
        exact member
      · rintro ⟨predicate, live⟩
        exact ⟨_, AList.mem_keys.mp (heads.mem_iff.mpr live), decide_eq_true rfl⟩
    show (if _ then _ else _) = (if _ then _ else _)
    rw [same]
  congr canonical other subject same := by
    have same : (canonical.rows.any fun row => decide (row.subjectId = subject)) =
        other.rows.any fun row => decide (row.subjectId = subject) := by
      rw [Bool.eq_iff_iff, any_subject_iff, any_subject_iff]
      exact exists_congr same
    show (if _ then _ else _) = (if _ then _ else _)
    rw [same]
  present canonical subject := by
    rw [← any_subject_iff]
    show (if (canonical.rows.any fun row => decide (row.subjectId = subject)) then
      some (DerivedValue.descriptor subject, ([] : List NodeId)) else none).isSome ↔ _
    split_ifs with held
    · exact ⟨fun _ => held, fun _ => rfl⟩
    · exact ⟨nofun, fun there => absurd there held⟩
  presence canonical subject made held := by
    have shown : (if canonical.rows.any fun row => decide (row.subjectId = subject) then
      some (DerivedValue.descriptor subject, []) else none) = some made := held
    split_ifs at shown
    obtain rfl := Option.some.inj shown
    exact fun _ member => nomatch member

/-! ### Rows that match a clean rebuild -/

/-- The kind, subject and predicate of the row of an identifier. -/
def NodeId.shape : NodeId → Option (Kind × String × Option String)
  | profile subject => some (.profile, subject, none)
  | state key => some (.state, key.1, some key.2)
  | support key => some (.support, key.1, some key.2)
  | context key => some (.context, key.1, some key.2)
  | _ => none

/-- A rebuild reads an empty predicate as another one. -/
def NodeId.Named : NodeId → Prop
  | state key => key.2 ≠ ""
  | support key => key.2 ≠ ""
  | context key => key.2 ≠ ""
  | _ => True

def DerivedRow.shape (row : DerivedRow) : Kind × String × Option String :=
  (row.kind, row.subject, row.predicate)

/-- The row is what a clean rebuild writes, and depends on what it then depends on. -/
structure MatchesAt (scheme : ProfileScheme) (derived : Derived) (canonical : Canonical)
    (id : NodeId) : Prop where
  row : derived.nodes.lookup id = (scheme.expected canonical id).map Prod.fst
  edges : ∀ source, (source, id) ∈ derived.edges ↔ source ∈ scheme.dependencies canonical id

/-- The row has the identifier's shape and is not for readers. -/
structure Stale (derived : Derived) (id : NodeId) : Prop where
  named : id.Named
  row : ∃ row, derived.nodes.lookup id = some row ∧ id.shape = some row.shape ∧
    row.status ≠ .fresh

/-- The membership rows, where there are any, are the keys of the heads. -/
def MembersMatch (scheme : ProfileScheme) (derived : Derived) : Prop :=
  scheme.keepsMembership = true → ∀ key, key ∈ derived.membership ↔ key ∈ derived.heads

/-- All rows match a clean rebuild but the pending ones, which are still to be rebuilt. -/
structure Rebuilding (scheme : ProfileScheme) (derived : Derived) (canonical : Canonical)
    (pending : List NodeId) : Prop where
  heads : HeadsMatch derived canonical
  members : MembersMatch scheme derived
  others : ∀ id, id ∉ pending → MatchesAt scheme derived canonical id
  stale : ∀ id ∈ pending, Stale derived id

section Rebuild

variable {scheme : ProfileScheme} {derived : Derived} {canonical : Canonical}
  {id : NodeId} {pending rest : List NodeId}

theorem expected_row {made : DerivedRow × List NodeId}
    (expected : scheme.expected canonical id = some made) :
    id.shape = some made.1.shape ∧ made.1.status = .fresh := by
  cases id with
  | evidence name => cases expected
  | assertion name => cases expected
  | predicatePresence key => cases expected
  | profile subject =>
      obtain ⟨found, -, rfl⟩ := Option.map_eq_some_iff.mp expected
      exact ⟨rfl, rfl⟩
  | state key =>
      obtain ⟨found, -, rfl⟩ := Option.map_eq_some_iff.mp expected
      exact ⟨rfl, rfl⟩
  | support key =>
      obtain ⟨found, -, rfl⟩ := Option.map_eq_some_iff.mp expected
      exact ⟨rfl, rfl⟩
  | context key =>
      obtain ⟨found, -, rfl⟩ := Option.map_eq_some_iff.mp expected
      exact ⟨rfl, rfl⟩

theorem mem_dependencies {source : NodeId} :
    source ∈ scheme.dependencies canonical id ↔
      ∃ made, scheme.expected canonical id = some made ∧ source ∈ made.2 := by
  unfold ProfileScheme.dependencies
  cases expected : scheme.expected canonical id with
  | none => simp
  | some made => simp

/-- What a cell's support depends on besides canonical rows, and its context. -/
def NodeId.source? : NodeId → Option NodeId
  | support key => some (.state key)
  | context key => some (.support key)
  | _ => none

theorem dependency_source (lawful : scheme.Lawful) {source : NodeId} (derivable : source.shape ≠ none)
    (member : source ∈ scheme.dependencies canonical id) : id.source? = some source := by
  obtain ⟨made, expected, member⟩ := mem_dependencies.mp member
  have evidence : ∀ item : Assertion, source ∉ evidenceNodes item := by
    intro item listed
    obtain ⟨name, -, rfl⟩ := List.mem_map.mp listed
    exact derivable rfl
  cases id with
  | evidence name => cases expected
  | assertion name => cases expected
  | predicatePresence key => cases expected
  | profile subject =>
      obtain ⟨found, clean, rfl⟩ := Option.map_eq_some_iff.mp expected
      obtain ⟨key, rfl⟩ := lawful.presence canonical subject found clean source member
      exact absurd rfl derivable
  | state key =>
      obtain ⟨found, -, rfl⟩ := Option.map_eq_some_iff.mp expected
      rw [List.mem_singleton.mp member] at derivable
      exact absurd rfl derivable
  | support key =>
      obtain ⟨found, -, rfl⟩ := Option.map_eq_some_iff.mp expected
      rcases List.mem_cons.mp member with rfl | member
      · rfl
      · rcases List.mem_cons.mp member with rfl | member
        · exact absurd rfl derivable
        · exact absurd member (evidence found)
  | context key =>
      obtain ⟨found, -, rfl⟩ := Option.map_eq_some_iff.mp expected
      rw [List.mem_singleton.mp member]
      rfl

theorem source_expected {source : NodeId} (below : id.source? = some source) :
    (scheme.expected canonical source).isSome = (scheme.expected canonical id).isSome := by
  cases id with
  | support key =>
      obtain rfl := Option.some.inj below
      simp only [ProfileScheme.expected, Option.isSome_map]
  | context key =>
      obtain rfl := Option.some.inj below
      simp only [ProfileScheme.expected, Option.isSome_map]
  | evidence name => cases below
  | assertion name => cases below
  | predicatePresence key => cases below
  | profile subject => cases below
  | state key => cases below

theorem not_dependency (lawful : scheme.Lawful) (derivable : id.shape ≠ none)
    (absent : scheme.expected canonical id = none) (other : NodeId) :
    id ∉ scheme.dependencies canonical other := by
  intro member
  have below := dependency_source lawful derivable member
  obtain ⟨made, expected, -⟩ := mem_dependencies.mp member
  have together : (scheme.expected canonical id).isSome = (scheme.expected canonical other).isSome :=
    source_expected below
  rw [absent, expected] at together
  cases together

theorem MatchesAt.freshValue (matched : MatchesAt scheme derived canonical id) :
    derived.freshValue id = (scheme.expected canonical id).map fun made => made.1.value := by
  unfold Derived.freshValue
  rw [matched.row]
  cases expected : scheme.expected canonical id with
  | none => rfl
  | some made => simp only [Option.map_some, (expected_row expected).2, if_true]

theorem Stale.derivable (stale : Stale derived id) : id.shape ≠ none := by
  obtain ⟨row, -, shape, -⟩ := stale.row
  rw [shape]
  nofun

theorem Rebuilding.congr {pending' : List NodeId}
    (rebuilding : Rebuilding scheme derived canonical pending)
    (same : ∀ id, id ∈ pending ↔ id ∈ pending') : Rebuilding scheme derived canonical pending' where
  heads := rebuilding.heads
  members := rebuilding.members
  others id outside := rebuilding.others id fun member => outside ((same id).mp member)
  stale id member := rebuilding.stale id ((same id).mpr member)

theorem Rebuilding.retire (lawful : scheme.Lawful)
    (rebuilding : Rebuilding scheme derived canonical (id :: rest)) (apart : id ∉ rest)
    (absent : scheme.expected canonical id = none) :
    Rebuilding scheme (derived.retireNode id) canonical rest := by
  have derivable := (rebuilding.stale id List.mem_cons_self).derivable
  have nowhere := not_dependency lawful derivable absent
  constructor
  case heads => exact rebuilding.heads
  case members => exact rebuilding.members
  case others =>
    intro other outside
    by_cases same : other = id
    · subst same
      constructor
      · rw [absent]
        exact AList.lookup_erase _ _
      · intro source
        rw [mem_dependencies, absent]
        constructor
        · intro member
          have kept := (Table.mem_filter.mp member).2
          exact absurd rfl (of_decide_eq_true kept).1
        · rintro ⟨made, impossible, -⟩
          cases impossible
    · have before := rebuilding.others other fun member =>
        (List.mem_cons.mp member).elim same outside
      constructor
      · rw [← before.row]
        exact AList.lookup_erase_ne same
      · intro source
        rw [← before.edges source]
        constructor
        · exact fun member => (Table.mem_filter.mp member).1
        · intro member
          refine Table.mem_filter.mpr ⟨member, decide_eq_true ⟨same, ?_⟩⟩
          rintro rfl
          exact nowhere other ((before.edges _).mp member)
  case stale =>
    intro other member
    have different : other ≠ id := fun same => apart (same ▸ member)
    obtain ⟨named, row, held, shape, status⟩ := rebuilding.stale other (List.mem_cons_of_mem _ member)
    exact ⟨named, row, (AList.lookup_erase_ne different).trans held, shape, status⟩

theorem mem_writeDerived_edges {kind : Kind} {subject : String} {predicate : Option String}
    {value : DerivedValue} {dependencies : List NodeId} {source other : NodeId} :
    (source, other) ∈
        (derived.writeDerived id kind subject predicate value dependencies).edges ↔
      ((source, other) ∈ derived.edges ∧ other ≠ id) ∨ (source ∈ dependencies ∧ other = id) := by
  show (source, other) ∈ dependencies.foldl (fun edges dependency => edges.insert (dependency, id) ())
    (derived.edges.filter fun edge _ => decide (edge.2 ≠ id)) ↔ _
  rw [Table.mem_foldl_insert (fun dependency : NodeId => (dependency, id)), Table.mem_filter]
  simp only [decide_eq_true_eq, Prod.mk.injEq]
  constructor
  · rintro (kept | ⟨row, member, rfl, rfl⟩)
    · exact Or.inl kept
    · exact Or.inr ⟨member, rfl⟩
  · rintro (kept | ⟨member, rfl⟩)
    · exact Or.inl kept
    · exact Or.inr ⟨source, member, rfl, rfl⟩

/-- Writing a row as a clean rebuild writes it leaves the other rows as they are. -/
theorem MatchesAt.write {made : DerivedRow × List NodeId}
    (expected : scheme.expected canonical id = some made) {other : NodeId}
    (before : other ≠ id → MatchesAt scheme derived canonical other) :
    MatchesAt scheme
      (derived.writeDerived id made.1.kind made.1.subject made.1.predicate made.1.value made.2)
      canonical other := by
  have written : (⟨made.1.kind, made.1.subject, made.1.predicate, .fresh, made.1.value⟩ :
      DerivedRow) = made.1 := by
    rw [← (expected_row expected).2]
  by_cases same : other = id
  · subst same
    constructor
    · rw [expected]
      exact (AList.lookup_insert _).trans (congrArg some written)
    · intro source
      rw [mem_writeDerived_edges, mem_dependencies]
      constructor
      · rintro (⟨-, different⟩ | ⟨member, -⟩)
        · exact absurd rfl different
        · exact ⟨made, expected, member⟩
      · rintro ⟨other, again, member⟩
        rw [expected] at again
        exact Or.inr ⟨Option.some.inj again ▸ member, rfl⟩
  · constructor
    · rw [← (before same).row]
      exact AList.lookup_insert_ne same
    · intro source
      rw [← (before same).edges source, mem_writeDerived_edges]
      constructor
      · rintro (⟨member, -⟩ | ⟨-, equal⟩)
        · exact member
        · exact absurd equal same
      · exact fun member => Or.inl ⟨member, same⟩

theorem Rebuilding.write (rebuilding : Rebuilding scheme derived canonical (id :: rest))
    (apart : id ∉ rest) {made : DerivedRow × List NodeId}
    (expected : scheme.expected canonical id = some made) :
    Rebuilding scheme
      (derived.writeDerived id made.1.kind made.1.subject made.1.predicate made.1.value made.2)
      canonical rest := by
  constructor
  case heads => exact rebuilding.heads
  case members => exact rebuilding.members
  case others =>
    intro other outside
    apply MatchesAt.write expected
    intro different
    exact rebuilding.others other fun member => (List.mem_cons.mp member).elim different outside
  case stale =>
    intro other member
    have different : other ≠ id := fun same => apart (same ▸ member)
    obtain ⟨named, row, held, shape, status⟩ := rebuilding.stale other (List.mem_cons_of_mem _ member)
    exact ⟨named, row, (AList.lookup_insert_ne different).trans held, shape, status⟩

end Rebuild

end DurableContext.Maintenance
