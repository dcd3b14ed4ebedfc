import DurableContext.Rag.Retrieval
import DurableContext.Lib.Program

/-! A larger budget only adds evidence, and more evidence never loses coverage: the search that
raises its budget stops at the first budget that is enough. -/

namespace DurableContext.Rag

open Cascade

/-! ### The index -/

/-- Documents are kept under the names of their evidence. -/
structure Placed (index : IndexTables) : Prop where
  named : ∀ id doc, index.byId.lookup id = some doc → doc.evidenceId = id
  located : ∀ id pos, index.docPos.lookup id = some pos →
    ∃ doc, index.docs[pos]? = some doc ∧ doc.evidenceId = id

theorem build_placed {V : Type} (store : MemoryStore V) : Placed (IndexTables.build store) where
  named := by
    intro id doc held
    rcases Table.lookup_foldl_insert held with ⟨item, _, name, same⟩ | absent
    · rwa [← same]
    · cases absent
  located := by
    intro id pos held
    rcases Table.lookup_foldl_insert held with ⟨⟨doc, index⟩, member, name, same⟩ | absent
    · rw [List.mem_zipIdx_iff_getElem?] at member
      simp only at name same
      exact ⟨doc, same ▸ member, name⟩
    · cases absent

theorem RetrievalIndex.placed {V : Type} (index : RetrievalIndex V) :
    Placed index.toIndexTables := by
  obtain ⟨earlier, built⟩ := index.built
  rw [built]
  exact build_placed earlier

theorem hardFilter_subset (index : IndexTables) (subjectId predicate : Option String)
    (validTime recordedSeq : Option Int) :
    index.hardFilter subjectId predicate validTime recordedSeq ⊆ index.byId.keys.toFinset := by
  unfold IndexTables.hardFilter
  extract_lets whole ofSubject ofPredicate recorded
  have subject_le : ofSubject ⊆ whole := by
    cases subjectId with
    | none => exact Finset.Subset.refl whole
    | some subject => exact Finset.inter_subset_left
  have predicate_le : ofPredicate ⊆ ofSubject := by
    cases predicate with
    | none => exact Finset.Subset.refl ofSubject
    | some name => exact Finset.inter_subset_left
  have recorded_le : recorded ⊆ ofPredicate := by
    cases recordedSeq with
    | none => exact Finset.Subset.refl ofPredicate
    | some seq => exact Finset.filter_subset _ _
  have inside := (recorded_le.trans predicate_le).trans subject_le
  cases validTime with
  | none => exact inside
  | some time => exact (Finset.filter_subset _ _).trans inside

theorem mem_byId_of_hardFilter {index : IndexTables} {subjectId predicate : Option String}
    {validTime recordedSeq : Option Int} {id : String}
    (member : id ∈ index.hardFilter subjectId predicate validTime recordedSeq) :
    id ∈ index.byId := by
  have whole := hardFilter_subset index subjectId predicate validTime recordedSeq member
  rw [List.mem_toFinset] at whole
  exact AList.mem_keys.mp whole

/-! ### Rankings -/

section Rankings

variable {S : Type} [LinearOrder S]

def ranking (scores : Table String S) : List String :=
  (scores.entries.insertionSort Better).map Sigma.fst

theorem ranking_perm (scores : Table String S) : (ranking scores).Perm scores.keys :=
  (List.perm_insertionSort Better scores.entries).map Sigma.fst

theorem rank_ids (scores : Table String S) (budget : Nat) :
    (rank scores budget).map RetrievalHit.evidenceId = (ranking scores).take budget := by
  rw [rank, List.map_map, ranking, ← List.map_take]
  rfl

end Rankings

section Scored

variable {S : Type} [LinearOrder S] [Zero S] {index : IndexTables}

theorem mem_of_scoreMatrix (placed : Placed index) {score : RetrievalDoc → S}
    {allowed : Finset String} {id : String}
    (scored : id ∈ (scoreMatrix index score (some allowed)).1) : id ∈ allowed := by
  have added : ∀ (docs : List RetrievalDoc) (scores : Table String S),
      id ∈ docs.foldl (fun scores doc =>
        if 0 < score doc then scores.insert doc.evidenceId (score doc) else scores) scores →
      id ∈ scores ∨ ∃ doc ∈ docs, doc.evidenceId = id := by
    intro docs
    induction docs with
    | nil => exact fun scores held => Or.inl held
    | cons doc docs ih =>
        intro scores held
        rcases ih _ held with before | ⟨other, member, name⟩
        · dsimp only at before
          split at before
          · rcases (AList.mem_insert _).mp before with same | before
            · exact Or.inr ⟨doc, List.mem_cons_self, same.symm⟩
            · exact Or.inl before
          · exact Or.inl before
        · exact Or.inr ⟨other, List.mem_cons_of_mem _ member, name⟩
  unfold scoreMatrix at scored
  simp only at scored
  split at scored
  · exact absurd scored (AList.notMem_empty id)
  · rcases added _ _ scored with nothing | ⟨doc, member, name⟩
    · exact absurd nothing (AList.notMem_empty id)
    · obtain ⟨pos, listed, held⟩ := List.mem_filterMap.mp member
      rw [List.mem_insertionSort, List.mem_filterMap] at listed
      obtain ⟨other, inside, at_⟩ := listed
      obtain ⟨doc', held', name'⟩ := placed.located other pos at_
      rw [held, Option.some.injEq] at held'
      rw [← name, held', name']
      exact mem_sorted.mp inside

omit [LinearOrder S] in
theorem mem_blended {channels : Channels S} {sem lex : Table String S} {id : String}
    (held : id ∈ blended channels sem lex) : id ∈ sem ∨ id ∈ lex := by
  obtain ⟨score, found⟩ := Option.isSome_iff_exists.mp (AList.lookup_isSome.mpr held)
  rcases Table.lookup_foldl_insert found with ⟨other, member, same, _⟩ | absent
  · rw [mem_sorted, Finset.mem_union, List.mem_toFinset, List.mem_toFinset] at member
    rwa [same] at member
  · cases absent

/-- The ranking of the allowed documents that a query has scored. -/
def hybridRanking (index : IndexTables) (channels : Channels S) (query : String)
    (allowed : Finset String) : List String :=
  ranking (blended channels (scoreMatrix index (channels.concept query) (some allowed)).1
    (scoreMatrix index (channels.lexical query) (some allowed)).1)

theorem hybrid_ids (channels : Channels S) (query : String) (budget : Nat)
    (allowed : Finset String) :
    (hybrid index channels query budget (some allowed)).1.map RetrievalHit.evidenceId =
      (hybridRanking index channels query allowed).take budget := by
  rw [hybridRanking, ← rank_ids, hybrid]
  simp only [List.map_map]
  rfl

theorem hybridRanking_nodup (channels : Channels S) (query : String) (allowed : Finset String) :
    (hybridRanking index channels query allowed).Nodup :=
  (ranking_perm _).nodup_iff.mpr (AList.keys_nodup _)

theorem mem_of_hybridRanking (placed : Placed index) {channels : Channels S} {query : String}
    {allowed : Finset String} {id : String}
    (ranked : id ∈ hybridRanking index channels query allowed) : id ∈ allowed := by
  have held := AList.mem_keys.mp ((ranking_perm _).mem_iff.mp ranked)
  rcases mem_blended held with scored | scored
  · exact mem_of_scoreMatrix placed scored
  · exact mem_of_scoreMatrix placed scored

end Scored

section Unscored

variable {index : IndexTables}

/-- The documents without a score, in the order in which they fill a search up. -/
def unscored (index : IndexTables) (allowed : Finset String) (ranked : List String) : List String :=
  (remaining index allowed ranked.toFinset).map RetrievalDoc.evidenceId

theorem unscored_perm (placed : Placed index) {allowed : Finset String}
    (known : ∀ id ∈ allowed, id ∈ index.byId) (ranked : List String) :
    (unscored index allowed ranked).Perm (sorted (allowed.filter (· ∉ ranked.toFinset))) := by
  have back : ∀ ids : List String, (∀ id ∈ ids, id ∈ index.byId) →
      (ids.filterMap fun id => index.byId.lookup id).map RetrievalDoc.evidenceId = ids := by
    intro ids
    induction ids with
    | nil => exact fun _ => rfl
    | cons id ids ih =>
        intro inside
        have here := AList.lookup_isSome.mpr (inside id List.mem_cons_self)
        obtain ⟨doc, held⟩ := Option.isSome_iff_exists.mp here
        simp only [List.filterMap_cons, held, List.map_cons, placed.named id doc held,
          ih fun other member => inside other (List.mem_cons_of_mem _ member)]
  have sorted_known : ∀ id ∈ sorted (allowed.filter (· ∉ ranked.toFinset)), id ∈ index.byId :=
    fun id member => known id (Finset.mem_filter.mp (mem_sorted.mp member)).1
  have listed := (List.perm_insertionSort Newer
    ((sorted (allowed.filter (· ∉ ranked.toFinset))).filterMap fun id =>
      index.byId.lookup id)).map RetrievalDoc.evidenceId
  rwa [back _ sorted_known] at listed

end Unscored

/-! ### Planned searches -/

section Planned

variable {S : Type} [LinearOrder S] [Zero S] (channels : Channels S) (index : IndexTables)
  (q : QueryCase)

/-- The documents that the addresses of a query let through. -/
def allowedIds : Finset String :=
  index.hardFilter (some q.subjectId) (some q.predicate) q.asOfValidTime q.asOfRecordedSeq

/-- The allowed documents in the order in which a planned search returns them. -/
def plannedOrder : List String :=
  hybridRanking index channels (queryText q) (allowedIds index q) ++
    unscored index (allowedIds index q)
      (hybridRanking index channels (queryText q) (allowedIds index q))

theorem plannedOrder_perm (placed : Placed index) :
    (plannedOrder channels index q).Perm (sorted (allowedIds index q)) := by
  let ranked := hybridRanking index channels (queryText q) (allowedIds index q)
  have inside : ∀ id ∈ ranked, id ∈ allowedIds index q := fun id => mem_of_hybridRanking placed
  have known : ∀ id ∈ allowedIds index q, id ∈ index.byId :=
    fun id => mem_byId_of_hardFilter
  have rest := unscored_perm placed known ranked
  have apart : ∀ id ∈ ranked,
      id ∉ sorted ((allowedIds index q).filter (· ∉ ranked.toFinset)) := by
    intro id member listed
    exact (Finset.mem_filter.mp (mem_sorted.mp listed)).2 (List.mem_toFinset.mpr member)
  have whole : (ranked ++ sorted ((allowedIds index q).filter (· ∉ ranked.toFinset))).Perm
      (sorted (allowedIds index q)) := by
    rw [List.perm_ext_iff_of_nodup]
    · intro id
      rw [List.mem_append, mem_sorted, mem_sorted, Finset.mem_filter, List.mem_toFinset]
      by_cases member : id ∈ ranked
      · simp only [member, inside id member, true_or]
      · simp only [member, false_or, not_false_eq_true, and_true]
    · exact List.nodup_append'.mpr ⟨hybridRanking_nodup _ _ _, Finset.sort_nodup _ _, apart⟩
    · exact Finset.sort_nodup _ _
  exact (rest.append_left ranked).trans whole

theorem searchPlanned_ids (budget : Nat) :
    ((searchPlanned channels index q budget).1.take budget).map RetrievalHit.evidenceId =
      (plannedOrder channels index q).take budget := by
  have hits_ids : (hybrid index channels (queryText q) budget
      (some (allowedIds index q))).1.map RetrievalHit.evidenceId = _ :=
    hybrid_ids channels (queryText q) budget (allowedIds index q)
  unfold searchPlanned
  simp only
  rw [← allowedIds]
  generalize hybrid index channels (queryText q) budget (some (allowedIds index q)) = found
    at hits_ids ⊢
  have long := congrArg List.length hits_ids
  rw [List.length_map, List.length_take] at long
  rw [List.map_take]
  split
  · next short =>
      -- every scored document is a hit, and the others fill up
      have all : found.1.map RetrievalHit.evidenceId =
          hybridRanking index channels (queryText q) (allowedIds index q) := by
        rw [hits_ids]
        exact List.take_of_length_le (by omega)
      have ranked := congrArg List.length all
      rw [List.length_map] at ranked
      simp only [List.map_append, List.map_map]
      rw [all, plannedOrder, unscored, List.take_append, List.take_append, ← ranked]
      congr 1
      rw [← List.map_take, List.take_take, min_self, List.map_take]
      rfl
  · next enough =>
      rw [hits_ids, List.take_take, min_self, plannedOrder, List.take_append_of_le_length (by omega)]

theorem search_planned (budget : Nat) : ∃ considered,
    search channels index q "planned_multi_address" budget =
      .ok ((plannedOrder channels index q).take budget,
        ⟨"planned_multi_address", q.id, budget, considered,
          (plannedOrder channels index q).take budget,
          ["identity", "predicate", "time", "semantic", "lexical"], 1, none⟩) := by
  refine ⟨(searchPlanned channels index q budget).2, ?_⟩
  rw [search, if_neg (by decide), if_neg (by decide), if_neg (by decide), if_pos rfl]
  rw [Program.ok_bind rfl]
  simp only [searchPlanned_ids]

end Planned

/-! ### Coverage -/

section Coverage

variable {V : Type} (reprs : Reprs V) (store : MemoryStore V) (q : QueryCase)

theorem coverage_mono {evidenceIds more : List String} (within : evidenceIds ⊆ more)
    (covered : coverageSatisfied reprs store q evidenceIds = true) :
    coverageSatisfied reprs store q more = true := by
  unfold coverageSatisfied at covered ⊢
  extract_lets key few at covered
  extract_lets many
  have grown : few.Sublist many := by
    refine List.monotone_filter_right _ fun item cites => ?_
    rw [List.any_eq_true] at cites ⊢
    obtain ⟨id, listed, member⟩ := cites
    exact ⟨id, listed, decide_eq_true (within (of_decide_eq_true member))⟩
  by_cases none : few = []
  · rw [if_pos none] at covered
    cases covered
  have some : many ≠ [] := fun empty => none (List.sublist_nil.mp (empty ▸ grown))
  rw [if_neg none] at covered
  rw [if_neg some]
  have longer := grown.length_le
  by_cases classified : q.questionType = "relation_classification"
  · rw [if_pos classified, List.any_eq_true] at covered ⊢
    obtain ⟨rel, related, kind⟩ := covered
    have names : (few.map Assertion.id).toFinset ⊆ (many.map Assertion.id).toFinset := by
      intro id member
      rw [List.mem_toFinset] at member ⊢
      exact (grown.map Assertion.id).subset member
    rw [MemoryStore.mem_relationsForAssertions] at related
    refine ⟨rel, MemoryStore.mem_relationsForAssertions.mpr ?_, kind⟩
    exact ⟨related.1, names related.2.1, names related.2.2⟩
  · rw [if_neg classified] at covered ⊢
    by_cases contested : (store.state.lookup key).any fun cell => cell.status.value = "contested"
    · rw [if_pos contested] at covered ⊢
      have values := (grown.map fun item => reprs.value item.objectValue).subset
      have distinct := (List.nodup_dedup _).subperm fun value member =>
        List.mem_dedup.mpr (values (List.mem_dedup.mp member))
      exact decide_eq_true (le_trans (of_decide_eq_true covered) distinct.length_le)
    · rw [if_neg contested] at covered ⊢
      exact decide_eq_true (le_trans (of_decide_eq_true covered) longer)

end Coverage

/-! ### Raising the budget -/

/-- The budget of a round of a search that doubles it, the first round being round 0. -/
def budgetAt (initial most round : Nat) : Nat := min most (initial * 2 ^ round)

theorem budgetAt_succ {initial most round : Nat} :
    budgetAt initial most (round + 1) = min most (budgetAt initial most round * 2) := by
  unfold budgetAt
  rw [pow_succ, ← mul_assoc]
  omega

section Adaptive

variable {S V : Type} [LinearOrder S] [Zero S] (channels : Channels S) (reprs : Reprs V)
  (index : RetrievalIndex V) (q : QueryCase) (initial most : Nat)

/-- Whether a planned search with the budget covers the query. -/
def covers (budget : Nat) : Bool :=
  coverageSatisfied reprs index.store q
    ((plannedOrder channels index.toIndexTables q).take budget)

theorem covers_mono {budget more : Nat} (within : budget ≤ more)
    (enough : covers channels reprs index q budget = true) :
    covers channels reprs index q more = true :=
  coverage_mono reprs index.store q (List.take_subset_take_left _ within) enough

/-- The trace of a search that ends in the round with a budget. -/
def finalTrace (considered budget round : Nat) : RetrievalTrace :=
  { architecture := "planned_multi_address"
    queryId := q.id
    budget := budget
    candidatesConsidered := considered
    returnedIds := (plannedOrder channels index.toIndexTables q).take budget
    channelCalls := ["identity", "predicate", "time", "semantic", "lexical"]
    rounds := round + 1
    coverageSatisfied := some (covers channels reprs index q budget) }

theorem adaptiveRounds_step (round budget : Nat) : ∃ considered, ∀ fuel,
    adaptiveRounds channels reprs index q most (fuel + 1) round budget =
      if covers channels reprs index q budget = true ∨ most ≤ budget then
        some (.ok ((plannedOrder channels index.toIndexTables q).take budget,
          finalTrace channels reprs index q considered budget round))
      else adaptiveRounds channels reprs index q most fuel (round + 1) (min most (budget * 2)) := by
  obtain ⟨considered, found⟩ := search_planned channels index.toIndexTables q budget
  refine ⟨considered, fun fuel => ?_⟩
  rw [adaptiveRounds]
  simp only [found]
  rw [← covers]
  cases enough : covers channels reprs index q budget with
  | true =>
      rw [if_pos rfl, if_pos (Or.inl rfl), finalTrace, enough]
  | false =>
      rw [if_neg (by decide)]
      by_cases spent : most ≤ budget
      · rw [if_pos spent, if_pos (Or.inr spent), finalTrace, enough]
      · rw [if_neg spent, if_neg (by simp [spent])]

variable {initial most}

/-- From any round the search ends, with the first budget that covers the query or with the
largest. -/
theorem adaptiveRounds_ends (positive : 1 ≤ initial) (left : Nat) : ∀ round,
    most - budgetAt initial most round < left →
    ∃ last considered, round ≤ last ∧
      (∀ before, round ≤ before → before < last →
        covers channels reprs index q (budgetAt initial most before) = false) ∧
      (covers channels reprs index q (budgetAt initial most last) = true ∨
        budgetAt initial most last = most) ∧
      ∀ fuel, left ≤ fuel →
        adaptiveRounds channels reprs index q most fuel round (budgetAt initial most round) =
          some (.ok ((plannedOrder channels index.toIndexTables q).take (budgetAt initial most last),
            finalTrace channels reprs index q considered (budgetAt initial most last) last)) := by
  induction left with
  | zero => exact fun round near => absurd near (Nat.not_lt_zero _)
  | succ left ih =>
      intro round near
      by_cases ends : covers channels reprs index q (budgetAt initial most round) = true ∨
          most ≤ budgetAt initial most round
      · obtain ⟨considered, step⟩ := adaptiveRounds_step channels reprs index q most round
          (budgetAt initial most round)
        refine ⟨round, considered, le_rfl, ?_, ?_, ?_⟩
        · exact fun before after earlier => absurd after (Nat.not_le.mpr earlier)
        · have within : budgetAt initial most round ≤ most := min_le_left _ _
          exact ends.imp_right fun spent => le_antisymm within spent
        · intro fuel enough
          obtain ⟨fuel, rfl⟩ := Nat.exists_eq_succ_of_ne_zero (Nat.ne_of_gt (Nat.lt_of_lt_of_le
            (Nat.succ_pos left) enough))
          rw [step, if_pos ends]
      · have open_ := not_or.mp ends
        have grows : budgetAt initial most round < budgetAt initial most (round + 1) := by
          have positive_ : 1 ≤ initial * 2 ^ round := Nat.mul_pos positive (Nat.two_pow_pos round)
          have short := open_.2
          rw [budgetAt_succ]
          unfold budgetAt at short ⊢
          omega
        obtain ⟨last, considered, after, earlier, stops, found⟩ := ih (round + 1) (by omega)
        obtain ⟨_, step⟩ := adaptiveRounds_step channels reprs index q most round
          (budgetAt initial most round)
        refine ⟨last, considered, by omega, ?_, stops, ?_⟩
        · intro before from_ earlier_
          rcases Nat.eq_or_lt_of_le from_ with same | later
          · rw [← same]
            exact Bool.eq_false_iff.mpr open_.1
          · exact earlier before later earlier_
        · intro fuel enough
          obtain ⟨fuel, rfl⟩ := Nat.exists_eq_succ_of_ne_zero (Nat.ne_of_gt (Nat.lt_of_lt_of_le
            (Nat.succ_pos left) enough))
          rw [step, if_neg ends, ← budgetAt_succ]
          exact found fuel (Nat.le_of_succ_le_succ enough)

/-- Planned searches return growing pieces of one order of the allowed documents, and a search
that raises its budget returns the first of its searches that covers the query, or the largest. -/
theorem adaptive_search_settles (positive : 1 ≤ initial) (bounded : initial ≤ most) :
    ∃ ids : Nat → List String,
      (∀ budget, (∃ trace, search channels index.toIndexTables q "planned_multi_address" budget =
          .ok (ids budget, trace)) ∧
        (ids budget).Nodup ∧
        (∀ id ∈ ids budget, id ∈ index.hardFilter (some q.subjectId) (some q.predicate)
          q.asOfValidTime q.asOfRecordedSeq) ∧
        (ids budget).length = min budget (index.hardFilter (some q.subjectId) (some q.predicate)
          q.asOfValidTime q.asOfRecordedSeq).card ∧
        ∀ more, budget ≤ more → ids budget <+: ids more) ∧
      (∀ (store : MemoryStore V) evidenceIds more, evidenceIds ⊆ more →
        coverageSatisfied reprs store q evidenceIds = true →
        coverageSatisfied reprs store q more = true) ∧
      ∃ last trace, (∀ fuel, most ≤ fuel →
          adaptiveSearch channels reprs index q initial most fuel =
            some (.ok (ids (budgetAt initial most last), trace))) ∧
        (∀ before < last,
          coverageSatisfied reprs index.store q (ids (budgetAt initial most before)) = false) ∧
        (coverageSatisfied reprs index.store q (ids (budgetAt initial most last)) = true ∨
          budgetAt initial most last = most) ∧
        trace.coverageSatisfied =
          some (coverageSatisfied reprs index.store q (ids (budgetAt initial most last))) ∧
        (trace.coverageSatisfied = some false ↔
          coverageSatisfied reprs index.store q (ids most) = false) := by
  have perm := plannedOrder_perm channels index.toIndexTables q index.placed
  refine ⟨fun budget => (plannedOrder channels index.toIndexTables q).take budget, ?_, ?_, ?_⟩
  · intro budget
    refine ⟨?_, ?_, ?_, ?_, ?_⟩
    · obtain ⟨considered, found⟩ := search_planned channels index.toIndexTables q budget
      exact ⟨_, found⟩
    · exact (perm.nodup_iff.mpr (Finset.sort_nodup _ _)).sublist (List.take_sublist _ _)
    · exact fun id member => mem_sorted.mp (perm.subset (List.mem_of_mem_take member))
    · rw [List.length_take, perm.length_eq, sorted, Finset.length_sort, allowedIds]
    · exact fun more within => List.take_prefix_take_left within
  · exact fun store evidenceIds more => coverage_mono reprs store q
  · have start : budgetAt initial most 0 = initial := by
      rw [budgetAt, pow_zero, mul_one, min_eq_right bounded]
    have near : most - budgetAt initial most 0 < most := by omega
    obtain ⟨last, considered, _, earlier, stops, found⟩ :=
      adaptiveRounds_ends channels reprs index q positive most 0 near
    rw [start] at found
    refine ⟨last, _, found, fun before => earlier before (Nat.zero_le _), stops, rfl, ?_⟩
    have within : budgetAt initial most last ≤ most := min_le_left _ _
    rw [finalTrace, Option.some.injEq]
    constructor
    · intro uncovered
      rcases stops with covered | spent
      · rw [covered] at uncovered
        cases uncovered
      · rwa [spent] at uncovered
    · intro uncovered
      rw [Bool.eq_false_iff]
      intro covered
      exact Bool.false_ne_true (uncovered.symm.trans
        (covers_mono channels reprs index q within covered))

end Adaptive

section Sample

def citing (id subject predicate : String) (value seq : Int) (evidenceId : String) : Assertion Int :=
  ⟨id, subject, predicate, value, seq, none, none, "asserted", "positive", [evidenceId],
    "oracle-v1"⟩

/-- Three documents on one key, two of them related, and one on another key. -/
def cited : MemoryStore Int :=
  let told := ((((MemoryStore.ofCanonical ∅ ∅ [] MemoryStore.empty_named).addEvidence
    ⟨"e1", "deadline on day 7", "mail", 1, none, "default", "active"⟩).addEvidence
    ⟨"e2", "deadline moved to day 10", "mail", 2, none, "default", "active"⟩).addEvidence
    ⟨"e3", "the deadline holds for both of the teams", "chat", 3, none, "default", "active"⟩).addEvidence
    ⟨"e4", "the new owner is team 4", "chat", 4, none, "default", "active"⟩
  ((((told.addAssertion (citing "a1" "project-x" "deadline" 7 1 "e1")).addAssertion
    (citing "a2" "project-x" "deadline" 10 2 "e2")).addAssertion
    (citing "a3" "project-x" "deadline" 7 3 "e3")).addAssertion
    (citing "a4" "project-x" "owner" 4 4 "e4")).addRelation ⟨"a2", .corrects, "a1"⟩

def lengths : Channels Nat where
  concept := fun _ doc => doc.text.length
  lexical := fun _ _ => 0
  blend := fun sem lex => 11 * sem + 9 * lex

def whichRelation : QueryCase :=
  ⟨"q1", "relation_classification", "project-x", "deadline", none, none, none⟩

theorem adaptive_search_settles_sample : ∃ last ids trace,
    (∀ fuel, 4 ≤ fuel →
      adaptiveSearch lengths intReprs (RetrievalIndex.create cited) whichRelation 1 4 fuel =
        some (.ok (ids, trace))) ∧
    ids.Nodup ∧ ids.length = min (budgetAt 1 4 last) 3 ∧
    trace.coverageSatisfied = some (coverageSatisfied intReprs cited whichRelation ids) := by
  have allowed : ((IndexTables.build cited).hardFilter (some "project-x") (some "deadline") none
      none).card = 3 := by decide +kernel
  obtain ⟨ids, searched, _, last, trace, found, _, _, told, _⟩ := adaptive_search_settles lengths
    intReprs (RetrievalIndex.create cited) whichRelation (by decide : 1 ≤ 1) (by decide : 1 ≤ 4)
  obtain ⟨_, distinct, _, length, _⟩ := searched (budgetAt 1 4 last)
  exact ⟨last, _, trace, found, distinct, length.trans (congrArg (min _) allowed), told⟩

end Sample

end DurableContext.Rag
