import DurableContext.Cascade.MemoryStore
import DurableContext.Lib.Program

/-! The incremental maintenance of a key's cell from the cell that was there, and when it agrees with
a reconciliation of all of the key's assertions. -/

namespace DurableContext.Cascade

structure MaintenanceCost where
  stateReads : Nat
  stateWrites : Nat
  assertionReads : Nat
  relationReads : Nat
  fallbacks : Nat
  deriving DecidableEq, Repr

def AssertionRelation.replaces (rel : AssertionRelation) : Bool :=
  decide (rel.relation = .corrects ∨ rel.relation = .supersedes)

variable {V : Type}

/-- `reconcile` of a key's assertions and of the relations between them. -/
def reconcileKey (reprs : Reprs V) (store : MemoryStore V) (key : StateKey) :
    Except Raised (StateCell V) :=
  let assertions := store.assertionsForKey key
  reconcile reprs assertions
    (store.relationsForAssertions (assertions.map Assertion.id).toFinset) none none

/-- The value is that of a cell with one value. -/
def StateCell.shows (reprs : Reprs V) (cell : StateCell V) (value : V) : Bool :=
  match cell.operativeValues with
  | [held] => reprs.equal held value
  | _ => false

def StateCell.activeIds (cell : StateCell V) : Finset String :=
  cell.supportingAssertionIds.toFinset ∪ cell.competingAssertionIds.toFinset

/-- What the new relations of an assertion correct or supersede. -/
def replacementTargets (assertion : Assertion V) (newRelations : List AssertionRelation) :
    List String :=
  ((newRelations.filter fun rel => decide (rel.sourceAssertionId = assertion.id)).filter
    AssertionRelation.replaces).map AssertionRelation.targetAssertionId

def applyIncrementalCurrentState (reprs : Reprs V) (store : MemoryStore V)
    (assertion : Assertion V) (newRelations : List AssertionRelation) :
    Except Raised (MaintenanceCost × MemoryStore V) :=
  let key := assertion.key
  let outgoing := newRelations.filter fun rel => decide (rel.sourceAssertionId = assertion.id)
  let targets := replacementTargets assertion newRelations
  let wrote := fun cell => store.withState (store.state.insert key cell)
  match REGISTRY.lookup key.2.1 with
  | none => .error (.keyError key.2.1)
  | some cardinality =>
      match store.state.lookup key with
      | none =>
          .ok (⟨0, 1, 0, outgoing.length, 0⟩,
            wrote ⟨key, [assertion.objectValue], .resolved, [assertion.id], [], [], 1⟩)
      | some old =>
          let cost : MaintenanceCost := ⟨1, 1, 0, outgoing.length, 0⟩
          match cardinality with
          | .multi =>
              let values :=
                if old.operativeValues.any (reprs.equal assertion.objectValue) then
                  old.operativeValues
                else old.operativeValues ++ [assertion.objectValue]
              .ok (cost, wrote ⟨key, values, .resolved,
                old.supportingAssertionIds ++ [assertion.id], [], old.historicalAssertionIds,
                old.version + 1⟩)
          | .single =>
              if old.activeIds ≠ ∅ ∧ ∀ id ∈ old.activeIds, id ∈ targets then
                .ok (cost, wrote ⟨key, [assertion.objectValue], .resolved, [assertion.id], [],
                  (old.historicalAssertionIds ++ old.supportingAssertionIds ++
                    old.competingAssertionIds).eraseDups, old.version + 1⟩)
              else if old.status = .resolved ∧ old.shows reprs assertion.objectValue then
                .ok (cost, wrote ⟨key, old.operativeValues, .resolved,
                  old.supportingAssertionIds ++ [assertion.id], [], old.historicalAssertionIds,
                  old.version + 1⟩)
              else if old.status = .resolved ∧ ¬ old.shows reprs assertion.objectValue ∧
                  targets = [] then
                .ok (cost, wrote ⟨key, [], .contested, [],
                  old.supportingAssertionIds ++ [assertion.id], old.historicalAssertionIds,
                  old.version + 1⟩)
              else do
                let assertions := store.assertionsForKey key
                let rels := store.relationsForAssertions (assertions.map Assertion.id).toFinset
                let cell ← reconcile reprs assertions rels none none
                return (⟨1, 1, assertions.length, outgoing.length + rels.length, 1⟩,
                  wrote { cell with version := old.version + 1 })

/-- The cells have the same status, the same operative values and the same assertions. -/
structure SameState (reprs : Reprs V) (cell full : StateCell V) : Prop where
  status : cell.status = full.status
  values : List.Forall₂ (fun value other => reprs.equal value other = true) cell.operativeValues
    full.operativeValues
  supporting : ∀ id, id ∈ cell.supportingAssertionIds ↔ id ∈ full.supportingAssertionIds
  competing : ∀ id, id ∈ cell.competingAssertionIds ↔ id ∈ full.competingAssertionIds
  historical : ∀ id, id ∈ cell.historicalAssertionIds ↔ id ∈ full.historicalAssertionIds

/-- The cell of the key is what its assertions reconcile to; without assertions it may be missing. -/
def Current (reprs : Reprs V) (store : MemoryStore V) (key : StateKey) : Prop :=
  match store.state.lookup key with
  | none => store.assertionsForKey key = []
  | some cell => ∃ full, reconcileKey reprs store key = .ok full ∧ SameState reprs cell full

/-- The store with a new assertion and its relations. -/
def extended (store : MemoryStore V) (assertion : Assertion V)
    (newRelations : List AssertionRelation) : MemoryStore V :=
  newRelations.foldl MemoryStore.addRelation (store.addAssertion assertion)

/-- The incremental update of the store and the reconciliation of all of it get to the same cell, or
both raise. -/
def Agrees (reprs : Reprs V) (store : MemoryStore V) (assertion : Assertion V)
    (newRelations : List AssertionRelation) : Prop :=
  match applyIncrementalCurrentState reprs store assertion newRelations,
    reconcileKey reprs store assertion.key with
  | .ok result, .ok full =>
      ∃ cell, result.2.state.lookup assertion.key = some cell ∧ SameState reprs cell full
  | .error _, .error _ => True
  | _, _ => False

/-- The assertions of the key that others of the key correct or supersede. -/
def replaced (store : MemoryStore V) (key : StateKey) : Finset String :=
  (((store.relationsForAssertions ((store.assertionsForKey key).map Assertion.id).toFinset).filter
    AssertionRelation.replaces).map AssertionRelation.targetAssertionId).toFinset

def survivors (store : MemoryStore V) (key : StateKey) : List (Assertion V) :=
  (store.assertionsForKey key).filter fun item => decide (item.id ∉ replaced store key)

section Reconciled

variable {reprs : Reprs V} {store : MemoryStore V} {key : StateKey}

theorem mem_replaced {id : String} : id ∈ replaced store key ↔
    ∃ rel ∈ store.relations, rel.replaces ∧ rel.targetAssertionId = id ∧
      rel.sourceAssertionId ∈ (store.assertionsForKey key).map Assertion.id ∧
      id ∈ (store.assertionsForKey key).map Assertion.id := by
  simp only [replaced, List.mem_toFinset, List.mem_map (f := AssertionRelation.targetAssertionId),
    List.mem_filter, MemoryStore.mem_relationsForAssertions]
  constructor
  · intro found
    obtain ⟨rel, ⟨⟨member, source, target⟩, replaces⟩, here⟩ := found
    exact ⟨rel, member, replaces, here, source, here ▸ target⟩
  · intro found
    obtain ⟨rel, member, replaces, here, source, target⟩ := found
    exact ⟨rel, ⟨⟨member, source, here ▸ target⟩, replaces⟩, here⟩

theorem replaced_subset {id : String} (member : id ∈ replaced store key) :
    id ∈ (store.assertionsForKey key).map Assertion.id := by
  obtain ⟨_, _, _, _, _, target⟩ := mem_replaced.mp member
  exact target

theorem mem_survivors_ids {id : String} : id ∈ (survivors store key).map Assertion.id ↔
    id ∈ (store.assertionsForKey key).map Assertion.id ∧ id ∉ replaced store key := by
  simp only [survivors, List.mem_map, List.mem_filter, decide_eq_true_iff]
  constructor
  · intro found
    obtain ⟨item, ⟨member, kept⟩, here⟩ := found
    exact ⟨⟨item, member, here⟩, here ▸ kept⟩
  · intro found
    obtain ⟨⟨item, member, here⟩, kept⟩ := found
    exact ⟨item, ⟨member, here ▸ kept⟩, here⟩

theorem reconcileKey_nil (empty : store.assertionsForKey key = []) :
    reconcileKey reprs store key = .ok ⟨("", "", "default"), [], .unknown, [], [], [], 1⟩ := by
  rw [reconcileKey, empty]
  rfl

/-- The order in which they are stored is the one that the reconciliation sorts by. -/
theorem assertionsForKey_bySeq (store : MemoryStore V) (key : StateKey) :
    (store.assertionsForKey key).Pairwise fun item other => item.recordedSeq ≤ other.recordedSeq := by
  refine (MemoryStore.pairwise_located _).imp fun before => ?_
  rcases before with lt | ⟨same, _⟩
  · exact lt.le
  · exact same.le

theorem reconcileKey_cons (present : store.assertionsForKey key ≠ []) :
    reconcileKey reprs store key = match REGISTRY.lookup key.2.1 with
      | none => .error (.keyError ("Unknown predicate schema: " ++ key.2.1))
      | some cardinality => .ok (reconcileCandidates reprs key cardinality (survivors store key)
          (sorted (replaced store key))) := by
  have whole : ((store.assertionsForKey key).filter fun item =>
      activeAt item none && visibleBy item none).insertionSort
        (fun item other => item.recordedSeq ≤ other.recordedSeq) = store.assertionsForKey key := by
    have kept : ((store.assertionsForKey key).filter fun item =>
        activeAt item none && visibleBy item none) = store.assertionsForKey key :=
      List.filter_eq_self.mpr fun item _ => rfl
    rw [kept]
    exact (assertionsForKey_bySeq store key).insertionSort_eq
  have named : ∀ item ∈ store.assertionsForKey key, item.key = key :=
    fun item member => (MemoryStore.mem_assertionsForKey.mp member).2
  have defeated : ∀ ids, ids = (store.assertionsForKey key).map Assertion.id →
      ∀ rels, rels = (store.relationsForAssertions ids.toFinset).filter (fun rel =>
        decide (rel.sourceAssertionId ∈ ids ∧ rel.targetAssertionId ∈ ids)) →
      ((rels.filter fun rel => decide (rel.relation = .corrects)).map
          AssertionRelation.targetAssertionId).toFinset ∪
        ((rels.filter fun rel => decide (rel.relation = .supersedes)).map
          AssertionRelation.targetAssertionId).toFinset = replaced store key := by
    intro ids ids_eq rels rels_eq
    have same : rels = store.relationsForAssertions ids.toFinset := by
      rw [rels_eq, List.filter_eq_self]
      intro rel member
      obtain ⟨_, source, target⟩ := MemoryStore.mem_relationsForAssertions.mp member
      exact decide_eq_true ⟨List.mem_toFinset.mp source, List.mem_toFinset.mp target⟩
    rw [same, ids_eq]
    ext id
    simp only [replaced, Finset.mem_union, List.mem_toFinset, List.mem_map, List.mem_filter,
      AssertionRelation.replaces, decide_eq_true_iff]
    constructor
    · intro either
      rcases either with ⟨rel, ⟨member, kind⟩, here⟩ | ⟨rel, ⟨member, kind⟩, here⟩
      · exact ⟨rel, ⟨member, Or.inl kind⟩, here⟩
      · exact ⟨rel, ⟨member, Or.inr kind⟩, here⟩
    · intro found
      obtain ⟨rel, ⟨member, kind⟩, here⟩ := found
      exact kind.imp (fun kind => ⟨rel, ⟨member, kind⟩, here⟩) fun kind => ⟨rel, ⟨member, kind⟩, here⟩
  unfold reconcileKey reconcile
  simp only [whole]
  cases listed : store.assertionsForKey key with
  | nil => exact absurd listed present
  | cons first rest =>
      have here : first.key = key := named first (by rw [listed]; exact List.mem_cons_self)
      simp only [here]
      cases REGISTRY.lookup key.2.1 with
      | none => rfl
      | some cardinality =>
          simp only
          rw [← listed, defeated _ rfl _ rfl]
          rfl

end Reconciled

section Candidates

variable {reprs : Reprs V} {key : StateKey} {cardinality : Cardinality}
  {candidates : List (Assertion V)} {historical : List String} {item : Assertion V}

@[simp] theorem reconcileCandidates_historical :
    (reconcileCandidates reprs key cardinality candidates historical).historicalAssertionIds =
      historical := by
  unfold reconcileCandidates
  split
  · rfl
  · split
    · rfl
    · simp only
      split <;> rfl

theorem reconcileCandidates_active (id : String) :
    (id ∈ (reconcileCandidates reprs key cardinality candidates historical).supportingAssertionIds ∨
      id ∈ (reconcileCandidates reprs key cardinality candidates historical).competingAssertionIds) ↔
      id ∈ candidates.map Assertion.id := by
  unfold reconcileCandidates
  split
  · rename_i none
    rw [List.getLast?_eq_none_iff.mp none]
    simp
  · split
    · simp
    · simp only
      split <;> simp

theorem reconcileCandidates_one :
    reconcileCandidates reprs key cardinality [item] historical =
      ⟨key, [item.objectValue], .resolved, [item.id], [], historical, 1⟩ := by
  cases cardinality <;> rfl

theorem reconcileCandidates_multi :
    reconcileCandidates reprs key .multi candidates historical =
      ⟨key, distinctValues reprs (candidates.map Assertion.objectValue),
        if candidates = [] then .unknown else .resolved, candidates.map Assertion.id, [],
        historical, 1⟩ := by
  unfold reconcileCandidates
  cases last : candidates.getLast? with
  | none =>
      rw [List.getLast?_eq_none_iff.mp last]
      rfl
  | some latest =>
      have present : candidates ≠ [] := by
        intro empty
        rw [empty] at last
        cases last
      rw [if_neg present]

def alike (reprs : Reprs V) (candidates : List (Assertion V)) : Prop :=
  ((candidates.map Assertion.objectValue).map reprs.value).dedup.length = 1

theorem reconcileCandidates_alike (some : alike reprs (candidates ++ [item])) :
    reconcileCandidates reprs key .single (candidates ++ [item]) historical =
      ⟨key, [item.objectValue], .resolved, (candidates ++ [item]).map Assertion.id, [], historical,
        1⟩ := by
  unfold reconcileCandidates
  rw [List.getLast?_concat]
  exact if_pos some

theorem reconcileCandidates_contested (apart : ¬ alike reprs (candidates ++ [item])) :
    reconcileCandidates reprs key .single (candidates ++ [item]) historical =
      ⟨key, [], .contested, [], (candidates ++ [item]).map Assertion.id, historical, 1⟩ := by
  unfold reconcileCandidates
  rw [List.getLast?_concat]
  exact if_neg apart

/-- A resolved cell of a single value rests on candidates that all print alike. -/
theorem alike_of_resolved
    (resolved : (reconcileCandidates reprs key .single candidates historical).status = .resolved) :
    alike reprs candidates ∧
      (reconcileCandidates reprs key .single candidates historical).supportingAssertionIds =
        candidates.map Assertion.id := by
  rcases List.eq_nil_or_concat' candidates with empty | ⟨before, latest, here⟩
  · rw [empty] at resolved
    cases resolved
  · rw [here] at resolved ⊢
    by_cases one : alike reprs (before ++ [latest])
    · rw [reconcileCandidates_alike one]
      exact ⟨one, rfl⟩
    · rw [reconcileCandidates_contested one] at resolved
      cases resolved

theorem dedup_append_singleton {texts : List String} {text : String}
    (one : texts.dedup.length = 1) :
    (texts ++ [text]).dedup.length = 1 ↔ ∀ other ∈ texts, other = text := by
  obtain ⟨only, same⟩ := List.length_eq_one_iff.mp one
  have members : ∀ other, other ∈ texts ↔ other = only := by
    intro other
    rw [← List.mem_dedup, same, List.mem_singleton]
  constructor
  · intro length other listed
    obtain ⟨single, here⟩ := List.length_eq_one_iff.mp length
    have first : other ∈ (texts ++ [text]).dedup :=
      List.mem_dedup.mpr (List.mem_append_left _ listed)
    have last : text ∈ (texts ++ [text]).dedup := List.mem_dedup.mpr (by simp)
    rw [here, List.mem_singleton] at first last
    rw [first, last]
  · intro all
    have whole : (texts ++ [text]).dedup.Perm [text] := by
      refine (List.perm_ext_iff_of_nodup (List.nodup_dedup _) (List.nodup_singleton _)).mpr ?_
      intro other
      rw [List.mem_dedup, List.mem_append]
      constructor
      · intro either
        exact either.elim (fun listed => List.mem_singleton.mpr (all other listed)) id
      · exact Or.inr
    exact whole.length_eq

theorem alike_append (one : alike reprs candidates) :
    alike reprs (candidates ++ [item]) ↔
      ∀ other ∈ candidates, reprs.value other.objectValue = reprs.value item.objectValue := by
  unfold alike at *
  rw [List.map_append, List.map_append]
  refine (dedup_append_singleton one).trans ?_
  simp only [List.map_map, List.mem_map, forall_exists_index, and_imp, forall_apply_eq_imp_iff₂]
  rfl

theorem distinctValues_concat (values : List V) (value : V) :
    distinctValues reprs (values ++ [value]) =
      if (distinctValues reprs values).any (reprs.equal value) then distinctValues reprs values
      else distinctValues reprs values ++ [value] := by
  unfold distinctValues
  rw [List.foldl_append]
  rfl

theorem any_equal_congr {values others : List V}
    (same : List.Forall₂ (fun value other => reprs.equal value other = true) values others)
    (value : V) : values.any (reprs.equal value) = others.any (reprs.equal value) := by
  induction same with
  | nil => rfl
  | cons here _ ih =>
      rw [List.any_cons, List.any_cons, ih]
      congr 1
      rw [Bool.eq_iff_iff]
      exact ⟨fun left => reprs.equivalence.trans left here,
        fun right => reprs.equivalence.trans right (reprs.equivalence.symm here)⟩

theorem SameState.refl (cell : StateCell V) : SameState reprs cell cell where
  status := rfl
  values := List.forall₂_same.mpr fun value _ => reprs.equivalence.refl value
  supporting := fun _ => Iff.rfl
  competing := fun _ => Iff.rfl
  historical := fun _ => Iff.rfl

end Candidates

section Extended

variable {reprs : Reprs V} {store : MemoryStore V} {item : Assertion V}
  {newRelations : List AssertionRelation} {cardinality : Cardinality} {old : StateCell V}

theorem extended_state : (extended store item newRelations).state = store.state := by
  rw [extended, (MemoryStore.addRelations_spec _ _).2.1, MemoryStore.addAssertion_rest.2.1]

theorem extended_relations : (extended store item newRelations).relations =
    store.relations ++ newRelations := by
  rw [extended, (MemoryStore.addRelations_spec _ _).2.2, MemoryStore.addAssertion_rest.1]

/-- A new assertion of its key that is later than the others of the key. -/
structure Latest (store : MemoryStore V) (item : Assertion V) : Prop where
  fresh : ∀ other ∈ store.assertionsForKey item.key, other.id ≠ item.id
  latest : ∀ other ∈ store.assertionsForKey item.key, other.recordedSeq < item.recordedSeq

variable (new : Latest store item)

include new

theorem Latest.assertions (newRelations : List AssertionRelation) :
    (extended store item newRelations).assertionsForKey item.key =
      store.assertionsForKey item.key ++ [item] := by
  rw [← MemoryStore.assertionsForKey_addAssertion new.fresh new.latest]
  refine MemoryStore.assertionsForKey_congr fun id other _ => ?_
  rw [extended, (MemoryStore.addRelations_spec _ _).1]

theorem Latest.ids (newRelations : List AssertionRelation) (id : String) :
    id ∈ ((extended store item newRelations).assertionsForKey item.key).map Assertion.id ↔
      id ∈ (store.assertionsForKey item.key).map Assertion.id ∨ id = item.id := by
  rw [new.assertions, List.map_append, List.mem_append]
  exact or_congr_right List.mem_singleton

theorem Latest.not_listed : item.id ∉ (store.assertionsForKey item.key).map Assertion.id := by
  intro listed
  obtain ⟨other, member, here⟩ := List.mem_map.mp listed
  exact new.fresh other member here

theorem Latest.replaced_mono {id : String} (before : id ∈ replaced store item.key) :
    id ∈ replaced (extended store item newRelations) item.key := by
  obtain ⟨rel, member, replaces, here, source, target⟩ := mem_replaced.mp before
  refine mem_replaced.mpr ⟨rel, ?_, replaces, here, (new.ids _ _).mpr (Or.inl source),
    (new.ids _ _).mpr (Or.inl target)⟩
  rw [extended_relations]
  exact List.mem_append_left _ member

theorem Latest.replaced_target {id : String} (listed : id ∈ replacementTargets item newRelations)
    (held : id ∈ (store.assertionsForKey item.key).map Assertion.id) :
    id ∈ replaced (extended store item newRelations) item.key := by
  obtain ⟨rel, member, here⟩ := List.mem_map.mp listed
  rw [List.mem_filter, List.mem_filter, decide_eq_true_iff] at member
  refine mem_replaced.mpr ⟨rel, ?_, member.2, here, (new.ids _ _).mpr (Or.inr member.1.2),
    (new.ids _ _).mpr (Or.inl held)⟩
  rw [extended_relations]
  exact List.mem_append_right _ member.1.1

theorem Latest.survivors (kept : item.id ∉ replaced (extended store item newRelations) item.key) :
    survivors (extended store item newRelations) item.key =
      ((store.assertionsForKey item.key).filter fun other =>
        decide (other.id ∉ replaced (extended store item newRelations) item.key)) ++ [item] := by
  rw [Cascade.survivors, new.assertions, List.filter_append]
  congr 1
  exact List.filter_eq_self.mpr fun other member => decide_eq_true (by
    rw [List.mem_singleton.mp member]
    exact kept)

theorem Latest.survivors_of_same
    (same : replaced (extended store item newRelations) item.key = replaced store item.key) :
    Cascade.survivors (extended store item newRelations) item.key =
      Cascade.survivors store item.key ++ [item] := by
  have kept : item.id ∉ replaced (extended store item newRelations) item.key := by
    rw [same]
    exact fun member => new.not_listed (replaced_subset member)
  rw [new.survivors kept, same]
  rfl

theorem Latest.reconcileKey (known : REGISTRY.lookup item.key.2.1 = some cardinality) :
    reconcileKey reprs (extended store item newRelations) item.key =
      .ok (reconcileCandidates reprs item.key cardinality
        (Cascade.survivors (extended store item newRelations) item.key)
        (sorted (replaced (extended store item newRelations) item.key))) := by
  have present : (extended store item newRelations).assertionsForKey item.key ≠ [] := by
    rw [new.assertions]
    exact List.append_ne_nil_of_right_ne_nil _ (List.cons_ne_nil _ _)
  rw [reconcileKey_cons present, known]

omit new in
theorem Current.cell (current : Current reprs store item.key)
    (held : store.state.lookup item.key = some old)
    (known : REGISTRY.lookup item.key.2.1 = some cardinality) :
    SameState reprs old (reconcileCandidates reprs item.key cardinality
      (Cascade.survivors store item.key) (sorted (replaced store item.key))) := by
  unfold Current at current
  rw [held] at current
  obtain ⟨full, ran, same⟩ := current
  by_cases empty : store.assertionsForKey item.key = []
  · rw [reconcileKey_nil empty] at ran
    cases ran
    have none : replaced store item.key = ∅ := by
      refine Finset.eq_empty_of_forall_notMem fun id member => ?_
      have listed := replaced_subset member
      rw [empty] at listed
      cases listed
    have out : Cascade.survivors store item.key = [] := by
      rw [Cascade.survivors, empty]
      rfl
    rw [out, none]
    exact ⟨same.status, same.values, same.supporting, same.competing, by
      intro id
      rw [same.historical, reconcileCandidates_historical, mem_sorted]
      simp⟩
  · rw [reconcileKey_cons empty, known] at ran
    cases ran
    exact same

/-- The condition that nothing is replaced that the old cell does not count as historical. -/
theorem Latest.replaced_eq
    (before : SameState reprs old (reconcileCandidates reprs item.key cardinality
      (Cascade.survivors store item.key) (sorted (replaced store item.key))))
    (spared : ∀ id ∈ replaced (extended store item newRelations) item.key,
      id ∈ old.historicalAssertionIds) :
    replaced (extended store item newRelations) item.key = replaced store item.key := by
  ext id
  constructor
  · intro member
    have listed := (before.historical id).mp (spared id member)
    rw [reconcileCandidates_historical, mem_sorted] at listed
    exact listed
  · exact new.replaced_mono

theorem Latest.agrees_first (empty : store.assertionsForKey item.key = []) :
    SameState reprs ⟨item.key, [item.objectValue], .resolved, [item.id], [], [], 1⟩
        (reconcileCandidates reprs item.key cardinality
          (Cascade.survivors (extended store item newRelations) item.key)
          (sorted (replaced (extended store item newRelations) item.key))) ↔
      item.id ∉ replaced (extended store item newRelations) item.key := by
  constructor
  · intro same member
    have listed := (same.historical item.id).mpr (by
      rw [reconcileCandidates_historical, mem_sorted]
      exact member)
    cases listed
  · intro kept
    have none : replaced (extended store item newRelations) item.key = ∅ := by
      refine Finset.eq_empty_of_forall_notMem fun id member => ?_
      have listed := replaced_subset member
      rw [new.ids, empty] at listed
      rw [listed.resolve_left List.not_mem_nil] at member
      exact kept member
    rw [new.survivors kept, empty, List.filter_nil, List.nil_append, reconcileCandidates_one, none]
    refine ⟨rfl, List.forall₂_same.mpr fun value _ => reprs.equivalence.refl value,
      fun _ => Iff.rfl, fun _ => Iff.rfl, fun id => ?_⟩
    rw [mem_sorted]
    simp

theorem Latest.agrees_multi
    (before : SameState reprs old (reconcileCandidates reprs item.key .multi
      (Cascade.survivors store item.key) (sorted (replaced store item.key)))) (version : Nat) :
    SameState reprs ⟨item.key,
        if old.operativeValues.any (reprs.equal item.objectValue) then old.operativeValues
        else old.operativeValues ++ [item.objectValue], .resolved,
        old.supportingAssertionIds ++ [item.id], [], old.historicalAssertionIds, version⟩
        (reconcileCandidates reprs item.key .multi
          (Cascade.survivors (extended store item newRelations) item.key)
          (sorted (replaced (extended store item newRelations) item.key))) ↔
      ∀ id ∈ replaced (extended store item newRelations) item.key,
        id ∈ old.historicalAssertionIds := by
  constructor
  · intro same id member
    refine (same.historical id).mpr ?_
    rw [reconcileCandidates_historical, mem_sorted]
    exact member
  · intro spared
    have unchanged := new.replaced_eq before spared
    rw [new.survivors_of_same unchanged, unchanged]
    rw [reconcileCandidates_multi] at before ⊢
    have present : Cascade.survivors store item.key ++ [item] ≠ [] := by simp
    have values := before.values
    rw [if_neg present, List.map_append, List.map_append, List.map_singleton, distinctValues_concat,
      any_equal_congr values]
    refine ⟨rfl, ?_, fun id => ?_, fun _ => Iff.rfl, before.historical⟩
    · simp only
      by_cases held : (distinctValues reprs ((Cascade.survivors store item.key).map
          Assertion.objectValue)).any (reprs.equal item.objectValue) = true
      · rw [if_pos held, if_pos held]
        exact values
      · rw [if_neg held, if_neg held]
        exact List.rel_append values
          (List.Forall₂.cons (reprs.equivalence.refl item.objectValue) List.Forall₂.nil)
    · rw [List.mem_append, List.mem_append, before.supporting]
      rfl

theorem Latest.agrees_replacement
    (before : SameState reprs old (reconcileCandidates reprs item.key cardinality
      (Cascade.survivors store item.key) (sorted (replaced store item.key))))
    (all : ∀ id ∈ old.activeIds, id ∈ replacementTargets item newRelations) (version : Nat) :
    SameState reprs ⟨item.key, [item.objectValue], .resolved, [item.id], [],
        (old.historicalAssertionIds ++ old.supportingAssertionIds ++
          old.competingAssertionIds).eraseDups, version⟩
        (reconcileCandidates reprs item.key cardinality
          (Cascade.survivors (extended store item newRelations) item.key)
          (sorted (replaced (extended store item newRelations) item.key))) ↔
      item.id ∉ replaced (extended store item newRelations) item.key := by
  have active : ∀ id, id ∈ old.activeIds ↔
      id ∈ (Cascade.survivors store item.key).map Assertion.id := by
    intro id
    rw [StateCell.activeIds, Finset.mem_union, List.mem_toFinset, List.mem_toFinset,
      before.supporting, before.competing]
    exact reconcileCandidates_active id
  have past : ∀ id, id ∈ (old.historicalAssertionIds ++ old.supportingAssertionIds ++
      old.competingAssertionIds).eraseDups ↔
      id ∈ (store.assertionsForKey item.key).map Assertion.id := by
    intro id
    have whole := active id
    rw [StateCell.activeIds, Finset.mem_union, List.mem_toFinset, List.mem_toFinset,
      mem_survivors_ids] at whole
    rw [List.mem_eraseDups, List.mem_append, List.mem_append, or_assoc, whole, before.historical,
      reconcileCandidates_historical, mem_sorted]
    constructor
    · intro either
      exact either.elim replaced_subset And.left
    · intro listed
      by_cases gone : id ∈ replaced store item.key
      · exact Or.inl gone
      · exact Or.inr ⟨listed, gone⟩
  constructor
  · intro same member
    have listed := (same.historical item.id).mpr (by
      rw [reconcileCandidates_historical, mem_sorted]
      exact member)
    exact new.not_listed ((past _).mp listed)
  · intro kept
    have whole : ∀ id, id ∈ replaced (extended store item newRelations) item.key ↔
        id ∈ (store.assertionsForKey item.key).map Assertion.id := by
      intro id
      constructor
      · intro member
        refine ((new.ids newRelations id).mp (replaced_subset member)).resolve_right fun here => ?_
        rw [here] at member
        exact kept member
      · intro listed
        by_cases gone : id ∈ replaced store item.key
        · exact new.replaced_mono gone
        · exact new.replaced_target
            (all id ((active id).mpr (mem_survivors_ids.mpr ⟨listed, gone⟩))) listed
    have nothing : ((store.assertionsForKey item.key).filter fun other =>
        decide (other.id ∉ replaced (extended store item newRelations) item.key)) = [] := by
      rw [List.filter_eq_nil_iff]
      intro other member
      rw [decide_eq_true_iff, not_not, whole]
      exact List.mem_map_of_mem member
    rw [new.survivors kept, nothing, List.nil_append, reconcileCandidates_one]
    refine ⟨rfl, List.forall₂_same.mpr fun value _ => reprs.equivalence.refl value,
      fun _ => Iff.rfl, fun _ => Iff.rfl, fun id => ?_⟩
    rw [past, mem_sorted, whole]

/-- What the assertions that a cell rests on print. -/
def PrintsAs (reprs : Reprs V) (store : MemoryStore V) (old : StateCell V) (item : Assertion V) :
    Prop :=
  ∀ other ∈ store.assertionsForKey item.key, other.id ∈ old.supportingAssertionIds →
    reprs.value other.objectValue = reprs.value item.objectValue

theorem Latest.alike_iff (newRelations : List AssertionRelation)
    (before : SameState reprs old (reconcileCandidates reprs item.key .single
      (Cascade.survivors store item.key) (sorted (replaced store item.key))))
    (resolved : old.status = .resolved) :
    alike reprs (Cascade.survivors store item.key ++ [item]) ↔
      PrintsAs reprs (extended store item newRelations) old item := by
  obtain ⟨one, supporting⟩ := alike_of_resolved (before.status.symm.trans resolved)
  rw [alike_append one]
  have listed : ∀ other, other ∈ Cascade.survivors store item.key ↔
      other ∈ (extended store item newRelations).assertionsForKey item.key ∧
        other.id ∈ old.supportingAssertionIds := by
    intro other
    rw [before.supporting, supporting, new.assertions, mem_survivors_ids, List.mem_append,
      List.mem_singleton, Cascade.survivors, List.mem_filter, decide_eq_true_iff]
    constructor
    · intro found
      exact ⟨Or.inl found.1, List.mem_map_of_mem found.1, found.2⟩
    · intro found
      refine ⟨found.1.resolve_right fun here => ?_, found.2.2⟩
      rw [here] at found
      exact new.not_listed found.2.1
  constructor
  · intro all other member supports
    exact all other ((listed other).mpr ⟨member, supports⟩)
  · intro all other member
    obtain ⟨there, supports⟩ := (listed other).mp member
    exact all other there supports

omit new in
theorem StateCell.shows_iff {value : V} : old.shows reprs value = true ↔
    ∃ held, old.operativeValues = [held] ∧ reprs.equal held value = true := by
  unfold StateCell.shows
  split
  · rename_i held same
    rw [same]
    simp
  · rename_i other
    constructor
    · intro absurdity
      cases absurdity
    · intro found
      obtain ⟨held, same, _⟩ := found
      exact absurd same (other held)

theorem Latest.agrees_repeated
    (before : SameState reprs old (reconcileCandidates reprs item.key .single
      (Cascade.survivors store item.key) (sorted (replaced store item.key))))
    (resolved : old.status = .resolved) (shown : old.shows reprs item.objectValue = true)
    (version : Nat) :
    SameState reprs ⟨item.key, old.operativeValues, .resolved,
        old.supportingAssertionIds ++ [item.id], [], old.historicalAssertionIds, version⟩
        (reconcileCandidates reprs item.key .single
          (Cascade.survivors (extended store item newRelations) item.key)
          (sorted (replaced (extended store item newRelations) item.key))) ↔
      (∀ id ∈ replaced (extended store item newRelations) item.key,
        id ∈ old.historicalAssertionIds) ∧
      PrintsAs reprs (extended store item newRelations) old item := by
  rw [← new.alike_iff newRelations before resolved]
  constructor
  · intro same
    have spared : ∀ id ∈ replaced (extended store item newRelations) item.key,
        id ∈ old.historicalAssertionIds := by
      intro id member
      refine (same.historical id).mpr ?_
      rw [reconcileCandidates_historical, mem_sorted]
      exact member
    refine ⟨spared, ?_⟩
    rw [new.survivors_of_same (new.replaced_eq before spared)] at same
    by_contra apart
    rw [reconcileCandidates_contested apart] at same
    cases same.status
  · intro both
    have unchanged := new.replaced_eq before both.1
    obtain ⟨held, same, equal⟩ := StateCell.shows_iff.mp shown
    rw [new.survivors_of_same unchanged, unchanged, reconcileCandidates_alike both.2, same]
    refine ⟨rfl, List.Forall₂.cons equal List.Forall₂.nil, fun id => ?_, fun _ => Iff.rfl,
      fun id => ?_⟩
    · rw [List.map_append, List.mem_append, List.mem_append, before.supporting,
        (alike_of_resolved (before.status.symm.trans resolved)).2]
      rfl
    · rw [before.historical, reconcileCandidates_historical]

theorem Latest.agrees_conflict
    (before : SameState reprs old (reconcileCandidates reprs item.key .single
      (Cascade.survivors store item.key) (sorted (replaced store item.key))))
    (resolved : old.status = .resolved) (version : Nat) :
    SameState reprs ⟨item.key, [], .contested, [], old.supportingAssertionIds ++ [item.id],
        old.historicalAssertionIds, version⟩
        (reconcileCandidates reprs item.key .single
          (Cascade.survivors (extended store item newRelations) item.key)
          (sorted (replaced (extended store item newRelations) item.key))) ↔
      (∀ id ∈ replaced (extended store item newRelations) item.key,
        id ∈ old.historicalAssertionIds) ∧
      ¬ PrintsAs reprs (extended store item newRelations) old item := by
  rw [← new.alike_iff newRelations before resolved]
  constructor
  · intro same
    have spared : ∀ id ∈ replaced (extended store item newRelations) item.key,
        id ∈ old.historicalAssertionIds := by
      intro id member
      refine (same.historical id).mpr ?_
      rw [reconcileCandidates_historical, mem_sorted]
      exact member
    refine ⟨spared, fun one => ?_⟩
    rw [new.survivors_of_same (new.replaced_eq before spared), reconcileCandidates_alike one] at same
    cases same.status
  · intro both
    have unchanged := new.replaced_eq before both.1
    rw [new.survivors_of_same unchanged, unchanged, reconcileCandidates_contested both.2]
    refine ⟨rfl, List.Forall₂.nil, fun _ => Iff.rfl, fun id => ?_, fun id => ?_⟩
    · rw [List.map_append, List.mem_append, List.mem_append, before.supporting,
        (alike_of_resolved (before.status.symm.trans resolved)).2]
      rfl
    · rw [before.historical, reconcileCandidates_historical]

end Extended

/-- An assertion of a single-valued predicate that replaces all that is active is not replaced
itself; another one replaces only what is historical already unless the cell is reconciled in full,
and prints as the cell's assertions do just when it is equal to the cell's value. -/
def ForeseenSingle (reprs : Reprs V) (store : MemoryStore V) (old : StateCell V)
    (assertion : Assertion V) (newRelations : List AssertionRelation) : Prop :=
  let gone := replaced store assertion.key
  let targets := replacementTargets assertion newRelations
  if old.activeIds ≠ ∅ ∧ ∀ id ∈ old.activeIds, id ∈ targets then assertion.id ∉ gone
  else if old.status = .resolved ∧ old.shows reprs assertion.objectValue then
    (∀ id ∈ gone, id ∈ old.historicalAssertionIds) ∧ PrintsAs reprs store old assertion
  else if old.status = .resolved ∧ ¬ old.shows reprs assertion.objectValue ∧ targets = [] then
    (∀ id ∈ gone, id ∈ old.historicalAssertionIds) ∧ ¬ PrintsAs reprs store old assertion
  else True

/-- The first assertion of a key is not replaced, and an assertion of a multi-valued predicate
replaces only what is historical already. -/
def Foreseen (reprs : Reprs V) (store : MemoryStore V) (assertion : Assertion V)
    (newRelations : List AssertionRelation) : Prop :=
  let gone := replaced store assertion.key
  match REGISTRY.lookup assertion.key.2.1, store.state.lookup assertion.key with
  | none, _ => True
  | some _, none => assertion.id ∉ gone
  | some .multi, some old => ∀ id ∈ gone, id ∈ old.historicalAssertionIds
  | some .single, some old => ForeseenSingle reprs store old assertion newRelations

section Agreement

variable {reprs : Reprs V} {store : MemoryStore V} {item : Assertion V}
  {newRelations : List AssertionRelation} {old cell full : StateCell V}

theorem agrees_ok
    (applied : ∃ cost, applyIncrementalCurrentState reprs store item newRelations =
      .ok (cost, store.withState (store.state.insert item.key cell)))
    (ran : reconcileKey reprs store item.key = .ok full) :
    Agrees reprs store item newRelations ↔ SameState reprs cell full := by
  obtain ⟨cost, applied⟩ := applied
  rw [Agrees, applied, ran]
  have held : (store.withState (store.state.insert item.key cell)).state.lookup item.key =
      some cell := AList.lookup_insert _
  simp only [held]
  constructor
  · intro found
    obtain ⟨other, same, agrees⟩ := found
    cases same
    exact agrees
  · intro agrees
    exact ⟨cell, rfl, agrees⟩

theorem agrees_fallback (known : REGISTRY.lookup item.key.2.1 = some .single)
    (held : store.state.lookup item.key = some old)
    (ran : reconcileKey reprs store item.key = .ok full)
    (kept : ¬ (old.activeIds ≠ ∅ ∧
      ∀ id ∈ old.activeIds, id ∈ replacementTargets item newRelations))
    (other : ¬ (old.status = .resolved ∧ old.shows reprs item.objectValue))
    (targeted : ¬ (old.status = .resolved ∧ ¬ old.shows reprs item.objectValue ∧
      replacementTargets item newRelations = [])) : Agrees reprs store item newRelations := by
  have applied : ∃ cost, applyIncrementalCurrentState reprs store item newRelations =
      .ok (cost, store.withState (store.state.insert item.key
        { full with version := old.version + 1 })) := by
    simp only [applyIncrementalCurrentState, known, held]
    rw [if_neg kept, if_neg other, if_neg targeted]
    rw [reconcileKey] at ran
    rw [Program.ok_bind ran]
    exact ⟨_, rfl⟩
  refine (agrees_ok applied ran).mpr ?_
  have same : SameState reprs full full := SameState.refl full
  exact ⟨same.status, same.values, same.supporting, same.competing, same.historical⟩

theorem Latest.agrees_single (new : Latest store item) (current : Current reprs store item.key)
    (known : REGISTRY.lookup item.key.2.1 = some .single)
    (held : store.state.lookup item.key = some old) :
    Agrees reprs (extended store item newRelations) item newRelations ↔
      ForeseenSingle reprs (extended store item newRelations) old item newRelations := by
  have before := current.cell held known
  have held' : (extended store item newRelations).state.lookup item.key = some old := by
    rw [extended_state, held]
  have ran : Cascade.reconcileKey reprs (extended store item newRelations) item.key = _ :=
    new.reconcileKey known
  unfold ForeseenSingle
  by_cases all : old.activeIds ≠ ∅ ∧
      ∀ id ∈ old.activeIds, id ∈ replacementTargets item newRelations
  · rw [if_pos all]
    refine (agrees_ok ?_ ran).trans (new.agrees_replacement before all.2 (old.version + 1))
    simp only [applyIncrementalCurrentState, known, held']
    rw [if_pos all]
    exact ⟨_, rfl⟩
  · rw [if_neg all]
    by_cases repeated : old.status = .resolved ∧ old.shows reprs item.objectValue
    · rw [if_pos repeated]
      refine (agrees_ok ?_ ran).trans
        (new.agrees_repeated before repeated.1 repeated.2 (old.version + 1))
      simp only [applyIncrementalCurrentState, known, held']
      rw [if_neg all, if_pos repeated]
      exact ⟨_, rfl⟩
    · rw [if_neg repeated]
      by_cases conflict : old.status = .resolved ∧ ¬ old.shows reprs item.objectValue ∧
          replacementTargets item newRelations = []
      · rw [if_pos conflict]
        refine (agrees_ok ?_ ran).trans
          (new.agrees_conflict before conflict.1 (old.version + 1))
        simp only [applyIncrementalCurrentState, known, held']
        rw [if_neg all, if_neg repeated, if_pos conflict]
        exact ⟨_, rfl⟩
      · rw [if_neg conflict]
        exact iff_of_true (agrees_fallback known held' ran all repeated conflict) trivial

end Agreement

theorem incremental_agrees_iff (reprs : Reprs V) (store : MemoryStore V) (item : Assertion V)
    (newRelations : List AssertionRelation) (new : Latest store item)
    (current : Current reprs store item.key) :
    Agrees reprs (extended store item newRelations) item newRelations ↔
      Foreseen reprs (extended store item newRelations) item newRelations := by
  have state : (extended store item newRelations).state.lookup item.key =
      store.state.lookup item.key := by rw [extended_state]
  unfold Foreseen
  cases known : REGISTRY.lookup item.key.2.1 with
  | none =>
      have raised : applyIncrementalCurrentState reprs (extended store item newRelations) item
          newRelations = .error (.keyError item.key.2.1) := by
        simp only [applyIncrementalCurrentState, known]
      have present : (extended store item newRelations).assertionsForKey item.key ≠ [] := by
        rw [new.assertions]
        exact List.append_ne_nil_of_right_ne_nil _ (List.cons_ne_nil _ _)
      rw [Agrees, raised, reconcileKey_cons present, known]
  | some cardinality =>
      have ran : reconcileKey reprs (extended store item newRelations) item.key = _ :=
    new.reconcileKey known
      cases held : store.state.lookup item.key with
      | none =>
          rw [state, held]
          have empty : store.assertionsForKey item.key = [] := by
            rw [Current, held] at current
            exact current
          refine (agrees_ok ?_ ran).trans (new.agrees_first empty)
          simp only [applyIncrementalCurrentState, known, state, held]
          exact ⟨_, rfl⟩
      | some old =>
          rw [state, held]
          cases cardinality with
          | multi =>
              refine (agrees_ok ?_ ran).trans
                (new.agrees_multi (current.cell held known) (old.version + 1))
              simp only [applyIncrementalCurrentState, known, state, held]
              exact ⟨_, rfl⟩
          | single => exact new.agrees_single current known held

section Sample

def deadline (id : String) (value seq : Int) : Assertion Int :=
  ⟨id, "project-x", "deadline", value, seq, none, none, "asserted", "positive", [], "oracle-v1"⟩

def bare : MemoryStore Int := MemoryStore.ofCanonical ∅ ∅ [] MemoryStore.empty_named

def first : MemoryStore Int := bare.addAssertion (deadline "a1" 10 1)

/-- Two assertions of the same deadline, and the cell that they support. -/
def supported : MemoryStore Int :=
  (first.addAssertion (deadline "a2" 10 2)).withState ((∅ : Table StateKey (StateCell Int)).insert
    ("project-x", "deadline", "default")
    ⟨("project-x", "deadline", "default"), [10], .resolved, ["a1", "a2"], [], [], 2⟩)

theorem supported_assertions : supported.assertionsForKey ("project-x", "deadline", "default") =
    [deadline "a1" 10 1, deadline "a2" 10 2] := by
  have none : bare.assertionsForKey ("project-x", "deadline", "default") = [] := by
    refine List.eq_nil_iff_forall_not_mem.mpr fun item member => ?_
    cases (MemoryStore.mem_assertionsForKey.mp member).1
  have one : first.assertionsForKey (deadline "a1" 10 1).key = _ :=
    MemoryStore.assertionsForKey_addAssertion
    (fun other member => absurd member (none ▸ List.not_mem_nil))
    (fun other member => absurd member (none ▸ List.not_mem_nil))
  have only : first.assertionsForKey ("project-x", "deadline", "default") =
      [deadline "a1" 10 1] := one.trans (congrArg (· ++ [deadline "a1" 10 1]) none)
  have two : (first.addAssertion (deadline "a2" 10 2)).assertionsForKey
      (deadline "a2" 10 2).key = _ := MemoryStore.assertionsForKey_addAssertion
    (by
      intro other member
      have here : other ∈ [deadline "a1" 10 1] := only ▸ member
      rw [List.mem_singleton.mp here]
      decide)
    (by
      intro other member
      have here : other ∈ [deadline "a1" 10 1] := only ▸ member
      rw [List.mem_singleton.mp here]
      decide)
  exact two.trans (congrArg (· ++ [deadline "a2" 10 2]) only)

theorem supported_latest {id : String} {value : Int} (fresh : id ≠ "a1" ∧ id ≠ "a2") :
    Latest supported (deadline id value 3) := by
  have listed : ∀ other ∈ supported.assertionsForKey (deadline id value 3).key,
      other = deadline "a1" 10 1 ∨ other = deadline "a2" 10 2 := by
    intro other member
    have here := supported_assertions ▸ member
    simpa using here
  constructor
  · intro other member
    rcases listed other member with here | here
    · rw [here]
      exact fresh.1.symm
    · rw [here]
      exact fresh.2.symm
  · intro other member
    rcases listed other member with here | here
    · rw [here]
      exact (by decide : (1 : Int) < 3)
    · rw [here]
      exact (by decide : (2 : Int) < 3)

theorem supported_current : Current intReprs supported ("project-x", "deadline", "default") := by
  have present : supported.assertionsForKey ("project-x", "deadline", "default") ≠ [] := by
    rw [supported_assertions]
    decide
  have kept : replaced supported ("project-x", "deadline", "default") = ∅ := by
    refine Finset.eq_empty_of_forall_notMem fun id member => ?_
    obtain ⟨rel, listed, _⟩ := mem_replaced.mp member
    cases listed
  have ran : reconcileKey intReprs supported _ = _ := reconcileKey_cons present
  rw [survivors, kept, supported_assertions] at ran
  refine ⟨_, ran, ?_⟩
  have none : sorted (∅ : Finset String) = [] := by decide +kernel
  rw [none]
  exact ⟨rfl, List.Forall₂.cons rfl List.Forall₂.nil, fun _ => Iff.rfl, fun _ => Iff.rfl,
    fun _ => Iff.rfl⟩

/-- A third assertion of the deadline that corrects the second one: the cell still counts the second
one as support. -/
theorem corrected_support_stays : ¬ ∀ (reprs : Reprs Int) (store : MemoryStore Int)
    (item : Assertion Int) (newRelations : List AssertionRelation), Latest store item →
      Current reprs store item.key →
      (∀ rel ∈ newRelations, rel.sourceAssertionId = item.id) →
      Agrees reprs (extended store item newRelations) item newRelations := by
  intro claim
  have new : Latest supported (deadline "a3" 10 3) := supported_latest (by decide)
  have agrees := claim intReprs supported (deadline "a3" 10 3) [⟨"a3", .corrects, "a2"⟩] new
    supported_current (by decide)
  have foreseen := (new.agrees_single supported_current rfl rfl).mp agrees
  unfold ForeseenSingle at foreseen
  rw [if_neg (by decide), if_pos (by decide)] at foreseen
  have gone : "a2" ∈ replaced (extended supported (deadline "a3" 10 3)
      [⟨"a3", .corrects, "a2"⟩]) (deadline "a3" 10 3).key :=
    new.replaced_target (by decide) (by
      rw [show (deadline "a3" 10 3).key = ("project-x", "deadline", "default") from rfl,
        supported_assertions]
      decide)
  exact absurd (foreseen.1 "a2" gone) (by decide)

/-- A correction of both is agreed on. -/
theorem incremental_agrees_iff_sample :
    Latest supported (deadline "a3" 12 3) ∧ Current intReprs supported (deadline "a3" 12 3).key ∧
      (Agrees intReprs (extended supported (deadline "a3" 12 3) [⟨"a3", .corrects, "a1"⟩,
          ⟨"a3", .corrects, "a2"⟩]) (deadline "a3" 12 3) [⟨"a3", .corrects, "a1"⟩,
          ⟨"a3", .corrects, "a2"⟩] ↔
        Foreseen intReprs (extended supported (deadline "a3" 12 3) [⟨"a3", .corrects, "a1"⟩,
          ⟨"a3", .corrects, "a2"⟩]) (deadline "a3" 12 3) [⟨"a3", .corrects, "a1"⟩,
          ⟨"a3", .corrects, "a2"⟩]) :=
  ⟨supported_latest (by decide), supported_current,
    incremental_agrees_iff intReprs supported (deadline "a3" 12 3) _ (supported_latest (by decide))
      supported_current⟩

end Sample

end DurableContext.Cascade
