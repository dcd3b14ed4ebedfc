import DurableContext.Cascade.DependencyGraph
import Mathlib.Data.List.Sort

/-! Assertions, the relations between them, and their reconciliation into one cell of current
state. -/

namespace DurableContext.Cascade

/-- Subject, predicate and scope. -/
abbrev StateKey := String × String × String

structure Assertion (V : Type) where
  id : String
  subjectId : String
  predicate : String
  objectValue : V
  recordedSeq : Int
  validFrom : Option Int
  validTo : Option Int
  modality : String
  polarity : String
  evidenceIds : List String
  extractionVersion : String
  deriving DecidableEq

def Assertion.key {V : Type} (item : Assertion V) : StateKey :=
  (item.subjectId, item.predicate, "default")

inductive RelationType where
  | corrects
  | supersedes
  | contradicts
  | refines
  deriving DecidableEq, Repr

def RelationType.value : RelationType → String
  | corrects => "corrects"
  | supersedes => "supersedes"
  | contradicts => "contradicts"
  | refines => "refines"

structure AssertionRelation where
  sourceAssertionId : String
  relation : RelationType
  targetAssertionId : String
  deriving DecidableEq, Repr

inductive StateStatus where
  | resolved
  | contested
  | unknown
  deriving DecidableEq, Repr

def StateStatus.value : StateStatus → String
  | resolved => "resolved"
  | contested => "contested"
  | unknown => "unknown"

structure StateCell (V : Type) where
  key : StateKey
  operativeValues : List V
  status : StateStatus
  supportingAssertionIds : List String
  competingAssertionIds : List String
  historicalAssertionIds : List String
  version : Nat
  deriving DecidableEq

/-- How values and texts are printed by `repr`, and which values are equal by `==`. Values that print
alike need not be equal, nor do equal ones print alike. -/
structure Reprs (V : Type) where
  value : V → String
  text : String → String
  equal : V → V → Bool
  equivalence : Equivalence fun value other => equal value other = true

def intReprs : Reprs Int where
  value := toString
  text := fun text => "'" ++ text ++ "'"
  equal := fun value other => decide (value = other)
  equivalence := ⟨fun _ => decide_eq_true rfl, fun same => decide_eq_true (of_decide_eq_true same).symm,
    fun first second => decide_eq_true ((of_decide_eq_true first).trans (of_decide_eq_true second))⟩

inductive Cardinality where
  | single
  | multi
  deriving DecidableEq, Repr

def REGISTRY : List (String × Cardinality) :=
  [("deadline", .single), ("project_status", .single), ("works_at", .multi), ("lives_in", .single),
    ("depends_on", .multi), ("approved", .multi), ("value", .single)]

section Reconcile

variable {V : Type}

def activeAt (item : Assertion V) : Option Int → Bool
  | none => true
  | some time =>
      !(item.validFrom.any fun start => decide (time < start)) &&
        !(item.validTo.any fun stop => decide (stop < time))

def visibleBy (item : Assertion V) : Option Int → Bool
  | none => true
  | some seq => decide (item.recordedSeq ≤ seq)

def distinctValues (reprs : Reprs V) (values : List V) : List V :=
  values.foldl (fun found value => if found.any (reprs.equal value) then found else found ++ [value]) []

/-- The cell of the assertions that no relation defeats. -/
def reconcileCandidates (reprs : Reprs V) (key : StateKey) (cardinality : Cardinality)
    (candidates : List (Assertion V)) (historical : List String) : StateCell V :=
  let ids := candidates.map Assertion.id
  let values := candidates.map Assertion.objectValue
  match candidates.getLast? with
  | none => ⟨key, [], .unknown, [], [], historical, 1⟩
  | some latest =>
      match cardinality with
      | .multi => ⟨key, distinctValues reprs values, .resolved, ids, [], historical, 1⟩
      | .single =>
          if (values.map reprs.value).dedup.length = 1 then
            ⟨key, [latest.objectValue], .resolved, ids, [], historical, 1⟩
          else ⟨key, [], .contested, [], ids, historical, 1⟩

def reconcile (reprs : Reprs V) (items : List (Assertion V)) (relations : List AssertionRelation)
    (validTime recordedSeq : Option Int) : Except Raised (StateCell V) :=
  let assertions : List (Assertion V) := (items.filter fun item => activeAt item validTime && visibleBy item recordedSeq)
    |>.insertionSort fun item other => item.recordedSeq ≤ other.recordedSeq
  match assertions with
  | [] => .ok ⟨("", "", "default"), [], .unknown, [], [], [], 1⟩
  | first :: _ =>
      let key := first.key
      match REGISTRY.lookup key.2.1 with
      | none => .error (.keyError ("Unknown predicate schema: " ++ key.2.1))
      | some cardinality =>
          let ids := assertions.map Assertion.id
          let rels := relations.filter fun rel =>
            decide (rel.sourceAssertionId ∈ ids ∧ rel.targetAssertionId ∈ ids)
          let targets := fun (kind : RelationType) => ((rels.filter fun rel => decide (rel.relation = kind)).map
            AssertionRelation.targetAssertionId).toFinset
          let defeated : Finset String := targets .corrects ∪ targets .supersedes
          let candidates := assertions.filter fun (item : Assertion V) => decide (item.id ∉ defeated)
          .ok (reconcileCandidates reprs key cardinality candidates (sorted defeated))

variable {reprs : Reprs V} {items : List (Assertion V)} {relations : List AssertionRelation}
  {validTime recordedSeq : Option Int} {key : StateKey} {cell : StateCell V}

theorem reconcile_ok (own : ∀ item ∈ items, item.key = key)
    (known : (REGISTRY.lookup key.2.1).isSome) :
    ∃ cell, reconcile reprs items relations validTime recordedSeq = .ok cell := by
  unfold reconcile
  simp only
  split
  · exact ⟨_, rfl⟩
  · rename_i first rest found
    have member : first ∈ items := by
      have listed : first ∈ (items.filter fun item =>
          activeAt item validTime && visibleBy item recordedSeq).insertionSort
            fun item other => item.recordedSeq ≤ other.recordedSeq := by
        rw [found]
        exact List.mem_cons_self
      rw [List.mem_insertionSort] at listed
      exact (List.mem_filter.mp listed).1
    obtain ⟨cardinality, schema⟩ := Option.isSome_iff_exists.mp known
    rw [own first member, schema]
    exact ⟨_, rfl⟩

theorem reconcileCandidates_key (cardinality : Cardinality) (candidates : List (Assertion V))
    (historical : List String) :
    (reconcileCandidates reprs key cardinality candidates historical).key = key := by
  unfold reconcileCandidates
  simp only
  split
  · rfl
  · split
    · rfl
    · split <;> rfl

theorem reconcile_keyed (own : ∀ item ∈ items, item.key = key) (held : items ≠ [])
    (ran : reconcile reprs items relations none none = .ok cell) :
    (REGISTRY.lookup key.2.1).isSome ∧ cell.key = key := by
  have all : (items.filter fun item => activeAt item none && visibleBy item none) = items :=
    List.filter_eq_self.mpr fun _ _ => rfl
  unfold reconcile at ran
  simp only [all] at ran
  split at ran
  · rename_i nothing
    have sorted := List.perm_insertionSort (fun item other : Assertion V =>
      item.recordedSeq ≤ other.recordedSeq) items
    rw [nothing] at sorted
    exact absurd sorted.nil_eq.symm held
  · rename_i first rest found
    have member : first ∈ items := by
      rw [← List.mem_insertionSort (fun item other => item.recordedSeq ≤ other.recordedSeq), found]
      exact List.mem_cons_self
    rw [own first member] at ran
    cases schema : REGISTRY.lookup key.2.1 with
    | none =>
        rw [schema] at ran
        cases ran
    | some cardinality =>
        rw [schema] at ran
        cases ran
        exact ⟨rfl, reconcileCandidates_key _ _ _⟩

theorem reconcileCandidates_ids (cardinality : Cardinality) (candidates : List (Assertion V))
    (historical : List String) (id : String)
    (listed : id ∈ (reconcileCandidates reprs key cardinality candidates
        historical).supportingAssertionIds ∨
      id ∈ (reconcileCandidates reprs key cardinality candidates historical).competingAssertionIds) :
    id ∈ candidates.map Assertion.id := by
  unfold reconcileCandidates at listed
  simp only at listed
  split at listed
  · exact absurd (listed.elim (fun member => member) fun member => member) List.not_mem_nil
  · split at listed
    · exact listed.resolve_right List.not_mem_nil
    · split at listed
      · exact listed.resolve_right List.not_mem_nil
      · exact listed.resolve_left List.not_mem_nil

theorem reconcile_ids (ran : reconcile reprs items relations validTime recordedSeq = .ok cell)
    {id : String} (listed : id ∈ cell.supportingAssertionIds ∨ id ∈ cell.competingAssertionIds) :
    ∃ item ∈ items, item.id = id := by
  unfold reconcile at ran
  simp only at ran
  split at ran
  · cases ran
    exact absurd (listed.elim (fun member => member) fun member => member) List.not_mem_nil
  · split at ran
    · cases ran
    · cases ran
      have named := reconcileCandidates_ids _ _ _ _ listed
      obtain ⟨item, member, same⟩ := List.mem_map.mp named
      have sortedMember := (List.mem_filter.mp member).1
      rw [List.mem_insertionSort] at sortedMember
      exact ⟨item, (List.mem_filter.mp sortedMember).1, same⟩

end Reconcile

end DurableContext.Cascade
