import DurableContext.Cascade.MemoryStore
import Mathlib.Data.Finset.Union

/-! The subject profile index: each subject's lexical profile, predicates and evidence, and the
postings of the subjects by token, fragment and n-gram, alone and with a predicate. -/

namespace DurableContext.Cascade

def STOP : List String :=
  ["a", "an", "and", "are", "as", "at", "be", "by", "current", "did", "do", "does", "for", "from",
    "has", "have", "how", "in", "is", "it", "latest", "of", "on", "or", "the", "to", "was", "what",
    "when", "where", "which", "who", "why", "with"]

/-- `[a-zA-Z0-9_-]`. -/
def isTokenChar (letter : Char) : Bool := letter.isAlphanum || letter == '_' || letter == '-'

def tokens (text : String) : List String :=
  ((text.toList.splitOnP fun letter => !isTokenChar letter).filter fun part => !part.isEmpty).map
    fun part => String.ofList (part.map Char.toLower)

def ngrams (token : String) : Finset String :=
  let letters := token.toList
  if letters.length < 4 then if letters.isEmpty then ∅ else {token}
  else ((List.range (letters.length - 3)).map fun i =>
    String.ofList ((letters.drop i).take 4)).toFinset

def fragments (token : String) : Finset String :=
  (((token.toList.splitOnP fun letter => letter == '-' || letter == '_').filter fun part =>
    decide (3 ≤ part.length)).map String.ofList).toFinset

structure SubjectProfileIndex where
  profiles : Table String (Multiset String)
  subjectPredicates : Multimap String String
  subjectEvidenceIds : Multimap String String
  tokenPostings : Multimap String String
  fragmentPostings : Multimap String String
  ngramPostings : Multimap String String
  tokenPredicatePostings : Multimap (String × String) String
  fragmentPredicatePostings : Multimap (String × String) String
  ngramPredicatePostings : Multimap (String × String) String

def tokenFeatures (profile : Multiset String) : List String := sorted profile.toFinset

def fragmentFeatures (profile : Multiset String) : List String :=
  sorted (profile.toFinset.biUnion fragments)

def ngramFeatures (profile : Multiset String) : List String :=
  sorted (profile.toFinset.biUnion ngrams)

def withPredicates (features : List String) (predicates : Finset String) :
    List (String × String) :=
  features.product (sorted predicates)

/-- What a subject's assertions say: the tokens of the evidence they cite, their predicates and the
evidence. -/
structure Snapshot where
  profile : Multiset String
  predicates : Finset String
  evidenceIds : Finset String
  deriving DecidableEq

def keepSet (map : Multimap String String) (subject : String) (values : Finset String) :
    Multimap String String :=
  if values = ∅ then map.erase subject else map.insert subject values

namespace SubjectProfileIndex

variable {V : Type}

def empty : SubjectProfileIndex := ⟨∅, ∅, ∅, ∅, ∅, ∅, ∅, ∅, ∅⟩

def profileOf (index : SubjectProfileIndex) (subject : String) : Multiset String :=
  (index.profiles.lookup subject).getD 0

def snapshotOf (index : SubjectProfileIndex) (subject : String) : Snapshot where
  profile := index.profileOf subject
  predicates := index.subjectPredicates.get subject
  evidenceIds := index.subjectEvidenceIds.get subject

def snapshotSubject (store : MemoryStore V) (subject : String) : Snapshot :=
  let assertions := store.assertionsForSubject subject
  let evidenceIds := (assertions.flatMap Assertion.evidenceIds).toFinset
  { profile := (sorted evidenceIds).flatMap fun id =>
      match store.evidence.lookup id with
      | none => []
      | some row => (tokens row.payload).filter fun token => decide (token ∉ STOP)
    predicates := (assertions.map Assertion.predicate).toFinset
    evidenceIds }

def refreshSubject (store : MemoryStore V) (index : SubjectProfileIndex) (subject : String) :
    SubjectProfileIndex :=
  let old := index.profileOf subject
  let oldPredicates := index.subjectPredicates.get subject
  let new := snapshotSubject store subject
  { profiles :=
      if new.profile = 0 then index.profiles.erase subject
      else index.profiles.insert subject new.profile
    subjectPredicates := keepSet index.subjectPredicates subject new.predicates
    subjectEvidenceIds := keepSet index.subjectEvidenceIds subject new.evidenceIds
    tokenPostings :=
      index.tokenPostings.move (tokenFeatures old) (tokenFeatures new.profile) subject
    fragmentPostings :=
      index.fragmentPostings.move (fragmentFeatures old) (fragmentFeatures new.profile) subject
    ngramPostings :=
      index.ngramPostings.move (ngramFeatures old) (ngramFeatures new.profile) subject
    tokenPredicatePostings :=
      index.tokenPredicatePostings.move (withPredicates (tokenFeatures old) oldPredicates)
        (withPredicates (tokenFeatures new.profile) new.predicates) subject
    fragmentPredicatePostings :=
      index.fragmentPredicatePostings.move (withPredicates (fragmentFeatures old) oldPredicates)
        (withPredicates (fragmentFeatures new.profile) new.predicates) subject
    ngramPredicatePostings :=
      index.ngramPredicatePostings.move (withPredicates (ngramFeatures old) oldPredicates)
        (withPredicates (ngramFeatures new.profile) new.predicates) subject }

def ofStore (store : MemoryStore V) : SubjectProfileIndex :=
  store.subjectIds.foldl (refreshSubject store) empty

def Equivalent (index other : SubjectProfileIndex) : Prop :=
  Table.Same index.profiles other.profiles ∧
    Table.Same index.subjectPredicates other.subjectPredicates ∧
    Table.Same index.subjectEvidenceIds other.subjectEvidenceIds ∧
    Table.Same index.tokenPostings other.tokenPostings ∧
    Table.Same index.fragmentPostings other.fragmentPostings ∧
    Table.Same index.ngramPostings other.ngramPostings ∧
    Table.Same index.tokenPredicatePostings other.tokenPredicatePostings ∧
    Table.Same index.fragmentPredicatePostings other.fragmentPredicatePostings ∧
    Table.Same index.ngramPredicatePostings other.ngramPredicatePostings

structure Posts {κ : Type} [DecidableEq κ] (features : Snapshot → List κ)
    (index : SubjectProfileIndex) (map : Multimap κ String) : Prop where
  full : Multimap.Full map
  posted : ∀ key subject, subject ∈ map.get key ↔ key ∈ features (index.snapshotOf subject)

/-- The postings are those of the profiles and predicates, and nothing empty is kept. -/
structure Posted (index : SubjectProfileIndex) : Prop where
  profiles : ∀ subject profile, index.profiles.lookup subject = some profile → profile ≠ 0
  predicates : Multimap.Full index.subjectPredicates
  evidence : Multimap.Full index.subjectEvidenceIds
  tokens : Posts (fun held => tokenFeatures held.profile) index index.tokenPostings
  fragments : Posts (fun held => fragmentFeatures held.profile) index index.fragmentPostings
  ngrams : Posts (fun held => ngramFeatures held.profile) index index.ngramPostings
  tokenPredicates : Posts (fun held => withPredicates (tokenFeatures held.profile) held.predicates)
    index index.tokenPredicatePostings
  fragmentPredicates : Posts
    (fun held => withPredicates (fragmentFeatures held.profile) held.predicates)
    index index.fragmentPredicatePostings
  ngramPredicates : Posts (fun held => withPredicates (ngramFeatures held.profile) held.predicates)
    index index.ngramPredicatePostings

variable {index other : SubjectProfileIndex} {store : MemoryStore V} {subject : String}

theorem get_keepSet (map : Multimap String String) (subject : String) (values : Finset String)
    (other : String) :
    Multimap.get (keepSet map subject values) other =
      if other = subject then values else map.get other := by
  unfold keepSet
  by_cases none : values = ∅
  · rw [if_pos none]
    by_cases here : other = subject
    · rw [if_pos here, here, Multimap.get_of_none (AList.lookup_erase _ _), none]
    · rw [if_neg here, Multimap.get, AList.lookup_erase_ne here, Multimap.get]
  · rw [if_neg none]
    by_cases here : other = subject
    · rw [if_pos here, here, Multimap.get, AList.lookup_insert, Option.getD_some]
    · rw [if_neg here, Multimap.get, AList.lookup_insert_ne here, Multimap.get]

theorem full_keepSet {map : Multimap String String} (full : Multimap.Full map)
    (values : Finset String) : Multimap.Full (keepSet map subject values) := by
  intro key held found
  unfold keepSet at found
  by_cases none : values = ∅
  · rw [if_pos none] at found
    by_cases here : key = subject
    · rw [here, AList.lookup_erase] at found
      cases found
    · rw [AList.lookup_erase_ne here] at found
      exact full key held found
  · rw [if_neg none] at found
    by_cases here : key = subject
    · rw [here, AList.lookup_insert] at found
      cases found
      exact none
    · rw [AList.lookup_insert_ne here] at found
      exact full key held found

theorem profileOf_refreshSubject (other : String) :
    (refreshSubject store index subject).profileOf other =
      if other = subject then (snapshotSubject store subject).profile else index.profileOf other := by
  unfold profileOf refreshSubject
  simp only
  by_cases none : (snapshotSubject store subject).profile = 0
  · rw [if_pos none]
    by_cases here : other = subject
    · rw [if_pos here, here, AList.lookup_erase, none]
      rfl
    · rw [if_neg here, AList.lookup_erase_ne here]
  · rw [if_neg none]
    by_cases here : other = subject
    · rw [if_pos here, here, AList.lookup_insert]
      rfl
    · rw [if_neg here, AList.lookup_insert_ne here]

theorem snapshotOf_refreshSubject (other : String) :
    (refreshSubject store index subject).snapshotOf other =
      if other = subject then snapshotSubject store subject else index.snapshotOf other := by
  have predicates := get_keepSet index.subjectPredicates subject
    (snapshotSubject store subject).predicates other
  have evidence := get_keepSet index.subjectEvidenceIds subject
    (snapshotSubject store subject).evidenceIds other
  unfold snapshotOf
  rw [profileOf_refreshSubject]
  simp only [refreshSubject, predicates, evidence]
  split <;> rfl

theorem Posts.refreshSubject {κ : Type} [DecidableEq κ] {features : Snapshot → List κ}
    {map : Multimap κ String} (posts : Posts features index map) (store : MemoryStore V)
    (subject : String) : Posts features (refreshSubject store index subject)
      (map.move (features (index.snapshotOf subject)) (features (snapshotSubject store subject))
        subject) where
  full := posts.full.move _ _ _
  posted := by
    intro key other
    rw [Multimap.mem_get_move fun key => posts.posted key subject, snapshotOf_refreshSubject]
    by_cases here : other = subject
    · rw [if_pos here, if_pos here]
    · rw [if_neg here, if_neg here]
      exact posts.posted key other

theorem Posted.refreshSubject (posted : Posted index) (store : MemoryStore V) (subject : String) :
    Posted (refreshSubject store index subject) where
  profiles := by
    intro other profile held
    unfold SubjectProfileIndex.refreshSubject at held
    simp only at held
    split at held
    · by_cases here : other = subject
      · rw [here, AList.lookup_erase] at held
        cases held
      · rw [AList.lookup_erase_ne here] at held
        exact posted.profiles other profile held
    · rename_i some
      by_cases here : other = subject
      · rw [here, AList.lookup_insert] at held
        cases held
        exact some
      · rw [AList.lookup_insert_ne here] at held
        exact posted.profiles other profile held
  predicates := full_keepSet posted.predicates _
  evidence := full_keepSet posted.evidence _
  tokens := posted.tokens.refreshSubject store subject
  fragments := posted.fragments.refreshSubject store subject
  ngrams := posted.ngrams.refreshSubject store subject
  tokenPredicates := posted.tokenPredicates.refreshSubject store subject
  fragmentPredicates := posted.fragmentPredicates.refreshSubject store subject
  ngramPredicates := posted.ngramPredicates.refreshSubject store subject

theorem posts_empty {κ : Type} [DecidableEq κ] {features : Snapshot → List κ}
    (none : features ⟨0, ∅, ∅⟩ = []) : Posts features empty (∅ : Multimap κ String) where
  full := Multimap.full_empty
  posted := by
    intro key subject
    have blank : empty.snapshotOf subject = ⟨0, ∅, ∅⟩ := rfl
    rw [blank, none, Multimap.get_empty]
    exact iff_of_false (Finset.notMem_empty _) List.not_mem_nil

theorem withPredicates_blank : withPredicates [] ∅ = [] := rfl

theorem posted_empty : Posted empty where
  profiles := by
    intro subject profile held
    cases held
  predicates := Multimap.full_empty
  evidence := Multimap.full_empty
  tokens := posts_empty (by simp [tokenFeatures, sorted])
  fragments := posts_empty (by simp [fragmentFeatures, sorted])
  ngrams := posts_empty (by simp [ngramFeatures, sorted])
  tokenPredicates := posts_empty (by simp [tokenFeatures, sorted, withPredicates_blank])
  fragmentPredicates := posts_empty (by simp [fragmentFeatures, sorted, withPredicates_blank])
  ngramPredicates := posts_empty (by simp [ngramFeatures, sorted, withPredicates_blank])

theorem foldl_refreshSubject (store : MemoryStore V) (subjects : List String)
    (posted : Posted index) :
    Posted (subjects.foldl (SubjectProfileIndex.refreshSubject store) index) ∧
      ∀ subject, (subjects.foldl (SubjectProfileIndex.refreshSubject store) index).snapshotOf subject =
        if subject ∈ subjects then snapshotSubject store subject else index.snapshotOf subject := by
  induction subjects generalizing index with
  | nil => exact ⟨posted, fun _ => rfl⟩
  | cons first rest ih =>
      obtain ⟨posted', held⟩ := ih (posted.refreshSubject store first)
      refine ⟨posted', fun subject => ?_⟩
      rw [List.foldl_cons, held, snapshotOf_refreshSubject]
      by_cases later : subject ∈ rest
      · rw [if_pos later, if_pos (List.mem_cons_of_mem _ later)]
      · rw [if_neg later]
        by_cases here : subject = first
        · rw [if_pos here, if_pos (List.mem_cons.mpr (Or.inl here)), here]
        · have skipped : subject ∉ first :: rest := fun member =>
            (List.mem_cons.mp member).elim here later
          rw [if_neg here, if_neg skipped]

theorem ofStore_spec (store : MemoryStore V) :
    Posted (ofStore store) ∧ ∀ subject, (ofStore store).snapshotOf subject =
      snapshotSubject store subject := by
  obtain ⟨posted, held⟩ := foldl_refreshSubject store store.subjectIds posted_empty
  refine ⟨posted, fun subject => ?_⟩
  rw [ofStore, held]
  by_cases listed : subject ∈ store.subjectIds
  · rw [if_pos listed]
  · rw [if_neg listed]
    have none : store.assertionsForSubject subject = [] := by
      by_contra some
      exact listed (MemoryStore.mem_subjectIds.mpr some)
    simp only [snapshotSubject, none]
    simp [snapshotOf, profileOf, empty, Multimap.get, sorted]

theorem Posts.same {κ : Type} [DecidableEq κ] {features : Snapshot → List κ}
    {map map' : Multimap κ String} (posts : Posts features index map)
    (posts' : Posts features other map')
    (held : ∀ subject, index.snapshotOf subject = other.snapshotOf subject) :
    Table.Same map map' := by
  refine posts.full.same posts'.full fun key subject => ?_
  rw [posts.posted, posts'.posted, held]

theorem Posted.equivalent (posted : Posted index) (posted' : Posted other)
    (held : ∀ subject, index.snapshotOf subject = other.snapshotOf subject) :
    Equivalent index other := by
  refine ⟨?_, ?_, ?_, posted.tokens.same posted'.tokens held,
    posted.fragments.same posted'.fragments held, posted.ngrams.same posted'.ngrams held,
    posted.tokenPredicates.same posted'.tokenPredicates held,
    posted.fragmentPredicates.same posted'.fragmentPredicates held,
    posted.ngramPredicates.same posted'.ngramPredicates held⟩
  · rw [Table.same_iff]
    intro subject
    have same : (index.profiles.lookup subject).getD 0 = (other.profiles.lookup subject).getD 0 :=
      congrArg Snapshot.profile (held subject)
    cases found : index.profiles.lookup subject with
    | none =>
        cases found' : other.profiles.lookup subject with
        | none => rfl
        | some profile =>
            rw [found, found'] at same
            exact absurd same.symm (posted'.profiles subject profile found')
    | some profile =>
        cases found' : other.profiles.lookup subject with
        | none =>
            rw [found, found'] at same
            exact absurd same (posted.profiles subject profile found)
        | some profile' =>
            rw [found, found'] at same
            exact congrArg some same
  · refine posted.predicates.same posted'.predicates fun subject predicate => ?_
    have same := congrArg Snapshot.predicates (held subject)
    exact iff_of_eq (congrArg (fun set => predicate ∈ set) same)
  · refine posted.evidence.same posted'.evidence fun subject id => ?_
    have same := congrArg Snapshot.evidenceIds (held subject)
    exact iff_of_eq (congrArg (fun set => id ∈ set) same)

theorem Equivalent.snapshotOf (same : Equivalent index other) (subject : String) :
    index.snapshotOf subject = other.snapshotOf subject := by
  obtain ⟨profiles, predicates, evidence, _⟩ := same
  simp only [SubjectProfileIndex.snapshotOf, profileOf, Multimap.get,
    Table.same_iff.mp profiles subject, Table.same_iff.mp predicates subject,
    Table.same_iff.mp evidence subject]

theorem Posts.of_same {κ : Type} [DecidableEq κ] {features : Snapshot → List κ}
    {map map' : Multimap κ String} (posts : Posts features other map')
    (same : Table.Same map map')
    (held : ∀ subject, index.snapshotOf subject = other.snapshotOf subject) :
    Posts features index map where
  full := posts.full.of_same same
  posted := fun key subject => by
    rw [held, Multimap.get, Table.same_iff.mp same]
    exact posts.posted key subject

theorem Posted.of_equivalent (posted : Posted other) (same : Equivalent index other) :
    Posted index := by
  have held := same.snapshotOf
  obtain ⟨profiles, predicates, evidence, tokens, fragments, ngrams, tokenPredicates,
    fragmentPredicates, ngramPredicates⟩ := same
  exact
    { profiles := fun subject profile found =>
        posted.profiles subject profile ((Table.same_iff.mp profiles subject).symm.trans found)
      predicates := posted.predicates.of_same predicates
      evidence := posted.evidence.of_same evidence
      tokens := posted.tokens.of_same tokens held
      fragments := posted.fragments.of_same fragments held
      ngrams := posted.ngrams.of_same ngrams held
      tokenPredicates := posted.tokenPredicates.of_same tokenPredicates held
      fragmentPredicates := posted.fragmentPredicates.of_same fragmentPredicates held
      ngramPredicates := posted.ngramPredicates.of_same ngramPredicates held }

end SubjectProfileIndex
end DurableContext.Cascade
