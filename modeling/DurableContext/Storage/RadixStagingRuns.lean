import DurableContext.Storage.RadixStaging

/-! Transactions over the radix map, call after call, and what the committed epoch and the next one
read of them. -/

namespace DurableContext.RadixMap

open Program Trie

variable {E : Type}

/-! ### Runs -/

/-- The two ways to stage an edit. -/
inductive Call where
  | map (segmentId segmentBase : Nat)
  | unmap (segmentId : Nat)
  deriving DecidableEq, Repr

def Call.run (epoch : Nat) : Call → Op StoreError (World E) Unit
  | .map segmentId segmentBase => stageMappingToBase segmentId segmentBase epoch (epoch + 1)
  | .unmap segmentId => do
      let _ ← stageUnmap segmentId epoch (epoch + 1)

/-- What a segment is left at by the calls that name it. -/
def lastStaged (calls : List Call) (before : Nat → Option Nat) : Nat → Option Nat :=
  calls.foldl (fun resolved call =>
    match call with
    | .map segmentId segmentBase => Function.update resolved segmentId (some segmentBase)
    | .unmap segmentId => Function.update resolved segmentId none) before

/-- A transaction: the calls that stage its edits, and between them what else an operation does,
which is to resolve segments, to remember what it has resolved, to append extents and to write
pages that belong to no node. -/
inductive Transaction (epoch : Nat) : World E → List Call → World E → Prop where
  | done (world : World E) : Transaction epoch world [] world
  | map {world middle final : World E} {segmentId segmentBase : Nat} {calls : List Call}
      (free : ∀ frontier, world.handle.frontier = some frontier →
        Free (pending world epoch) frontier segmentBase)
      (ran : stageMappingToBase segmentId segmentBase epoch (epoch + 1) world = .ok ⟨⟩ middle)
      (rest : Transaction epoch middle calls final) :
      Transaction epoch world (.map segmentId segmentBase :: calls) final
  | unmap {world middle final : World E} {segmentId segmentBase : Nat} {calls : List Call}
      (ran : stageUnmap segmentId epoch (epoch + 1) world = .ok segmentBase middle)
      (rest : Transaction epoch middle calls final) :
      Transaction epoch world (.unmap segmentId :: calls) final
  | resolve {world middle final : World E} {segmentId : Nat} {found : Option Nat}
      {calls : List Call} (ran : resolveSegment segmentId epoch world = .ok found middle)
      (rest : Transaction epoch middle calls final) : Transaction epoch world calls final
  | remember {world middle final : World E} {segmentId segmentBase : Nat} {calls : List Call}
      (ran : resolveSegment segmentId epoch world = .ok (some segmentBase) middle)
      (rest : Transaction epoch { middle with handle := { middle.handle with
        segments := middle.handle.segments.insert segmentId segmentBase } } calls final) :
      Transaction epoch world calls final
  | extend {world middle final : World E} {frontier pages : Nat} {calls : List Call}
      (at_ : world.handle.frontier = some frontier)
      (ran : growTo (frontier + pages) world = .ok ⟨⟩ middle)
      (rest : Transaction epoch middle calls final) : Transaction epoch world calls final
  | write {world middle final : World E} {page : Nat} {block : Block E} {calls : List Call}
      (apart : ∀ path nodeBase, Visits (pending world epoch) path nodeBase →
        page ≠ nodeBase ∧ page ≠ nodeBase + 1)
      (ran : emit (.pwrite page block) world = .ok ⟨⟩ middle)
      (rest : Transaction epoch middle calls final) : Transaction epoch world calls final

section Steps

variable {start : Disk (Block E)} {epoch frontier0 : Nat} {world : World E}

theorem Staged.remember (staged : Staged start epoch frontier0 world) {segmentId segmentBase : Nat}
    (named : segmentId < 2 ^ LOGICAL_SEGMENT_BITS)
    (found : find (pending world epoch) (digitsOf segmentId) = some segmentBase) :
    Staged start epoch frontier0 { world with handle := { world.handle with
      segments := world.handle.segments.insert segmentId segmentBase } } where
  frontier := staged.frontier
  old := staged.old
  new := staged.new
  kept := staged.kept
  untouched := staged.untouched
  written := staged.written
  unwritten := staged.unwritten
  segments := by
    intro other base held
    rw [lookup_insert] at held
    by_cases same : other = segmentId
    · rw [if_pos same, Option.some.injEq] at held
      rw [same, ← held]
      exact ⟨named, found⟩
    · rw [if_neg same] at held
      exact staged.segments other base held
  cached := staged.cached

theorem Shape.congr {view : View} (view' : View) {frontier wider : Nat} (shape : Shape view frontier)
    (longer : frontier ≤ wider)
    (same : ∀ path nodeBase, Visits view path nodeBase → view' nodeBase = view nodeBase) :
    Shape view' wider ∧ (∀ path nodeBase, Visits view' path nodeBase ↔ Visits view path nodeBase) ∧
      ∀ path, path.length = RADIX_LEVELS → find view' path = find view path := by
  have edge_same : ∀ path nodeBase, Visits view path nodeBase →
      edges view' nodeBase = edges view nodeBase := by
    intro path nodeBase visited
    funext digit
    rw [edges, edges, same path nodeBase visited]
  have visits : ∀ path nodeBase, Visits view' path nodeBase ↔ Visits view path nodeBase :=
    fun _ _ => reached_congr edge_same
  have finds : ∀ path, path.length = RADIX_LEVELS → find view' path = find view path :=
    fun path length => follow_congr edge_same path (Nat.le_of_eq length)
  refine ⟨⟨?_, ?_, ?_, ?_, ?_⟩, visits, finds⟩
  · intro path nodeBase visited
    rw [visits] at visited
    rw [same path nodeBase visited]
    exact shape.readable path nodeBase visited
  · exact fun path other nodeBase visited visited' => shape.branching path other nodeBase
      ((visits path nodeBase).mp visited) ((visits other nodeBase).mp visited')
  · exact fun path nodeBase visited =>
      (shape.below path nodeBase ((visits path nodeBase).mp visited)).trans longer
  · exact fun path nodeBase path' nodeBase' visited visited' => shape.spaced path nodeBase path'
      nodeBase' ((visits path nodeBase).mp visited) ((visits path' nodeBase').mp visited')
  · intro path base length found
    rw [finds path length] at found
    have free := shape.extents path base length found
    exact ⟨free.1.trans longer, fun path' nodeBase visited =>
      free.2 path' nodeBase ((visits path' nodeBase).mp visited)⟩

theorem Staged.aside (staged : Staged start epoch frontier0 world)
    (disk : Disk (Block E)) (log : List (Effect (Block E))) {frontier wider : Nat}
    (at_ : world.handle.frontier = some frontier) (longer : frontier ≤ wider)
    (pages : ∀ path nodeBase, Visits (pending world epoch) path nodeBase →
      disk.pread nodeBase = world.disk.pread nodeBase ∧
        disk.pread (nodeBase + 1) = world.disk.pread (nodeBase + 1)) :
    Staged start epoch frontier0
        ⟨disk, log, { world.handle with frontier := some wider }⟩ ∧
      ∀ path, path.length = RADIX_LEVELS →
        find (pending ⟨disk, log, { world.handle with frontier := some wider }⟩ epoch) path =
          find (pending world epoch) path := by
  obtain ⟨frontier', at', grown, shape⟩ := staged.frontier
  rw [at_, Option.some.injEq] at at'
  subst at'
  have same : ∀ path nodeBase, Visits (pending world epoch) path nodeBase →
      pending ⟨disk, log, { world.handle with frontier := some wider }⟩ epoch nodeBase =
        pending world epoch nodeBase := by
    intro path nodeBase visited
    have pages_ := pages path nodeBase visited
    rw [pending, pending, nodeForPendingWrite, nodeForPendingWrite,
      readNode_congr pages_.1 pages_.2 epoch]
  obtain ⟨shape', visits, finds⟩ := shape.congr _ longer same
  have page : ∀ path nodeBase, Visits (pending world epoch) path nodeBase → ∀ slot : Bool,
      disk.pread (nodeBase + slot.toNat) = world.disk.pread (nodeBase + slot.toNat) := by
    intro path nodeBase visited slot
    cases slot with
    | false => exact (pages path nodeBase visited).1
    | true => exact (pages path nodeBase visited).2
  refine ⟨⟨⟨wider, rfl, grown.trans longer, shape'⟩, ?_, ?_, ?_, ?_, ?_, staged.unwritten, ?_, ?_⟩,
    finds⟩
  · exact fun path nodeBase visited => (visits path nodeBase).mpr (staged.old path nodeBase visited)
  · exact fun path nodeBase visited => staged.new path nodeBase ((visits path nodeBase).mp visited)
  · intro path nodeBase visited
    have pages_ := pages path nodeBase (staged.old path nodeBase visited)
    rw [← staged.kept path nodeBase visited]
    exact readNode_congr pages_.1 pages_.2 epoch
  · intro path nodeBase visited absent slot
    rw [← staged.untouched path nodeBase visited absent slot]
    exact page path nodeBase (staged.old path nodeBase visited) slot
  · intro nodeBase node held
    obtain ⟨⟨path, visited⟩, slot, known, written, rest⟩ := staged.written nodeBase node held
    exact ⟨⟨path, (visits path nodeBase).mpr visited⟩, slot, known,
      (page path nodeBase visited slot).trans written, rest⟩
  · intro segmentId base held
    obtain ⟨named, found⟩ := staged.segments segmentId base held
    exact ⟨named, (finds _ (length_digitsOf segmentId)).trans found⟩
  · intro empty segmentId found known
    obtain ⟨named, resolved⟩ := staged.cached empty segmentId found known
    exact ⟨named, (finds _ (length_digitsOf segmentId)).trans resolved⟩

/-- A segment is left as it was or as the last call on it has left it, whatever the others are. -/
theorem lastStaged_congr (calls : List Call) {before other : Nat → Option Nat} {segmentId : Nat}
    (same : before segmentId = other segmentId) :
    lastStaged calls before segmentId = lastStaged calls other segmentId := by
  unfold lastStaged
  induction calls generalizing before other with
  | nil => exact same
  | cons call calls ih =>
      rw [List.foldl_cons, List.foldl_cons]
      refine ih ?_
      cases call <;> simp only [Function.update_apply, same]

theorem lastStaged_cons_map (calls : List Call) (before : Nat → Option Nat)
    (segmentId segmentBase : Nat) : lastStaged (.map segmentId segmentBase :: calls) before =
      lastStaged calls (Function.update before segmentId (some segmentBase)) := rfl

theorem lastStaged_cons_unmap (calls : List Call) (before : Nat → Option Nat) (segmentId : Nat) :
    lastStaged (.unmap segmentId :: calls) before =
      lastStaged calls (Function.update before segmentId none) := rfl

theorem Staged.run {final : World E} {calls : List Call}
    (shape : Shape (committed start epoch) frontier0)
    (ran : Transaction epoch world calls final) (staged : Staged start epoch frontier0 world) :
    Staged start epoch frontier0 final ∧ ∀ segmentId < 2 ^ LOGICAL_SEGMENT_BITS,
      find (pending final epoch) (digitsOf segmentId) =
        lastStaged calls (fun other => find (pending world epoch) (digitsOf other)) segmentId := by
  induction ran with
  | done world => exact ⟨staged, fun _ _ => rfl⟩
  | @map world middle final named base calls free ran _ ih =>
      have step : Outcome (stageMappingToBase named base epoch (epoch + 1)) world _ _ :=
        staged.map shape free
      rw [Outcome, ran] at step
      obtain ⟨named_, staged', finds⟩ := step
      obtain ⟨done, last⟩ := ih staged'
      refine ⟨done, fun segmentId inside => ?_⟩
      rw [last segmentId inside, lastStaged_cons_map]
      refine lastStaged_congr calls ?_
      rw [finds _ (length_digitsOf segmentId), Function.update_apply]
      by_cases same : segmentId = named
      · rw [if_pos (congrArg digitsOf same), if_pos same]
      · rw [if_neg fun equal => same (digitsOf_injective inside named_ equal), if_neg same]
  | @unmap world middle final named base calls ran _ ih =>
      have step : Outcome (stageUnmap named epoch (epoch + 1)) world _ _ := staged.unmap shape
      rw [Outcome, ran] at step
      obtain ⟨named_, _, staged', finds⟩ := step
      obtain ⟨done, last⟩ := ih staged'
      refine ⟨done, fun segmentId inside => ?_⟩
      rw [last segmentId inside, lastStaged_cons_unmap]
      refine lastStaged_congr calls ?_
      rw [finds _ (length_digitsOf segmentId), Function.update_apply]
      by_cases same : segmentId = named
      · rw [if_pos (congrArg digitsOf same), if_pos same]
      · rw [if_neg fun equal => same (digitsOf_injective inside named_ equal), if_neg same]
  | @resolve world middle final named found calls ran _ ih =>
      have step := staged.resolve named
      rw [Outcome, ran] at step
      obtain ⟨_, _, staged', segmentCache, rfl⟩ := step
      exact ih staged'
  | @remember world middle final named base calls ran _ ih =>
      have step := staged.resolve named
      rw [Outcome, ran] at step
      obtain ⟨inside, found, staged', segmentCache, rfl⟩ := step
      exact ih (staged'.remember inside found.symm)
  | @extend world middle final frontier pages calls at_ ran _ ih =>
      cases ran
      obtain ⟨frontier', at', _, shape'⟩ := staged.frontier
      rw [at_, Option.some.injEq] at at'
      subst at'
      have step := staged.aside (world.disk.ftruncate (frontier + pages))
        (world.log ++ [.ftruncate (frontier + pages)]) at_ (Nat.le_add_right frontier pages)
        fun path nodeBase visited => by
          have low := shape'.below path nodeBase visited
          rw [RADIX_NODE_COPIES] at low
          exact ⟨if_pos (by omega), if_pos (by omega)⟩
      obtain ⟨done, last⟩ := ih step.1
      refine ⟨done, fun segmentId inside => ?_⟩
      rw [last segmentId inside]
      exact lastStaged_congr calls (step.2 _ (length_digitsOf segmentId))
  | @write world middle final page block calls apart ran _ ih =>
      cases ran
      obtain ⟨frontier, at_, _, _⟩ := staged.frontier
      have step := staged.aside (world.disk.pwrite page block)
        (world.log ++ [.pwrite page block]) at_ le_rfl fun path nodeBase visited => by
          obtain ⟨first, second⟩ := apart path nodeBase visited
          exact ⟨if_neg (Ne.symm first), if_neg (Ne.symm second)⟩
      have same : ({ world.handle with frontier := some frontier } : Handle) = world.handle := by
        rw [← at_]
      rw [same] at step
      obtain ⟨done, last⟩ := ih step.1
      refine ⟨done, fun segmentId inside => ?_⟩
      rw [last segmentId inside]
      exact lastStaged_congr calls (step.2 _ (length_digitsOf segmentId))

end Steps

/-! ### Readers -/

section Readers

variable {start disk : Disk (Block E)} {epoch frontier0 frontier : Nat} {world : World E}

theorem readSegment_eq (disk : Disk (Block E)) (segmentId epoch : Nat) :
    readSegment disk segmentId epoch = (do
      let digits ← radixDigits segmentId
      walk (committed disk epoch) 0 digits ROOT_NODE_BASE_PAGE) := by
  unfold readSegment resolveSegment
  rw [bind_of_ok (get_run _)]
  cases radixDigits segmentId with
  | error error => rfl
  | ok digits =>
      have view : nodeForPendingWrite (⟨disk, [], ⟨none, ∅, ∅, ∅, ∅⟩⟩ : World E) epoch =
          committed disk epoch := rfl
      simp only [Handle.reset, AList.lookup_empty, AList.keys_empty, List.isEmpty_nil, if_true]
      rw [bind_of_ok (ofResult_ok _ _), ok_bind rfl, view]
      cases walk (committed disk epoch) 0 digits ROOT_NODE_BASE_PAGE <;> rfl

theorem Shape.readSegment (shape : Shape (committed disk epoch) frontier) {segmentId : Nat}
    (named : segmentId < 2 ^ LOGICAL_SEGMENT_BITS) :
    readSegment disk segmentId epoch = .ok (find (committed disk epoch) (digitsOf segmentId)) := by
  rw [readSegment_eq, radixDigits_ok named, ok_bind rfl, shape.walk_root]

theorem Kept.readSegment (kept : Kept start epoch disk)
    (shape : Shape (committed start epoch) frontier0) (segmentId : Nat) :
    RadixMap.readSegment disk segmentId epoch = RadixMap.readSegment start segmentId epoch := by
  obtain ⟨shape', _, finds⟩ := shape.congr (committed disk epoch) le_rfl kept
  by_cases named : segmentId < 2 ^ LOGICAL_SEGMENT_BITS
  · rw [shape'.readSegment named, shape.readSegment named, finds _ (length_digitsOf segmentId)]
  · have refused : radixDigits segmentId = .error (.valueError
        "logical segment id exceeds fixed 64-bit radix namespace") := if_pos (Nat.not_lt.mp named)
    rw [readSegment_eq, readSegment_eq, refused]
    rfl

/-- No reachable node has a copy from a later epoch. -/
def Clean (start : Disk (Block E)) (epoch : Nat) : Prop :=
  ∀ path nodeBase, Visits (committed start epoch) path nodeBase → ∀ slot tagged,
    copiesAt Block.asNode start nodeBase slot = some tagged → tagged.1 ≤ epoch

/-- Once the next epoch is committed, its readers find the nodes that were staged for it. -/
theorem Staged.next_epoch (staged : Staged start epoch frontier0 world) (clean : Clean start epoch)
    {path : List Nat} {nodeBase : Nat} (visited : Visits (pending world epoch) path nodeBase) :
    committed world.disk (epoch + 1) nodeBase = pending world epoch nodeBase := by
  cases held : world.handle.nodes.lookup nodeBase with
  | some node =>
      obtain ⟨_, slot, known, written, low, high⟩ := staged.written nodeBase node held
      rw [pending_some held known, committed, readNode_ok]
      refine ⟨epoch + 1, DualCopy.newest_eq ?_ ?_⟩
      · rw [copiesAt, written]
        exact DualCopy.visible_eq_some.mpr ⟨rfl, le_rfl⟩
      · intro found seen
        obtain ⟨present, bound⟩ := DualCopy.visible_eq_some.mp seen
        rcases staged.new path nodeBase visited with old | ⟨above, _⟩
        · obtain ⟨committedNode, read⟩ := high path old
          rw [← staged.kept path nodeBase old] at read
          obtain ⟨tag, selected⟩ := readNode_ok.mp read
          obtain ⟨other, older⟩ := DualCopy.select_mem selected
          rw [present, Option.some.injEq] at other
          rw [other]
          exact Or.inl (Nat.lt_succ_of_le older)
        · exact Or.inr ⟨low above, bound⟩
  | none =>
      rw [pending_none held]
      rcases staged.new path nodeBase visited with old | ⟨_, some_⟩
      · have copies : copiesAt Block.asNode world.disk nodeBase =
            copiesAt Block.asNode start nodeBase :=
          copiesAt_congr _ (staged.untouched path nodeBase old held false)
            (staged.untouched path nodeBase old held true)
        rw [committed, committed, readNode, readNode, copies,
          DualCopy.select_epoch (Nat.le_succ epoch) fun slot tagged present _ =>
            clean path nodeBase old slot tagged present]
      · exact absurd held some_

theorem Staged.shape (staged : Staged start epoch frontier0 world)
    (at_ : world.handle.frontier = some frontier) : Shape (pending world epoch) frontier := by
  obtain ⟨frontier', at', _, shape⟩ := staged.frontier
  rw [at_, Option.some.injEq] at at'
  exact at' ▸ shape

/-- A segment can be put past what was the frontier before its extent was appended. -/
theorem Shape.free_appended {wider base : Nat} (shape : Shape (pending world epoch) frontier)
    (past : frontier ≤ base) (inside : base + SEGMENT_DATA_PAGES ≤ wider)
    (log : List (Effect (Block E))) : Free (pending ⟨world.disk.ftruncate wider, log,
      { world.handle with frontier := some wider }⟩ epoch) wider base := by
  have longer : frontier ≤ wider := past.trans ((Nat.le_add_right _ _).trans inside)
  refine ⟨inside, fun path nodeBase visited => Or.inl ?_⟩
  refine (shape.below path nodeBase ?_).trans past
  refine ((shape.congr _ longer fun path nodeBase visited => ?_).2.1 path nodeBase).mp visited
  have low := shape.below path nodeBase visited
  rw [RADIX_NODE_COPIES] at low
  have first : (world.disk.ftruncate wider).pread nodeBase = world.disk.pread nodeBase :=
    if_pos (by omega)
  have second : (world.disk.ftruncate wider).pread (nodeBase + 1) =
      world.disk.pread (nodeBase + 1) := if_pos (by omega)
  rw [pending, pending, nodeForPendingWrite, nodeForPendingWrite, readNode_congr first second epoch]

/-- Edits staged in any order by one transaction over a well-formed map: the transaction resolves
each segment to what was staged for it last, the committed epoch is read as before, also when a
further call fails halfway, and the new nodes lie past the committed frontier in a map that is
again well formed. -/
theorem staged_mappings_isolated (shape : Shape (committed start epoch) frontier0)
    (log : List (Effect (Block E))) (calls : List Call) (world : World E)
    (ran : Transaction epoch ⟨start, log, { Handle.reset with frontier := some frontier0 }⟩ calls
      world) :
    ∃ before : Nat → Option Nat,
      (∀ segmentId < 2 ^ LOGICAL_SEGMENT_BITS,
        readSegment start segmentId epoch = .ok (before segmentId) ∧
        walk (nodeForPendingWrite world epoch) 0 (digitsOf segmentId) ROOT_NODE_BASE_PAGE =
          .ok (lastStaged calls before segmentId) ∧
        ∃ after, resolveSegment segmentId epoch world =
          .ok (lastStaged calls before segmentId) after) ∧
      (∀ segmentId, readSegment world.disk segmentId epoch = readSegment start segmentId epoch) ∧
      (∀ call : Call, (∀ segmentId segmentBase, call = .map segmentId segmentBase →
          ∀ frontier, world.handle.frontier = some frontier →
            Free (pending world epoch) frontier segmentBase) →
        ∀ segmentId, readSegment (finalState (call.run epoch world)).disk segmentId epoch =
          readSegment start segmentId epoch) ∧
      (Clean start epoch → ∀ segmentId < 2 ^ LOGICAL_SEGMENT_BITS,
        readSegment world.disk segmentId (epoch + 1) = .ok (lastStaged calls before segmentId)) ∧
      ∃ frontier, world.handle.frontier = some frontier ∧ frontier0 ≤ frontier ∧
        Shape (pending world epoch) frontier ∧
        ∀ path nodeBase, Visits (pending world epoch) path nodeBase →
          Visits (committed start epoch) path nodeBase ∨ frontier0 ≤ nodeBase := by
  obtain ⟨staged, last⟩ := (Staged.of_reset shape log).run shape ran
  obtain ⟨frontier, at_, grown, shape'⟩ := staged.frontier
  refine ⟨fun segmentId => find (committed start epoch) (digitsOf segmentId), ?_, ?_, ?_, ?_,
    frontier, at_, grown, shape', ?_⟩
  · intro segmentId named
    refine ⟨shape.readSegment named, ?_, ?_⟩
    · exact (shape'.walk_root segmentId).trans (congrArg Except.ok (last segmentId named))
    · have resolved := staged.resolve segmentId
      unfold Outcome at resolved
      cases found : resolveSegment segmentId epoch world with
      | error error after =>
          rw [found] at resolved
          exact absurd named (Nat.not_lt.mpr resolved.1)
      | ok value after =>
          rw [found] at resolved
          exact ⟨after, congrArg (EStateM.Result.ok · after)
            (resolved.2.1.trans (last segmentId named))⟩
  · exact fun segmentId => Kept.readSegment staged.kept shape segmentId
  · intro call free segmentId
    refine Kept.readSegment ?_ shape segmentId
    cases call with
    | map named base =>
        have step : Outcome (stageMappingToBase named base epoch (epoch + 1)) world _ _ :=
          staged.map shape (free named base rfl)
        exact Outcome.stops (Outcome.mono step (fun _ _ held => held.2.1.kept) fun _ _ held => held)
    | unmap named =>
        have step : Outcome (stageUnmap named epoch (epoch + 1)) world _ _ := staged.unmap shape
        exact Outcome.stops (Outcome.bind (Outcome.mono step (fun _ _ held => held) fun _ _ held =>
          held) fun _ _ held => Outcome.of_ok (pure_run _ _) held.2.2.1.kept)
  · intro clean segmentId named
    obtain ⟨shape'', _, finds⟩ := shape'.congr (committed world.disk (epoch + 1)) le_rfl
      fun path nodeBase visited => staged.next_epoch clean visited
    rw [shape''.readSegment named, finds _ (length_digitsOf segmentId)]
    exact congrArg Except.ok (last segmentId named)
  · intro path nodeBase visited
    exact (staged.new path nodeBase visited).imp_right And.left

end Readers

section Sample

def emptyMap : Disk (Block Unit) := (Disk.empty.ftruncate 4).pwrite 2 (.node 1 ⟨0, ∅⟩)

theorem emptyMap_visits {path : List Nat} {nodeBase : Nat}
    (visited : Visits (committed emptyMap 1) path nodeBase) : path = [] ∧ nodeBase = 2 := by
  cases path with
  | nil => exact ⟨rfl, (Option.some.inj visited.2).symm⟩
  | cons digit path =>
      have missing : edges (committed emptyMap 1) ROOT_NODE_BASE_PAGE digit = none := rfl
      have found := visited.2
      rw [follow, missing] at found
      cases found

theorem emptyMap_shape : Shape (committed emptyMap 1) 4 where
  readable := by
    intro path nodeBase visited
    obtain ⟨rfl, rfl⟩ := emptyMap_visits visited
    exact ⟨⟨0, ∅⟩, false, rfl, rfl⟩
  branching := fun path other nodeBase visited visited' =>
    (emptyMap_visits visited).1.trans (emptyMap_visits visited').1.symm
  below := by
    intro path nodeBase visited
    rw [(emptyMap_visits visited).2]
    exact le_rfl
  spaced := fun path nodeBase path' nodeBase' visited visited' different =>
    absurd ((emptyMap_visits visited).2.trans (emptyMap_visits visited').2.symm) different
  extents := by
    intro path base length found
    cases path with
    | nil => cases length
    | cons digit path =>
        have missing : edges (committed emptyMap 1) ROOT_NODE_BASE_PAGE digit = none := rfl
        rw [find, follow, missing] at found
        cases found

/-- The world of a transaction over the empty map after an extent has been appended. -/
def appendedWorld (world : World Unit) (pages : Nat) : World Unit :=
  ⟨world.disk.ftruncate pages, world.log ++ [.ftruncate pages],
    { world.handle with frontier := some pages }⟩

def openedWorld : World Unit := ⟨emptyMap, [], { Handle.reset with frontier := some 4 }⟩

/-- The first segment is mapped, and the seven nodes of its path have been appended. -/
def mappedOnce : World Unit := finalState (stageMappingToBase 5 6 1 2 (appendedWorld openedWorld 38))

def mappedTwice : World Unit := finalState (stageMappingToBase 9 54 1 2 (appendedWorld mappedOnce 86))

def unmappedAgain : World Unit := finalState (stageUnmap 5 1 2 mappedTwice)

/-- Two segments mapped in the empty map, at extents appended to the file, and one of them taken off
again. -/
theorem staged_mappings_isolated_sample : ∃ after after',
    Transaction 1 openedWorld [.map 5 6, .map 9 54, .unmap 5] unmappedAgain ∧
      resolveSegment 5 1 unmappedAgain = .ok none after ∧
      resolveSegment 9 1 unmappedAgain = .ok (some 54) after' ∧
      readSegment unmappedAgain.disk 9 1 = .ok none := by
  obtain ⟨_, first⟩ := of_returned (by decide +kernel :
    returned (stageMappingToBase 5 6 1 2 (appendedWorld openedWorld 38)) = true)
  obtain ⟨_, second⟩ := of_returned (by decide +kernel :
    returned (stageMappingToBase 9 54 1 2 (appendedWorld mappedOnce 86)) = true)
  obtain ⟨base, third⟩ := of_returned (by decide +kernel :
    returned (stageUnmap 5 1 2 mappedTwice) = true)
  have front : mappedOnce.handle.frontier = some 52 := by decide +kernel
  have opened : Shape (pending openedWorld 1) 4 := (Staged.of_reset emptyMap_shape []).shape rfl
  have free : ∀ frontier, (appendedWorld openedWorld 38).handle.frontier = some frontier →
      Free (pending (appendedWorld openedWorld 38) 1) frontier 6 := by
    intro frontier at_
    cases at_
    exact opened.free_appended (by decide) le_rfl _
  have once : Transaction 1 openedWorld [.map 5 6] mappedOnce :=
    .extend rfl (rfl : growTo (4 + 34) openedWorld = .ok ⟨⟩ (appendedWorld openedWorld 38))
      (.map free first (.done _))
  have mapped : Shape (pending mappedOnce 1) 52 :=
    ((Staged.of_reset emptyMap_shape []).run emptyMap_shape once).1.shape front
  have free' : ∀ frontier, (appendedWorld mappedOnce 86).handle.frontier = some frontier →
      Free (pending (appendedWorld mappedOnce 86) 1) frontier 54 := by
    intro frontier at_
    cases at_
    exact mapped.free_appended (by decide) le_rfl _
  have whole : Transaction 1 openedWorld [.map 5 6, .map 9 54, .unmap 5] unmappedAgain :=
    .extend rfl (rfl : growTo (4 + 34) openedWorld = .ok ⟨⟩ (appendedWorld openedWorld 38))
      (.map free first (.extend front
        (rfl : growTo (52 + 34) mappedOnce = .ok ⟨⟩ (appendedWorld mappedOnce 86))
        (.map free' second (.unmap third (.done _)))))
  obtain ⟨before, resolved, read, _⟩ := staged_mappings_isolated emptyMap_shape []
    [.map 5 6, .map 9 54, .unmap 5] unmappedAgain whole
  obtain ⟨_, _, after, gone⟩ := resolved 5 (by decide)
  obtain ⟨_, _, after', kept⟩ := resolved 9 (by decide)
  exact ⟨after, after', whole, gone, kept, (read 9).trans rfl⟩

end Sample

end DurableContext.RadixMap
