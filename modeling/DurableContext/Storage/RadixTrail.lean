import DurableContext.Storage.RadixStagingRuns

/-! What an edit of the radix map does to the file, effect by effect, and why it can fail. -/

namespace DurableContext

namespace RadixMap

open Program Trie

variable {E : Type}

/-- A run has done to the file what it has logged, and nothing that is not allowed. -/
def Trail (before after : World E) (allowed : Effect (Block E) → Prop) : Prop :=
  ∃ effects, after.log = before.log ++ effects ∧ after.disk = before.disk.replay effects ∧
    ∀ effect ∈ effects, allowed effect

section Trails

variable {before middle after : World E} {allowed wider : Effect (Block E) → Prop}

theorem Trail.refl (world : World E) (allowed : Effect (Block E) → Prop) :
    Trail world world allowed := ⟨[], by simp⟩

theorem Trail.mono (trail : Trail before after allowed)
    (inside : ∀ effect, allowed effect → wider effect) : Trail before after wider := by
  obtain ⟨effects, log, disk, fine⟩ := trail
  exact ⟨effects, log, disk, fun effect member => inside effect (fine effect member)⟩

theorem Trail.single (effect : Effect (Block E)) (log : after.log = before.log ++ [effect])
    (disk : after.disk = before.disk.apply effect) (fine : allowed effect) :
    Trail before after allowed := by
  refine ⟨[effect], log, by rw [disk]; rfl, fun other member => ?_⟩
  rw [List.mem_singleton.mp member]
  exact fine

theorem Trail.handle (trail : Trail before after allowed) (handle : Handle) :
    Trail before { after with handle } allowed := trail

theorem Trail.pread (trail : Trail before after allowed) {page : Nat}
    (apart : ∀ effect, allowed effect → ∀ disk : Disk (Block E),
      (disk.apply effect).pread page = disk.pread page) :
    after.disk.pread page = before.disk.pread page := by
  obtain ⟨effects, _, disk, fine⟩ := trail
  rw [disk]
  have start : before.disk.pread page = before.disk.pread page := rfl
  refine @Disk.replay_induction _ _ (fun file => file.pread page = before.disk.pread page) _ _
    start ?_
  exact fun effect member file kept => (apart effect (fine effect member) file).trans kept

end Trails

/-- What an operation has staged does not depend on what it has logged. -/
theorem Staged.of_log {start : Disk (Block E)} {frontier : Nat}
    {world : RadixMap.World E} (staged : Staged start epoch frontier world)
    (log : List (Effect (Block E))) :
    Staged start epoch frontier { world with log } where
  frontier := staged.frontier
  old := staged.old
  new := staged.new
  kept := staged.kept
  untouched := staged.untouched
  written := staged.written
  unwritten := staged.unwritten
  segments := staged.segments
  cached := staged.cached

/-! ### Single nodes -/

/-- Why a node that lies where it should cannot be written. -/
inductive NodeLimit (epoch : Nat) (node : RadixNode) : StoreError → Prop
  | epoch (large : 2 ^ 64 ≤ epoch) : NodeLimit epoch node .structError
  | digit {digit : Nat} (held : digit ∈ node.entries) (large : RADIX_FANOUT ≤ digit) :
      NodeLimit epoch node (.valueError ("radix digit out of range: " ++ toString digit))

theorem NodeLimit.of_erase {epoch digit : Nat} {node : RadixNode} {error : StoreError}
    (limit : NodeLimit epoch ⟨node.depth, node.entries.erase digit⟩ error) :
    NodeLimit epoch node error := by
  cases limit with
  | epoch large => exact .epoch large
  | digit held large => exact .digit (AList.mem_erase.mp held).2 large

theorem packNode_error {epoch : Nat} {node : RadixNode} {error : StoreError}
    (deep : node.depth < RADIX_LEVELS)
    (pointers : ∀ digit value, node.entries.lookup digit = some value → value < 2 ^ 64)
    (packed : (packNode epoch node : Except StoreError (Block E)) = .error error) :
    NodeLimit epoch node error := by
  unfold packNode at packed
  rw [if_neg (Nat.not_le.mpr deep)] at packed
  split at packed
  case h_1 entry found =>
    have listed := List.mem_of_find?_eq_some found
    split at packed
    · rename_i large
      cases packed
      exact .digit (AList.mem_keys.mp (List.mem_keys_of_mem listed)) large
    · rename_i short
      have bad := List.find?_some found
      rw [decide_eq_true_iff] at bad
      have small := pointers entry.1 entry.2 (AList.mem_lookup_iff.mpr listed)
      have large := bad.resolve_left short
      rw [MAX_PHYSICAL_PAGE_ID] at large
      omega
  case h_2 =>
    split at packed
    · cases packed
      exact .epoch ‹_›
    · cases packed

theorem writeExistingNode_trail {before : World E} {nodeBase committedEpoch : Nat}
    {old : RadixNode} {slot : Bool} (newEpoch : Nat) (node : RadixNode)
    (seen : nodeForPendingWrite before committedEpoch nodeBase = .ok (old, slot))
    (unwritten : before.handle.nodes.lookup nodeBase = none →
      before.handle.nodeSlots.lookup nodeBase = none) :
    Outcome (writeExistingNode nodeBase committedEpoch newEpoch node (some slot)) before
      (fun _ after => Trail before after fun effect =>
        effect = .pwrite (nodeBase + (target before nodeBase slot).toNat) (.node newEpoch node))
      (fun error after => Trail before after (fun _ => False) ∧
        (packNode newEpoch node : Except StoreError (Block E)) = .error error) := by
  unfold nodeForPendingWrite at seen
  unfold writeExistingNode target
  rw [Outcome, bind_of_ok (get_run _)]
  cases held : before.handle.nodes.lookup nodeBase with
  | none =>
      rw [unwritten held]
      cases packed : packNode (E := E) newEpoch node with
      | error error => exact ⟨Trail.refl before _, rfl⟩
      | ok block =>
          rw [packNode_ok packed]
          exact Trail.single
            (.pwrite (nodeBase + (!slot).toNat) (.node newEpoch node)) rfl rfl rfl
  | some current =>
      rw [held] at seen
      cases known : before.handle.nodeSlots.lookup nodeBase with
      | none =>
          rw [known] at seen
          cases seen
      | some slot' =>
          rw [known] at seen
          cases seen
          cases packed : packNode (E := E) newEpoch node with
          | error error => exact ⟨Trail.refl before _, rfl⟩
          | ok block =>
              rw [packNode_ok packed]
              exact Trail.single
                (.pwrite (nodeBase + slot.toNat) (.node newEpoch node)) rfl rfl rfl

/-! ### Edits -/

/-- The effect of an edit that adds no node: the other copy of a node is written. -/
inductive NodeEffect (world : World E) (epoch : Nat) : Effect (Block E) → Prop
  | edit {path : List Nat} {nodeBase : Nat} {old : RadixNode} {slot : Bool} (node : RadixNode)
      (visited : Visits (pending world epoch) path nodeBase)
      (seen : pending world epoch nodeBase = .ok (old, slot)) :
      NodeEffect world epoch
        (.pwrite (nodeBase + (target world nodeBase slot).toNat) (.node (epoch + 1) node))

/-- A node that a reader comes to cannot be written. -/
def NodesLimit (view : View) (epoch : Nat) (error : StoreError) : Prop :=
  ∃ path nodeBase node slot, Visits view path nodeBase ∧ view nodeBase = .ok (node, slot) ∧
    NodeLimit epoch node error

theorem Shape.pointer {view : View} {frontier : Nat} (shape : Shape view frontier)
    (bounded : frontier ≤ 2 ^ 64) {path : List Nat} {nodeBase digit value : Nat} {node : RadixNode}
    {slot : Bool} (visited : Visits view path nodeBase) (seen : view nodeBase = .ok (node, slot))
    (held : node.entries.lookup digit = some value) : value < 2 ^ 64 := by
  have leads := (find_snoc visited.2 seen digit).trans held
  have length : (path ++ [digit]).length = path.length + 1 := by simp
  have deep : path.length < RADIX_LEVELS := visited.1
  by_cases last : path.length + 1 = RADIX_LEVELS
  · have inside := (shape.extents _ _ (length.trans last) leads).1
    rw [SEGMENT_DATA_PAGES] at inside
    omega
  · have inside := shape.below (path ++ [digit]) value ⟨by omega, leads⟩
    rw [RADIX_NODE_COPIES] at inside
    omega

section Stage

variable {start : Disk (Block E)} {epoch frontier0 frontier : Nat} {world : World E}

theorem Trail.size {after : World E} (shape' : Shape (pending world epoch) frontier)
    (trail : Trail world after (NodeEffect world epoch))
    (sized : world.disk.size = frontier) : after.disk.size = frontier := by
  obtain ⟨effects, _, disk, fine⟩ := trail
  rw [disk]
  refine @Disk.replay_induction _ _ (fun file => file.size = frontier) _ _ sized ?_
  intro effect member file kept
  obtain @⟨path, nodeBase, old, slot, node, visited, seen⟩ := fine effect member
  have low := shape'.below path nodeBase visited
  rw [RADIX_NODE_COPIES] at low
  show max file.size _ = frontier
  rcases slot_page nodeBase (target world nodeBase slot) with at_ | at_ <;> omega

theorem Staged.unmap_trail (staged : Staged start epoch frontier0 world)
    (at_ : world.handle.frontier = some frontier) (segmentId : Nat) :
    Outcome (stageUnmap segmentId epoch (epoch + 1)) world
      (fun _ after => Trail world after (NodeEffect world epoch) ∧
        after.handle.frontier = some frontier ∧
        (world.disk.size = frontier → after.disk.size = frontier) ∧
        ∀ path now, Visits (pending after epoch) path now → Visits (pending world epoch) path now)
      (fun error after => Trail world after (NodeEffect world epoch) ∧ (frontier ≤ 2 ^ 64 →
        segmentId < 2 ^ LOGICAL_SEGMENT_BITS →
          find (pending world epoch) (digitsOf segmentId) ≠ none →
            NodesLimit (pending world epoch) (epoch + 1) error)) := by
  unfold stageUnmap
  cases named : radixDigits segmentId with
  | error error =>
      refine Outcome.of_error (bind_of_error (ofResult_error error world)) 
        ⟨Trail.refl world _, fun _ inside => ?_⟩
      rw [radixDigits_ok inside] at named
      cases named
  | ok digits =>
      obtain ⟨inside, rfl⟩ := radixDigits_eq_ok named
      obtain ⟨frontier', at', _, shape'⟩ := staged.frontier
      have equal : frontier' = frontier := Option.some.inj (at'.symm.trans at_)
      subst equal
      rw [Outcome, bind_of_ok (ofResult_ok _ _), bind_of_ok (get_run _)]
      have search := @leafEdge_spec _ _ [] (digitsOf segmentId) _ shape' rfl (by simp)
        (digitsOf_ne_nil segmentId)
      rw [List.length_nil, List.nil_append, pending] at search
      cases found : leafEdge (nodeForPendingWrite world epoch) 0 (digitsOf segmentId)
          ROOT_NODE_BASE_PAGE with
      | error error =>
          rw [found] at search
          rw [bind_of_error (ofResult_error error world)]
          exact ⟨Trail.refl world _, fun _ _ present => absurd search present⟩
      | ok edge =>
          rw [found] at search
          obtain ⟨done, leads⟩ := search
          rw [bind_of_ok (ofResult_ok edge world)]
          have wrote := Outcome.and
            (writeExistingNode_trail (epoch + 1)
              ⟨edge.node.depth, edge.node.entries.erase edge.digit⟩ leads.seen
              (staged.unwritten edge.nodeBase))
            (writeExistingNode_outcome (epoch + 1)
              ⟨edge.node.depth, edge.node.entries.erase edge.digit⟩ leads.seen
              (staged.unwritten edge.nodeBase))
          refine Outcome.bind (Outcome.mono wrote (fun _ _ held => held) fun _ after raised => ?_) ?_
          · refine ⟨raised.1.1.mono fun _ never => never.elim, fun bounded _ _ => ?_⟩
            have deep : edge.node.depth < RADIX_LEVELS := leads.depth ▸ leads.visited.1
            refine ⟨done, edge.nodeBase, edge.node, edge.slot, leads.visited, leads.seen, ?_⟩
            refine NodeLimit.of_erase (packNode_error deep ?_ raised.1.2)
            intro digit value held
            have held' : edge.node.entries.lookup digit = some value := by
              by_cases same : digit = edge.digit
              · rw [same, AList.lookup_erase] at held
                cases held
              · rwa [AList.lookup_erase_ne same] at held
            exact shape'.pointer bounded leads.visited leads.seen held'
          rintro _ after ⟨trail, wrote⟩
          have edited : Trail world after (NodeEffect world epoch) := by
            refine trail.mono ?_
            rintro _ rfl
            exact .edit _ leads.visited leads.seen
          refine ⟨edited.handle _, wrote.frontier.trans at',
            edited.size shape', fun path now visited => ?_⟩
          have edits : Edits world after epoch frontier' edge.nodeBase
              (target world edge.nodeBase edge.slot)
              ⟨edge.node.depth, edge.node.entries.erase edge.digit⟩ [] :=
            ⟨⟨(wrote.nodes _).trans (if_pos rfl), (wrote.nodeSlots _).trans (if_pos rfl)⟩,
              (fun item member => by cases member),
              fun other different _ => ⟨(wrote.nodes other).trans (if_neg different),
                (wrote.nodeSlots other).trans (if_neg different)⟩,
              (fun page _ => by rw [wrote.disk])⟩
          have last : done.length + 1 = RADIX_LEVELS := by
            have full := length_digitsOf segmentId
            rw [leads.shape, List.length_append, List.length_singleton] at full
            exact full
          exact (reached_value shape'.branching leads.visited (edits.agreesBut leads shape')
            last).mp visited

/-! ### When an edit returns -/

structure Encodable (epoch : Nat) (node : RadixNode) : Prop where
  deep : node.depth < RADIX_LEVELS
  digits : ∀ digit ∈ node.entries, digit < RADIX_FANOUT
  pointers : ∀ digit value, node.entries.lookup digit = some value → value < 2 ^ 64
  early : epoch < 2 ^ 64

theorem Encodable.packs {node : RadixNode} (encodable : Encodable epoch node) :
    (packNode epoch node : Except StoreError (Block E)) = .ok (.node epoch node) := by
  cases packed : (packNode epoch node : Except StoreError (Block E)) with
  | ok block => rw [packNode_ok packed]
  | error error =>
      cases packNode_error encodable.deep encodable.pointers packed with
      | epoch large => exact absurd encodable.early (Nat.not_lt.mpr large)
      | digit held large => exact absurd (encodable.digits _ held) (Nat.not_lt.mpr large)

theorem Encodable.insert {node : RadixNode} (encodable : Encodable epoch node) {digit value : Nat}
    (small : digit < RADIX_FANOUT) (short : value < 2 ^ 64) :
    Encodable epoch ⟨node.depth, node.entries.insert digit value⟩ where
  deep := encodable.deep
  digits := by
    intro other member
    rcases (AList.mem_insert _).mp member with rfl | listed
    · exact small
    · exact encodable.digits other listed
  pointers := by
    intro other found held
    rw [lookup_insert] at held
    split at held
    · exact Option.some.inj held ▸ short
    · exact encodable.pointers other found held
  early := encodable.early

theorem Encodable.blank {depth : Nat} (deep : depth < RADIX_LEVELS) (early : epoch < 2 ^ 64) :
    Encodable epoch ⟨depth, ∅⟩ :=
  ⟨deep, fun _ member => by simp at member, fun _ _ held => by simp at held, early⟩

theorem freshNodes_encodable {segmentBase depth : Nat} {digits : List Nat}
    (inside : frontier + RADIX_NODE_COPIES * digits.length ≤ 2 ^ 64)
    (short : segmentBase < 2 ^ 64) (deep : depth + digits.length ≤ RADIX_LEVELS)
    (small : ∀ digit ∈ digits, digit < RADIX_FANOUT) (early : epoch < 2 ^ 64) :
    ∀ item ∈ freshNodes segmentBase frontier depth digits, Encodable epoch item.2 := by
  induction digits generalizing frontier depth with
  | nil =>
      intro item member
      cases member
  | cons digit digits ih =>
      rw [List.length_cons] at inside deep
      intro item member
      rcases List.mem_cons.mp member with rfl | later
      · refine (Encodable.blank (by omega) early).insert (small digit List.mem_cons_self) ?_
        split
        · exact short
        · rename_i some_
          have long := List.length_pos_iff.mpr some_
          rw [RADIX_NODE_COPIES] at inside ⊢
          omega
      · refine ih ?_ (by omega) (fun other listed => small other (List.mem_cons_of_mem digit listed))
          item later
        rw [RADIX_NODE_COPIES] at inside ⊢
        omega

theorem writeNewNode_total {node : RadixNode} (encodable : Encodable epoch node) (nodeBase : Nat)
    (before : World E) : Outcome (writeNewNode nodeBase epoch node) before (fun _ _ => True)
      fun _ _ => False := by
  unfold writeNewNode
  exact Outcome.ofResult_bind encodable.packs (Outcome.of_ok rfl trivial)

theorem writeExistingNode_total {node : RadixNode} (encodable : Encodable epoch node)
    (nodeBase committedEpoch : Nat) (slot : Bool) (before : World E) :
    Outcome (writeExistingNode nodeBase committedEpoch epoch node (some slot)) before
      (fun _ _ => True) fun _ _ => False := by
  unfold writeExistingNode
  refine Outcome.get_bind ?_
  have packs := encodable.packs (E := E)
  cases known : before.handle.nodeSlots.lookup nodeBase with
  | none => exact Outcome.ok_bind rfl (Outcome.ofResult_bind packs (Outcome.of_ok rfl trivial))
  | some slot' => exact Outcome.ok_bind rfl (Outcome.ofResult_bind packs (Outcome.of_ok rfl trivial))

theorem layPath_total {segmentId segmentBase committedEpoch : Nat} {edge : MissingEdge}
    (fresh : ∀ item ∈ freshNodes segmentBase frontier (edge.depth + 1) edge.below,
      Encodable epoch item.2)
    (leading : Encodable epoch ⟨edge.depth, edge.node.entries.insert edge.digit
      (if edge.below = [] then segmentBase else frontier)⟩) (before : World E) :
    Outcome (layPath segmentId segmentBase committedEpoch epoch frontier edge) before
      (fun _ _ => True) fun _ _ => False := by
  unfold layPath
  have laid := @Outcome.forM _ _ _ (fun item : Nat × RadixNode => writeNewNode item.1 epoch item.2) _
    (fun rest _ => ∀ item ∈ rest, Encodable epoch item.2)
    (freshNodes segmentBase frontier (edge.depth + 1) edge.below) before fresh
    fun item rest state left => Outcome.mono
      (writeNewNode_total (left item List.mem_cons_self) item.1 state)
      (fun _ _ _ other listed => left other (List.mem_cons_of_mem item listed))
      fun _ _ never => never
  refine Outcome.bind laid fun _ middle _ => ?_
  refine Outcome.bind (writeExistingNode_total leading edge.nodeBase committedEpoch edge.slot middle)
    fun _ after _ => Outcome.of_ok rfl trivial

/-- Every node that a reader comes to has digits of a byte. -/
def Bytes (view : View) : Prop :=
  ∀ path nodeBase node slot, Visits view path nodeBase → view nodeBase = .ok (node, slot) →
    ∀ digit ∈ node.entries, digit < RADIX_FANOUT

theorem Staged.unmap_returns (staged : Staged start epoch frontier0 world)
    (at_ : world.handle.frontier = some frontier) (bounded : frontier ≤ 2 ^ 64) {segmentId : Nat}
    (named : segmentId < 2 ^ LOGICAL_SEGMENT_BITS)
    (mapped : find (pending world epoch) (digitsOf segmentId) ≠ none)
    (bytes : Bytes (pending world epoch)) (early : epoch + 1 < 2 ^ 64) :
    ∃ base after, stageUnmap segmentId epoch (epoch + 1) world = .ok base after := by
  have outcome := staged.unmap_trail at_ segmentId
  unfold Outcome at outcome
  cases ran : stageUnmap segmentId epoch (epoch + 1) world with
  | ok base after => exact ⟨base, after, rfl⟩
  | error error after =>
      rw [ran] at outcome
      obtain ⟨path, nodeBase, node, slot, visited, seen, limit⟩ := outcome.2 bounded named mapped
      cases limit with
      | epoch large => exact absurd early (Nat.not_lt.mpr large)
      | digit held large =>
          exact absurd (bytes path nodeBase node slot visited seen _ held) (Nat.not_lt.mpr large)

theorem digitsOf_small {segmentId digit : Nat} (member : digit ∈ digitsOf segmentId) :
    digit < RADIX_FANOUT := by
  obtain ⟨level, _, rfl⟩ := List.mem_map.mp member
  exact Nat.mod_lt _ (Nat.succ_pos _)

/-- A segment that is not mapped yet, or mapped there already, can be mapped where there is room for
its path. -/
theorem Staged.map_returns (staged : Staged start epoch frontier0 world)
    (at_ : world.handle.frontier = some frontier)
    (room : frontier + RADIX_NODE_COPIES * RADIX_LEVELS ≤ 2 ^ 64) {segmentId segmentBase : Nat}
    (short : segmentBase < 2 ^ 64) (named : segmentId < 2 ^ LOGICAL_SEGMENT_BITS)
    (new : ∀ base, find (pending world epoch) (digitsOf segmentId) = some base → base = segmentBase)
    (bytes : Bytes (pending world epoch)) (early : epoch + 1 < 2 ^ 64) :
    ∃ after, stageMappingToBase segmentId segmentBase epoch (epoch + 1) world = .ok ⟨⟩ after := by
  have total : Outcome (stageMappingToBase segmentId segmentBase epoch (epoch + 1)) world
      (fun _ _ => True) fun _ _ => False := by
    unfold stageMappingToBase
    refine Outcome.bind (Outcome.mono (staged.resolve segmentId) (fun _ _ found => found)
      fun _ _ refused => Nat.not_lt.mpr refused.1 named) ?_
    rintro found middle ⟨_, same, staged', segmentCache, rfl⟩
    cases found with
    | some base => exact Outcome.if_neg (not_not.mpr (new base same.symm)) (Outcome.of_ok rfl trivial)
    | none =>
        have shape' : Shape (pending world epoch) frontier := staged.shape at_
        refine Outcome.get_bind ?_
        simp only [at_]
        refine Outcome.ofResult_bind (radixDigits_ok named) ?_
        have search := @missingEdge_spec _ _ [] (digitsOf segmentId) _ shape' rfl (by simp)
          (digitsOf_ne_nil segmentId)
        rw [List.length_nil, List.nil_append] at search
        cases found : missingEdge (pending world epoch) 0 (digitsOf segmentId)
            ROOT_NODE_BASE_PAGE with
        | error error =>
            rw [found] at search
            exact absurd same.symm search
        | ok edge =>
            rw [found] at search
            obtain ⟨done, misses⟩ := search
            refine Outcome.ofResult_bind found ?_
            have whole := length_digitsOf segmentId
            rw [misses.shape, List.length_append, List.length_cons] at whole
            have digits : ∀ digit ∈ edge.digit :: edge.below, digit < RADIX_FANOUT :=
              fun digit member => digitsOf_small (misses.shape ▸ List.mem_append_right done member)
            have inside : frontier + RADIX_NODE_COPIES * edge.below.length ≤ 2 ^ 64 := by
              rw [RADIX_NODE_COPIES] at room ⊢
              omega
            have fresh := @freshNodes_encodable _ _ _ (edge.depth + 1) _ inside short
              (by rw [misses.depth]; omega)
              (fun digit member => digits digit (List.mem_cons_of_mem edge.digit member)) early
            have leading : Encodable (epoch + 1) ⟨edge.depth, edge.node.entries.insert edge.digit
                (if edge.below = [] then segmentBase else frontier)⟩ := by
              have old : Encodable (epoch + 1) ⟨edge.depth, edge.node.entries⟩ :=
                ⟨by rw [misses.depth]; exact misses.visited.1,
                  bytes done edge.nodeBase edge.node edge.slot misses.visited misses.seen,
                  fun digit value held => shape'.pointer (by omega) misses.visited misses.seen held,
                  early⟩
              refine old.insert (digits edge.digit List.mem_cons_self) ?_
              split
              · exact short
              · rw [RADIX_NODE_COPIES, RADIX_LEVELS] at room
                omega
            refine Outcome.if_neg ?_ ?_
            · rw [MAX_PHYSICAL_PAGE_ID]
              omega
            by_cases longer : frontier < frontier + RADIX_NODE_COPIES * edge.below.length
            · refine Outcome.if_pos longer (Outcome.ok_bind rfl ?_)
              exact layPath_total fresh leading _
            · exact Outcome.if_neg longer (layPath_total fresh leading _)
  obtain ⟨_, after, ran, _⟩ := total.total
  exact ⟨after, ran⟩

end Stage

end RadixMap
end DurableContext
