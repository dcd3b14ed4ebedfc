import DurableContext.Storage.RadixTree

/-! What the writes of single nodes and of new paths do to the file and to the handle. -/

namespace DurableContext.RadixMap

open Program Trie

variable {E : Type}

/-! ### Writes -/

def committed (disk : Disk (Block E)) (epoch : Nat) : View := fun nodeBase =>
  readNode disk nodeBase epoch

theorem copiesAt_congr {α : Type} (decode : Block E → DualCopy.Copy α) {disk other : Disk (Block E)}
    {base : Nat} (first : other.pread base = disk.pread base)
    (second : other.pread (base + 1) = disk.pread (base + 1)) :
    copiesAt decode other base = copiesAt decode disk base := by
  funext slot
  cases slot with
  | false => exact congrArg decode first
  | true => exact congrArg decode second

theorem copiesAt_pwrite {α : Type} (decode : Block E → DualCopy.Copy α) (disk : Disk (Block E))
    (base : Nat) (slot : Bool) (block : Block E) :
    copiesAt decode (disk.pwrite (base + slot.toNat) block) base =
      Function.update (copiesAt decode disk base) slot (decode block) := by
  funext other
  cases slot <;> cases other <;> simp [copiesAt]

theorem readNode_congr {disk other : Disk (Block E)} {nodeBase : Nat}
    (first : other.pread nodeBase = disk.pread nodeBase)
    (second : other.pread (nodeBase + 1) = disk.pread (nodeBase + 1)) (epoch : Nat) :
    readNode other nodeBase epoch = readNode disk nodeBase epoch := by
  rw [readNode, readNode, copiesAt_congr _ first second]

theorem readNode_ok {disk : Disk (Block E)} {nodeBase epoch : Nat} {node : RadixNode} {slot : Bool} :
    readNode disk nodeBase epoch = .ok (node, slot) ↔
      ∃ tag, DualCopy.select epoch (copiesAt Block.asNode disk nodeBase) = some (slot, tag, node) := by
  rw [readNode]
  cases DualCopy.select epoch (copiesAt Block.asNode disk nodeBase) with
  | none => simp
  | some chosen =>
      obtain ⟨slot', tag, node'⟩ := chosen
      simp only [Except.ok.injEq, Prod.mk.injEq, Option.some.injEq]
      constructor
      · intro same
        exact ⟨tag, same.2, rfl, same.1⟩
      · intro found
        obtain ⟨tag', same, _, same'⟩ := found
        exact ⟨same', same⟩

theorem readNode_alternate {disk : Disk (Block E)} {nodeBase epoch : Nat} {node : RadixNode}
    {slot : Bool} (read : readNode disk nodeBase epoch = .ok (node, slot)) (newEpoch : Nat)
    (young : epoch < newEpoch) (new : RadixNode) :
    readNode (disk.pwrite (nodeBase + (!slot).toNat) (.node newEpoch new)) nodeBase epoch =
      .ok (node, slot) := by
  obtain ⟨tag, selected⟩ := readNode_ok.mp read
  refine readNode_ok.mpr ⟨tag, ?_⟩
  rw [copiesAt_pwrite]
  refine DualCopy.select_update_other selected _ fun found same => ?_
  cases same
  exact young

/-- One node written: to a copy on the disk, and to what the handle remembers. -/
structure Wrote (before after : World E) (nodeBase : Nat) (slot : Bool) (epoch : Nat)
    (node : RadixNode) : Prop where
  disk : after.disk = before.disk.pwrite (nodeBase + slot.toNat) (.node epoch node)
  nodes : ∀ other, after.handle.nodes.lookup other =
    if other = nodeBase then some node else before.handle.nodes.lookup other
  nodeSlots : ∀ other, after.handle.nodeSlots.lookup other =
    if other = nodeBase then some slot else before.handle.nodeSlots.lookup other
  frontier : after.handle.frontier = before.handle.frontier
  segments : after.handle.segments = before.handle.segments
  segmentCache : after.handle.segmentCache = before.handle.segmentCache

theorem packNode_ok {epoch : Nat} {node : RadixNode} {block : Block E}
    (packed : packNode epoch node = .ok block) : block = .node epoch node := by
  unfold packNode at packed
  split at packed
  · cases packed
  · split at packed
    · split at packed <;> cases packed
    · split at packed
      · cases packed
      · cases packed
        rfl

theorem lookup_insert {ν : Type} (dict : Dict ν) (key : Nat) (value : ν) (other : Nat) :
    (dict.insert key value).lookup other = if other = key then some value else dict.lookup other := by
  by_cases same : other = key
  · rw [if_pos same, same, AList.lookup_insert]
  · rw [if_neg same, AList.lookup_insert_ne same]

theorem writeNewNode_outcome (before : World E) (nodeBase newEpoch : Nat) (node : RadixNode) :
    Outcome (writeNewNode nodeBase newEpoch node) before
      (fun _ after => Wrote before after nodeBase false newEpoch node)
      (fun _ after => after.disk = before.disk) := by
  unfold writeNewNode
  cases packed : packNode (E := E) newEpoch node with
  | error error => exact Outcome.of_error (bind_of_error (ofResult_error error before)) rfl
  | ok block =>
      rw [packNode_ok packed]
      exact ⟨rfl, lookup_insert _ _ _, lookup_insert _ _ _, rfl, rfl, rfl⟩

/-- The slot of the copy that a write to an existing node replaces. -/
def target (world : World E) (nodeBase : Nat) (slot : Bool) : Bool :=
  if (world.handle.nodes.lookup nodeBase).isSome then slot else !slot

theorem writeExistingNode_outcome {before : World E} {nodeBase committedEpoch : Nat}
    {old : RadixNode} {slot : Bool} (newEpoch : Nat) (node : RadixNode)
    (seen : nodeForPendingWrite before committedEpoch nodeBase = .ok (old, slot))
    (unwritten : before.handle.nodes.lookup nodeBase = none →
      before.handle.nodeSlots.lookup nodeBase = none) :
    Outcome (writeExistingNode nodeBase committedEpoch newEpoch node (some slot)) before
      (fun _ after => Wrote before after nodeBase (target before nodeBase slot) newEpoch node)
      (fun _ after => after.disk = before.disk) := by
  unfold nodeForPendingWrite at seen
  unfold writeExistingNode target
  rw [Outcome, bind_of_ok (get_run _)]
  cases held : before.handle.nodes.lookup nodeBase with
  | none =>
      rw [unwritten held]
      cases packed : packNode (E := E) newEpoch node with
      | error error => rfl
      | ok block =>
          rw [packNode_ok packed]
          exact ⟨rfl, lookup_insert _ _ _, lookup_insert _ _ _, rfl, rfl, rfl⟩
  | some current =>
      rw [held] at seen
      cases known : before.handle.nodeSlots.lookup nodeBase with
      | none =>
          rw [known] at seen
          cases seen
      | some slot' =>
          rw [known] at seen
          cases seen
          cases packed : packNode (E := E) newEpoch node with
          | error error => rfl
          | ok block =>
              rw [packNode_ok packed]
              refine ⟨rfl, lookup_insert _ _ _, fun other => ?_, rfl, rfl, rfl⟩
              by_cases same : other = nodeBase
              · rw [if_pos same, same]
                exact known
              · exact (if_neg same).symm

/-- New nodes written one after the other, each to its first page. -/
structure Lays (before after : World E) (epoch : Nat) (fresh : List (Nat × RadixNode)) : Prop where
  written : ∀ item ∈ fresh, after.handle.nodes.lookup item.1 = some item.2 ∧
    after.handle.nodeSlots.lookup item.1 = some false ∧
    after.disk.pread item.1 = .node epoch item.2
  nodes : ∀ other, other ∉ fresh.map Prod.fst →
    after.handle.nodes.lookup other = before.handle.nodes.lookup other
  nodeSlots : ∀ other, other ∉ fresh.map Prod.fst →
    after.handle.nodeSlots.lookup other = before.handle.nodeSlots.lookup other
  pages : ∀ page, page ∉ fresh.map Prod.fst → after.disk.pread page = before.disk.pread page
  frontier : after.handle.frontier = before.handle.frontier
  segments : after.handle.segments = before.handle.segments
  segmentCache : after.handle.segmentCache = before.handle.segmentCache

theorem Wrote.lays {before middle after : World E} {epoch : Nat} {item : Nat × RadixNode}
    {fresh : List (Nat × RadixNode)} (wrote : Wrote before middle item.1 false epoch item.2)
    (lays : Lays middle after epoch fresh) (new : item.1 ∉ fresh.map Prod.fst) :
    Lays before after epoch (item :: fresh) where
  written := by
    intro other member
    rcases List.mem_cons.mp member with rfl | member
    · refine ⟨?_, ?_, ?_⟩
      · rw [lays.nodes _ new, wrote.nodes, if_pos rfl]
      · rw [lays.nodeSlots _ new, wrote.nodeSlots, if_pos rfl]
      · rw [lays.pages _ new, wrote.disk]
        exact if_pos rfl
    · exact lays.written other member
  nodes := by
    intro other apart
    rw [List.map_cons, List.mem_cons, not_or] at apart
    rw [lays.nodes _ apart.2, wrote.nodes, if_neg apart.1]
  nodeSlots := by
    intro other apart
    rw [List.map_cons, List.mem_cons, not_or] at apart
    rw [lays.nodeSlots _ apart.2, wrote.nodeSlots, if_neg apart.1]
  pages := by
    intro page apart
    rw [List.map_cons, List.mem_cons, not_or] at apart
    rw [lays.pages _ apart.2, wrote.disk]
    exact if_neg apart.1
  frontier := lays.frontier.trans wrote.frontier
  segments := lays.segments.trans wrote.segments
  segmentCache := lays.segmentCache.trans wrote.segmentCache

theorem writeNewNodes_outcome (newEpoch start : Nat) (fresh : List (Nat × RadixNode))
    (distinct : (fresh.map Prod.fst).Nodup) (above : ∀ item ∈ fresh, start ≤ item.1)
    (before : World E) :
    Outcome (fresh.forM fun (nodeBase, node) => writeNewNode nodeBase newEpoch node) before
      (fun _ after => Lays before after newEpoch fresh)
      (fun _ after => ∀ page < start, after.disk.pread page = before.disk.pread page) := by
  induction fresh generalizing before with
  | nil =>
      refine Outcome.of_ok (pure_run _ _) ⟨?_, ?_, ?_, ?_, rfl, rfl, rfl⟩
      · intro item member
        cases member
      · exact fun _ _ => rfl
      · exact fun _ _ => rfl
      · exact fun _ _ => rfl
  | cons item fresh ih =>
      rw [List.map_cons, List.nodup_cons] at distinct
      have first : Outcome (writeNewNode item.1 newEpoch item.2) before
          (fun _ middle => Wrote before middle item.1 false newEpoch item.2)
          (fun _ after => ∀ page < start, after.disk.pread page = before.disk.pread page) :=
        Outcome.mono (writeNewNode_outcome before item.1 newEpoch item.2)
          (fun _ _ wrote => wrote) fun _ after same page _ => by rw [same]
      refine Outcome.bind first fun _ middle wrote => ?_
      have rest := ih distinct.2 (fun item member => above item (List.mem_cons_of_mem _ member))
        middle
      refine Outcome.mono rest (fun _ after lays => wrote.lays lays distinct.1) ?_
      intro _ after same page short
      have apart : page ≠ item.1 + false.toNat := by
        have there := above item List.mem_cons_self
        rw [Bool.toNat_false]
        omega
      rw [same page short, wrote.disk]
      exact if_neg apart

/-! ### New paths -/

section Fresh

variable {segmentBase : Nat}

theorem mem_freshNodes {digits : List Nat} {frontier depth : Nat} {item : Nat × RadixNode}
    (member : item ∈ freshNodes segmentBase frontier depth digits) :
    ∃ index < digits.length, item.1 = frontier + RADIX_NODE_COPIES * index ∧
      item.2.depth = depth + index := by
  induction digits generalizing frontier depth with
  | nil => cases member
  | cons digit digits ih =>
      rcases List.mem_cons.mp member with rfl | later
      · exact ⟨0, Nat.succ_pos _, rfl, rfl⟩
      · obtain ⟨index, inside, at_, deep⟩ := ih later
        refine ⟨index + 1, Nat.succ_lt_succ inside, ?_, ?_⟩
        · rw [at_, RADIX_NODE_COPIES]
          omega
        · rw [deep]
          omega

theorem freshNodes_bases (frontier depth : Nat) (digits : List Nat) :
    (freshNodes segmentBase frontier depth digits).map Prod.fst =
      (List.range digits.length).map fun index => frontier + RADIX_NODE_COPIES * index := by
  induction digits generalizing frontier depth with
  | nil => rfl
  | cons digit digits ih =>
      rw [freshNodes, List.map_cons, ih, List.length_cons, List.range_succ_eq_map, List.map_cons,
        List.map_map]
      refine congrArg (List.cons _) (List.map_congr_left fun index _ => ?_)
      simp only [Function.comp_apply, RADIX_NODE_COPIES]
      omega

theorem freshNodes_nodup (segmentBase frontier depth : Nat) (digits : List Nat) :
    ((freshNodes segmentBase frontier depth digits).map Prod.fst).Nodup := by
  rw [freshNodes_bases]
  refine List.nodup_range.map fun index other same => ?_
  simp only [RADIX_NODE_COPIES] at same
  omega

theorem freshNodes_laid {view : View} {digits : List Nat} {frontier depth : Nat}
    (seen : ∀ item ∈ freshNodes segmentBase frontier depth digits,
      view item.1 = .ok (item.2, false)) :
    Trie.Laid (edges view) ((freshNodes segmentBase frontier depth digits).map Prod.fst) digits
      segmentBase := by
  induction digits generalizing frontier depth with
  | nil => trivial
  | cons digit digits ih =>
      refine ⟨fun edge => ?_, ih fun item member => seen item (List.mem_cons_of_mem _ member)⟩
      rw [edges_ok (seen _ List.mem_cons_self), lookup_insert, AList.lookup_empty]
      cases digits <;> rfl

end Fresh

end DurableContext.RadixMap
