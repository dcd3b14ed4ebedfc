import DurableContext.Storage.RadixWrites

/-! The state of a transaction over a committed radix map, and the edits that keep it: each changes
what the transaction resolves at the segment it names, and nothing that a committed reader reads. -/

namespace DurableContext.RadixMap

open Program Trie

variable {E : Type}

/-! ### Transactions -/

/-- The nodes as the transaction of a handle has them. -/
def pending (world : World E) (epoch : Nat) : View := nodeForPendingWrite world epoch

theorem pending_some {world : World E} {nodeBase : Nat} {node : RadixNode} {slot : Bool}
    (held : world.handle.nodes.lookup nodeBase = some node)
    (known : world.handle.nodeSlots.lookup nodeBase = some slot) (epoch : Nat) :
    pending world epoch nodeBase = .ok (node, slot) := by
  rw [pending, nodeForPendingWrite, held]
  simp only [known]

theorem pending_none {world : World E} {nodeBase : Nat}
    (absent : world.handle.nodes.lookup nodeBase = none) (epoch : Nat) :
    pending world epoch nodeBase = committed world.disk epoch nodeBase := by
  rw [pending, nodeForPendingWrite, absent]
  rfl

/-- The state of a transaction over a committed file: what it has staged lies in the second copies
of committed nodes and in new nodes past the committed frontier. -/
structure Staged (start : Disk (Block E)) (epoch frontier0 : Nat) (world : World E) : Prop where
  frontier : ∃ frontier, world.handle.frontier = some frontier ∧ frontier0 ≤ frontier ∧
    Shape (pending world epoch) frontier
  old : ∀ path nodeBase, Visits (committed start epoch) path nodeBase →
    Visits (pending world epoch) path nodeBase
  new : ∀ path nodeBase, Visits (pending world epoch) path nodeBase →
    Visits (committed start epoch) path nodeBase ∨
      frontier0 ≤ nodeBase ∧ world.handle.nodes.lookup nodeBase ≠ none
  kept : ∀ path nodeBase, Visits (committed start epoch) path nodeBase →
    readNode world.disk nodeBase epoch = readNode start nodeBase epoch
  untouched : ∀ path nodeBase, Visits (committed start epoch) path nodeBase →
    world.handle.nodes.lookup nodeBase = none →
      ∀ slot : Bool, world.disk.pread (nodeBase + slot.toNat) = start.pread (nodeBase + slot.toNat)
  written : ∀ nodeBase node, world.handle.nodes.lookup nodeBase = some node →
    (∃ path, Visits (pending world epoch) path nodeBase) ∧
      ∃ slot, world.handle.nodeSlots.lookup nodeBase = some slot ∧
        world.disk.pread (nodeBase + slot.toNat) = .node (epoch + 1) node ∧
        (frontier0 ≤ nodeBase → slot = false) ∧
        ∀ path, Visits (committed start epoch) path nodeBase →
          ∃ committedNode, readNode start nodeBase epoch = .ok (committedNode, !slot)
  unwritten : ∀ nodeBase, world.handle.nodes.lookup nodeBase = none →
    world.handle.nodeSlots.lookup nodeBase = none
  segments : ∀ segmentId base, world.handle.segments.lookup segmentId = some base →
    segmentId < 2 ^ LOGICAL_SEGMENT_BITS ∧
      find (pending world epoch) (digitsOf segmentId) = some base
  cached : world.handle.nodes.keys.isEmpty = true → ∀ segmentId found,
    world.handle.segmentCache.lookup (epoch, segmentId) = some found →
      segmentId < 2 ^ LOGICAL_SEGMENT_BITS ∧
        find (pending world epoch) (digitsOf segmentId) = found

theorem Staged.of_reset {start : Disk (Block E)} {epoch frontier0 : Nat}
    (shape : Shape (committed start epoch) frontier0) (log : List (Effect (Block E))) :
    Staged start epoch frontier0 ⟨start, log, { Handle.reset with frontier := some frontier0 }⟩ where
  frontier := ⟨frontier0, rfl, le_rfl, shape⟩
  old := fun _ _ visits => visits
  new := fun _ _ visits => Or.inl visits
  kept := fun _ _ _ => rfl
  untouched := fun _ _ _ _ _ => rfl
  written := fun _ _ held => by cases held
  unwritten := fun _ _ => rfl
  segments := fun _ _ held => by cases held
  cached := fun _ _ _ held => by cases held

/-- What a transaction resolves depends on its nodes alone. -/
theorem Staged.of_cache {start : Disk (Block E)} {epoch frontier0 : Nat} {world : World E}
    (staged : Staged start epoch frontier0 world)
    (segmentCache : AList fun _ : Nat × Nat => Option Nat)
    (cached : world.handle.nodes.keys.isEmpty = true → ∀ segmentId found,
      segmentCache.lookup (epoch, segmentId) = some found →
        segmentId < 2 ^ LOGICAL_SEGMENT_BITS ∧
          find (pending world epoch) (digitsOf segmentId) = found) :
    Staged start epoch frontier0 { world with handle := { world.handle with segmentCache } } where
  frontier := staged.frontier
  old := staged.old
  new := staged.new
  kept := staged.kept
  untouched := staged.untouched
  written := staged.written
  unwritten := staged.unwritten
  segments := staged.segments
  cached := cached

theorem radixDigits_eq_ok {segmentId : Nat} {digits : List Nat}
    (named : radixDigits segmentId = .ok digits) :
    segmentId < 2 ^ LOGICAL_SEGMENT_BITS ∧ digits = digitsOf segmentId := by
  unfold radixDigits at named
  split at named
  · cases named
  · next inside =>
      cases named
      exact ⟨Nat.not_le.mp inside, rfl⟩

theorem digitsOf_ne_nil (segmentId : Nat) : digitsOf segmentId ≠ [] := by
  intro empty
  have length := length_digitsOf segmentId
  rw [empty] at length
  cases length

/-- The walk of `_resolve_segment` in a well-formed map. -/
theorem Shape.walk_root {view : View} {frontier : Nat} (shape : Shape view frontier)
    (segmentId : Nat) : walk view 0 (digitsOf segmentId) ROOT_NODE_BASE_PAGE =
      .ok (find view (digitsOf segmentId)) :=
  @walk_eq view frontier [] _ _ shape rfl (by simp) (digitsOf_ne_nil segmentId)

/-- A handle resolves a segment by the nodes of its transaction, whatever it has cached. -/
theorem Staged.resolve {start : Disk (Block E)} {epoch frontier0 : Nat} {world : World E}
    (staged : Staged start epoch frontier0 world) (segmentId : Nat) :
    Outcome (resolveSegment segmentId epoch) world
      (fun found after => segmentId < 2 ^ LOGICAL_SEGMENT_BITS ∧
        found = find (pending world epoch) (digitsOf segmentId) ∧
        Staged start epoch frontier0 after ∧
        ∃ segmentCache, after = { world with handle := { world.handle with segmentCache } })
      (fun _ after => 2 ^ LOGICAL_SEGMENT_BITS ≤ segmentId ∧ after = world) := by
  obtain ⟨frontier, _, _, shape⟩ := staged.frontier
  rw [resolveSegment, Outcome, bind_of_ok (get_run _)]
  cases held : world.handle.segments.lookup segmentId with
  | some base =>
      obtain ⟨named, found⟩ := staged.segments segmentId base held
      exact ⟨named, found.symm, staged, world.handle.segmentCache, rfl⟩
  | none =>
      simp only
      have walked : Outcome (do
          let digits ← ofResult (radixDigits segmentId)
          let found ← ofResult (walk (nodeForPendingWrite world epoch) 0 digits
            ROOT_NODE_BASE_PAGE)
          if world.handle.nodes.keys.isEmpty then
            changeHandle fun handle => { handle with
              segmentCache := handle.segmentCache.insert (epoch, segmentId) found }
          pure found) world
          (fun found after => segmentId < 2 ^ LOGICAL_SEGMENT_BITS ∧
            found = find (pending world epoch) (digitsOf segmentId) ∧
            Staged start epoch frontier0 after ∧
            ∃ segmentCache, after = { world with handle := { world.handle with segmentCache } })
          (fun _ after => 2 ^ LOGICAL_SEGMENT_BITS ≤ segmentId ∧ after = world) := by
        cases named : radixDigits segmentId with
        | error error =>
            refine Outcome.of_error (bind_of_error (ofResult_error error world)) ⟨?_, rfl⟩
            by_contra inside
            rw [radixDigits_ok (Nat.lt_of_not_le inside)] at named
            cases named
        | ok digits =>
            obtain ⟨inside, rfl⟩ := radixDigits_eq_ok named
            have found := shape.walk_root segmentId
            rw [pending] at found
            rw [Outcome, bind_of_ok (ofResult_ok _ _), found, bind_of_ok (ofResult_ok _ _)]
            cases fresh : world.handle.nodes.keys.isEmpty with
            | false => exact ⟨inside, rfl, staged, world.handle.segmentCache, rfl⟩
            | true =>
                refine ⟨inside, rfl, staged.of_cache _ fun _ other value known => ?_, _, rfl⟩
                by_cases same : other = segmentId
                · rw [same, AList.lookup_insert, Option.some.injEq] at known
                  rw [same]
                  exact ⟨inside, known⟩
                · rw [AList.lookup_insert_ne fun equal => same (Prod.mk.inj equal).2] at known
                  exact staged.cached fresh other value known
      cases fresh : world.handle.nodes.keys.isEmpty with
      | false =>
          rw [fresh] at walked
          exact walked
      | true =>
          rw [fresh] at walked
          cases known : world.handle.segmentCache.lookup (epoch, segmentId) with
          | none => exact walked
          | some found =>
              obtain ⟨inside, here⟩ := staged.cached fresh segmentId found known
              exact ⟨inside, here.symm, staged, world.handle.segmentCache, rfl⟩

/-! ### One edit -/

/-- An edit: new nodes from the frontier on, and then a node that was there. -/
structure Edits (before after : World E) (epoch frontier : Nat) (nodeBase : Nat) (slot : Bool)
    (node : RadixNode) (fresh : List (Nat × RadixNode)) : Prop where
  parent : after.handle.nodes.lookup nodeBase = some node ∧
    after.handle.nodeSlots.lookup nodeBase = some slot
  laid : ∀ item ∈ fresh, frontier ≤ item.1 ∧ after.handle.nodes.lookup item.1 = some item.2 ∧
    after.handle.nodeSlots.lookup item.1 = some false ∧
    after.disk.pread item.1 = .node (epoch + 1) item.2
  nodes : ∀ other, other ≠ nodeBase → other ∉ fresh.map Prod.fst →
    after.handle.nodes.lookup other = before.handle.nodes.lookup other ∧
      after.handle.nodeSlots.lookup other = before.handle.nodeSlots.lookup other
  pages : ∀ page < frontier, after.disk.pread page =
    (before.disk.pwrite (nodeBase + slot.toNat) (.node (epoch + 1) node)).pread page

theorem slot_page (nodeBase : Nat) (slot : Bool) : nodeBase + slot.toNat = nodeBase ∨
    nodeBase + slot.toNat = nodeBase + 1 := by
  cases slot
  · exact Or.inl rfl
  · exact Or.inr rfl

section Edit

variable {start : Disk (Block E)} {epoch frontier0 frontier : Nat} {before after : World E}
  {nodeBase : Nat} {slot : Bool} {old node : RadixNode} {fresh : List (Nat × RadixNode)}
  {done : List Nat}

theorem Edits.page (edits : Edits before after epoch frontier nodeBase slot node fresh)
    {other : Nat} (apart : other + 2 ≤ nodeBase ∨ nodeBase + 2 ≤ other) (low : other + 2 ≤ frontier)
    (slot' : Bool) : after.disk.pread (other + slot'.toNat) =
      before.disk.pread (other + slot'.toNat) := by
  have short : other + slot'.toNat < frontier := by
    rcases slot_page other slot' with same | same <;> omega
  rw [edits.pages _ short]
  refine if_neg ?_
  rcases slot_page other slot' with same | same <;>
    rcases slot_page nodeBase slot with same' | same' <;> omega

/-- The slot that an edit of a node writes is not the one a committed reader takes. -/
theorem Staged.target_spec (staged : Staged start epoch frontier0 before)
    (shape : Shape (committed start epoch) frontier0)
    (visits : Visits (pending before epoch) done nodeBase)
    (seen : pending before epoch nodeBase = .ok (old, slot)) :
    (frontier0 ≤ nodeBase → target before nodeBase slot = false) ∧
      ∀ path, Visits (committed start epoch) path nodeBase →
        ∃ committedNode, readNode start nodeBase epoch =
          .ok (committedNode, !target before nodeBase slot) := by
  rw [target]
  cases held : before.handle.nodes.lookup nodeBase with
  | some current =>
      obtain ⟨_, slot', known, _, first, second⟩ := staged.written nodeBase current held
      have same := (pending_some held known epoch).symm.trans seen
      rw [Except.ok.injEq, Prod.mk.injEq] at same
      rw [Option.isSome_some, if_pos rfl, ← same.2]
      exact ⟨first, second⟩
  | none =>
      rw [Option.isSome_none, if_neg Bool.false_ne_true, Bool.not_not]
      rcases staged.new done nodeBase visits with old_ | ⟨_, pending_⟩
      · constructor
        · intro high
          have low := shape.below done nodeBase old_
          rw [RADIX_NODE_COPIES] at low
          omega
        · intro path visited
          rw [pending_none held, committed, staged.kept path nodeBase visited] at seen
          exact ⟨old, seen⟩
      · exact absurd held pending_

theorem Edits.mem_fresh (edits : Edits before after epoch frontier nodeBase slot node fresh)
    {now : Nat} (member : now ∈ fresh.map Prod.fst) :
    frontier ≤ now ∧ after.handle.nodes.lookup now ≠ none := by
  obtain ⟨item, listed, rfl⟩ := List.mem_map.mp member
  obtain ⟨high, held, _⟩ := edits.laid item listed
  exact ⟨high, by rw [held]; exact Option.some_ne_none _⟩

theorem Edits.not_fresh (edits : Edits before after epoch frontier nodeBase slot node fresh)
    {now : Nat} (short : now + 2 ≤ frontier) : now ∉ fresh.map Prod.fst := by
  intro member
  have high := (edits.mem_fresh member).1
  omega

/-- A node that is clean after an edit is neither the edited one nor a new one. -/
theorem Edits.clean (edits : Edits before after epoch frontier nodeBase slot node fresh) {now : Nat}
    (absent : after.handle.nodes.lookup now = none) :
    now ≠ nodeBase ∧ before.handle.nodes.lookup now = none ∧
      after.handle.nodeSlots.lookup now = before.handle.nodeSlots.lookup now := by
  have different : now ≠ nodeBase := by
    rintro rfl
    rw [edits.parent.1] at absent
    cases absent
  obtain ⟨same, slots⟩ := edits.nodes now different fun member => (edits.mem_fresh member).2 absent
  exact ⟨different, same ▸ absent, slots⟩

/-- A committed reader sees every node as it did, the edited one in its other copy. -/
theorem Staged.edit_kept (staged : Staged start epoch frontier0 before)
    (shape : Shape (committed start epoch) frontier0)
    (shape' : Shape (pending before epoch) frontier)
    (visits : Visits (pending before epoch) done nodeBase)
    (seen : pending before epoch nodeBase = .ok (old, slot))
    (edits : Edits before after epoch frontier nodeBase (target before nodeBase slot) node fresh)
    {path : List Nat} {now : Nat} (visited : Visits (committed start epoch) path now) :
    readNode after.disk now epoch = readNode start now epoch := by
  obtain ⟨_, second⟩ := staged.target_spec shape visits seen
  have low := shape'.below done nodeBase visits
  have before_ := staged.old path now visited
  rw [RADIX_NODE_COPIES] at low
  by_cases same : now = nodeBase
  · subst same
    obtain ⟨committedNode, read⟩ := second path visited
    have alternate := readNode_alternate ((staged.kept path now visited).trans read) (epoch + 1)
      (Nat.lt_succ_self epoch) node
    rw [Bool.not_not] at alternate
    rw [read, ← alternate]
    exact readNode_congr (edits.pages _ (by omega)) (edits.pages _ (by omega)) epoch
  · have short := shape'.below path now before_
    have apart := shape'.spaced _ _ _ _ before_ visits same
    rw [RADIX_NODE_COPIES] at short
    rw [← staged.kept path now visited]
    exact readNode_congr (edits.page apart short false) (edits.page apart short true) epoch

/-- What a dirty node has on the disk: its own new version in the slot the index notes for it, in
the copy that a committed reader does not take. -/
theorem Staged.edit_written (staged : Staged start epoch frontier0 before)
    (shape : Shape (committed start epoch) frontier0)
    (shape' : Shape (pending before epoch) frontier) (grown : frontier0 ≤ frontier)
    (visits : Visits (pending before epoch) done nodeBase)
    (seen : pending before epoch nodeBase = .ok (old, slot))
    (edits : Edits before after epoch frontier nodeBase (target before nodeBase slot) node fresh)
    (reached : ∀ path now, Visits (pending before epoch) path now →
      Visits (pending after epoch) path now)
    (linked : ∀ item ∈ fresh, ∃ path, Visits (pending after epoch) path item.1)
    {now : Nat} {current : RadixNode} (held : after.handle.nodes.lookup now = some current) :
    (∃ path, Visits (pending after epoch) path now) ∧
      ∃ slot, after.handle.nodeSlots.lookup now = some slot ∧
        after.disk.pread (now + slot.toNat) = .node (epoch + 1) current ∧
        (frontier0 ≤ now → slot = false) ∧
        ∀ path, Visits (committed start epoch) path now →
          ∃ committedNode, readNode start now epoch = .ok (committedNode, !slot) := by
  by_cases same : now = nodeBase
  · subst same
    obtain ⟨first, second⟩ := staged.target_spec shape visits seen
    have low := shape'.below done now visits
    rw [RADIX_NODE_COPIES] at low
    rw [edits.parent.1, Option.some.injEq] at held
    refine ⟨⟨done, reached done now visits⟩, _, edits.parent.2, ?_, first, second⟩
    have short : now + (target before now slot).toNat < frontier := by
      rcases slot_page now (target before now slot) with at_ | at_ <;> omega
    rw [edits.pages _ short, held]
    exact if_pos rfl
  · by_cases member : now ∈ fresh.map Prod.fst
    · obtain ⟨item, listed, rfl⟩ := List.mem_map.mp member
      obtain ⟨high, held', known, written⟩ := edits.laid item listed
      rw [held', Option.some.injEq] at held
      refine ⟨linked item listed, false, known, held ▸ written, fun _ => rfl, ?_⟩
      intro path visited
      have short := shape.below path item.1 visited
      rw [RADIX_NODE_COPIES] at short
      omega
    · obtain ⟨same', known'⟩ := edits.nodes now same member
      rw [same'] at held
      obtain ⟨⟨path, visited⟩, slot', known, written, rest⟩ := staged.written now current held
      have short := shape'.below path now visited
      have apart := shape'.spaced _ _ _ _ visited visits same
      rw [RADIX_NODE_COPIES] at short
      refine ⟨⟨path, reached path now visited⟩, slot', known'.trans known, ?_, rest⟩
      rw [edits.page apart short, written]

/-- An edit keeps the state of a transaction, once the edited map is known to be well formed. -/
theorem Staged.edit (staged : Staged start epoch frontier0 before)
    (shape : Shape (committed start epoch) frontier0)
    (shape' : Shape (pending before epoch) frontier) (grown : frontier0 ≤ frontier)
    (visits : Visits (pending before epoch) done nodeBase)
    (seen : pending before epoch nodeBase = .ok (old, slot))
    (edits : Edits before after epoch frontier nodeBase (target before nodeBase slot) node fresh)
    (edited : ∃ frontier, after.handle.frontier = some frontier ∧ frontier0 ≤ frontier ∧
      Shape (pending after epoch) frontier)
    (reached : ∀ path now, Visits (pending before epoch) path now →
      Visits (pending after epoch) path now)
    (joined : ∀ path now, Visits (pending after epoch) path now →
      Visits (pending before epoch) path now ∨ now ∈ fresh.map Prod.fst)
    (linked : ∀ item ∈ fresh, ∃ path, Visits (pending after epoch) path item.1)
    (segments : ∀ segmentId base, after.handle.segments.lookup segmentId = some base →
      segmentId < 2 ^ LOGICAL_SEGMENT_BITS ∧
        find (pending after epoch) (digitsOf segmentId) = some base) :
    Staged start epoch frontier0 after where
  frontier := edited
  old := fun path now visited => reached path now (staged.old path now visited)
  new := by
    intro path now visited
    rcases joined path now visited with before_ | member
    · rcases staged.new path now before_ with old_ | ⟨high, held⟩
      · exact Or.inl old_
      · exact Or.inr ⟨high, fun absent => held (edits.clean absent).2.1⟩
    · exact Or.inr ⟨grown.trans (edits.mem_fresh member).1, (edits.mem_fresh member).2⟩
  kept := fun _ _ visited => staged.edit_kept shape shape' visits seen edits visited
  untouched := by
    intro path now visited absent slot'
    have before_ := staged.old path now visited
    obtain ⟨different, absent', _⟩ := edits.clean absent
    have short := shape'.below path now before_
    rw [RADIX_NODE_COPIES] at short
    rw [edits.page (shape'.spaced _ _ _ _ before_ visits different) short,
      staged.untouched path now visited absent']
  written := fun _ _ held =>
    staged.edit_written shape shape' grown visits seen edits reached linked held
  unwritten := by
    intro now absent
    obtain ⟨_, absent', slots⟩ := edits.clean absent
    rw [slots]
    exact staged.unwritten now absent'
  segments := segments
  cached := by
    intro empty
    have nothing : after.handle.nodes.lookup nodeBase = none := by
      rw [AList.lookup_eq_none, AList.mem_keys, List.isEmpty_iff.mp empty]
      exact List.not_mem_nil
    exact absurd rfl (edits.clean nothing).1

theorem Edits.pending_other (edits : Edits before after epoch frontier nodeBase slot node fresh)
    (shape' : Shape (pending before epoch) frontier) (visits : Visits (pending before epoch) done nodeBase)
    {path : List Nat} {now : Nat} (visited : Visits (pending before epoch) path now)
    (different : now ≠ nodeBase) : pending after epoch now = pending before epoch now := by
  have short := shape'.below path now visited
  rw [RADIX_NODE_COPIES] at short
  have outside := edits.not_fresh short
  have apart := shape'.spaced _ _ _ _ visited visits different
  obtain ⟨same, same'⟩ := edits.nodes now different outside
  cases held : before.handle.nodes.lookup now with
  | some current =>
      rw [pending, pending, nodeForPendingWrite, nodeForPendingWrite, same, same', held]
  | none =>
      rw [pending_none (same.trans held), pending_none held, committed, committed]
      exact readNode_congr (edits.page apart short false) (edits.page apart short true) epoch

variable {segmentBase : Nat}

theorem Edits.grafts {whole : List Nat} {edge : MissingEdge}
    (misses : Misses (pending before epoch) whole edge done)
    (full : whole.length = RADIX_LEVELS) (shape' : Shape (pending before epoch) frontier)
    (edits : Edits before after epoch frontier edge.nodeBase slot
      ⟨edge.depth, edge.node.entries.insert edge.digit
        (if edge.below = [] then segmentBase else frontier)⟩
      (freshNodes segmentBase frontier (edge.depth + 1) edge.below)) :
    Grafts (edges (pending before epoch)) (edges (pending after epoch)) ROOT_NODE_BASE_PAGE
      RADIX_LEVELS done edge.nodeBase edge.digit
      ((freshNodes segmentBase frontier (edge.depth + 1) edge.below).map Prod.fst) edge.below
      segmentBase where
  here := misses.visited
  missing := (edges_ok misses.seen edge.digit).trans misses.missing
  whole := by
    rw [misses.shape, List.length_append, List.length_cons] at full
    omega
  fresh := by
    intro now member path visited
    obtain ⟨item, listed, same⟩ := List.mem_map.mp member
    have high := (edits.laid item listed).1
    have low := shape'.below path now visited
    rw [RADIX_NODE_COPIES] at low
    omega
  distinct := freshNodes_nodup segmentBase frontier _ edge.below
  kept := by
    intro path now visited digit different
    by_cases same : now = edge.nodeBase
    · have other : digit ≠ edge.digit := fun equal => different ⟨same, equal⟩
      rw [same, edges_ok (pending_some edits.parent.1 edits.parent.2 epoch), edges_ok misses.seen,
        AList.lookup_insert_ne other]
    · rw [edges, edges, edits.pending_other shape' misses.visited visited same]
  edge := by
    rw [edges_ok (pending_some edits.parent.1 edits.parent.2 epoch), AList.lookup_insert]
    cases edge.below <;> rfl
  laid := freshNodes_laid fun item member =>
    pending_some (edits.laid item member).2.1 (edits.laid item member).2.2.1 epoch

theorem getElem?_freshNodes {depth index now : Nat} {digits : List Nat}
    (found : ((freshNodes segmentBase frontier depth digits).map Prod.fst)[index]? = some now) :
    index < digits.length ∧ now = frontier + RADIX_NODE_COPIES * index ∧
      ∃ item ∈ freshNodes segmentBase frontier depth digits, item.1 = now ∧
        item.2.depth = depth + index := by
  obtain ⟨item, listed, same⟩ := List.mem_map.mp (List.mem_of_getElem? found)
  obtain ⟨other, _, at_, deep⟩ := mem_freshNodes listed
  rw [freshNodes_bases, List.getElem?_map, Option.map_eq_some_iff] at found
  obtain ⟨number, found, value⟩ := found
  obtain ⟨inside, equal⟩ := List.getElem?_eq_some_iff.mp found
  rw [List.getElem_range] at equal
  rw [List.length_range] at inside
  refine ⟨inside, by rw [← value, equal], item, listed, same, ?_⟩
  rw [RADIX_NODE_COPIES] at value at_
  omega

/-- Where a segment may be put: below the frontier, off the nodes. -/
def Free (view : View) (frontier base : Nat) : Prop :=
  base + SEGMENT_DATA_PAGES ≤ frontier ∧ ∀ path nodeBase, Visits view path nodeBase →
    nodeBase + RADIX_NODE_COPIES ≤ base ∨ base + SEGMENT_DATA_PAGES ≤ nodeBase

theorem Edits.shape_grafted {whole : List Nat} {edge : MissingEdge}
    (misses : Misses (pending before epoch) whole edge done)
    (full : whole.length = RADIX_LEVELS) (shape' : Shape (pending before epoch) frontier)
    (free : Free (pending before epoch) frontier segmentBase)
    (edits : Edits before after epoch frontier edge.nodeBase slot
      ⟨edge.depth, edge.node.entries.insert edge.digit
        (if edge.below = [] then segmentBase else frontier)⟩
      (freshNodes segmentBase frontier (edge.depth + 1) edge.below)) :
    Shape (pending after epoch) (frontier + RADIX_NODE_COPIES * edge.below.length) := by
  have grafts := edits.grafts misses full shape'
  have joined : ∀ path now, Visits (pending after epoch) path now →
      Visits (pending before epoch) path now ∨ ∃ index < edge.below.length,
        now = frontier + RADIX_NODE_COPIES * index ∧
        ∃ item ∈ freshNodes segmentBase frontier (edge.depth + 1) edge.below,
          item.1 = now ∧ item.2.depth = path.length := by
    intro path now visited
    rcases (grafts.reached_iff shape'.branching).mp visited with old_ | ⟨more, _, same, found⟩
    · exact Or.inl old_
    · obtain ⟨inside, at_, item, listed, here, deep⟩ := getElem?_freshNodes found
      refine Or.inr ⟨more.length, inside, at_, item, listed, here, ?_⟩
      rw [deep, misses.depth, same, List.length_append, List.length_cons]
      omega
  have low := shape'.below
  simp only [RADIX_NODE_COPIES] at low joined ⊢
  constructor
  · intro path now visited
    rcases joined path now visited with before_ | ⟨_, _, _, item, listed, same, deep⟩
    · by_cases same : now = edge.nodeBase
      · refine ⟨_, _, same ▸ pending_some edits.parent.1 edits.parent.2 epoch, ?_⟩
        rw [shape'.branching path done edge.nodeBase (same ▸ before_) misses.visited]
        exact misses.depth
      · obtain ⟨current, slot', seen, deep⟩ := shape'.readable path now before_
        rw [edits.pending_other shape' misses.visited before_ same]
        exact ⟨current, slot', seen, deep⟩
    · have laid := edits.laid item listed
      exact ⟨item.2, false, same ▸ pending_some laid.2.1 laid.2.2.1 epoch, deep⟩
  · exact grafts.branching shape'.branching
  · intro path now visited
    rw [RADIX_NODE_COPIES]
    rcases joined path now visited with before_ | ⟨index, inside, at_, _⟩
    · have short := low path now before_
      omega
    · omega
  · intro path now path' now' visited visited' different
    rw [RADIX_NODE_COPIES]
    rcases joined path now visited with before_ | ⟨index, inside, at_, _⟩
    · rcases joined path' now' visited' with before' | ⟨index', inside', at', _⟩
      · exact shape'.spaced path now path' now' before_ before' different
      · have short := low path now before_
        omega
    · rcases joined path' now' visited' with before' | ⟨index', inside', at', _⟩
      · have short := low path' now' before'
        omega
      · omega
  · intro path base length found
    have apart : Free (pending before epoch) frontier base := by
      rw [find, grafts.follow_whole shape'.branching length] at found
      by_cases same : path = done ++ edge.digit :: edge.below
      · rw [if_pos same, Option.some.injEq] at found
        exact found ▸ free
      · rw [if_neg same] at found
        exact shape'.extents path base length found
    refine ⟨by have inside := apart.1; omega, fun path' now visited => ?_⟩
    rw [RADIX_NODE_COPIES]
    rcases joined path' now visited with before_ | ⟨index, inside, at_, _⟩
    · exact apart.2 path' now before_
    · have inside := apart.1
      omega

end Edit

/-- What a committed reader reads of the nodes has not changed. -/
def Kept (start : Disk (Block E)) (epoch : Nat) (disk : Disk (Block E)) : Prop :=
  ∀ path nodeBase, Visits (committed start epoch) path nodeBase →
    readNode disk nodeBase epoch = readNode start nodeBase epoch

theorem Kept.of_pages {start disk other : Disk (Block E)} {epoch frontier0 : Nat}
    (kept : Kept start epoch disk) (shape : Shape (committed start epoch) frontier0)
    (same : ∀ page < frontier0, other.pread page = disk.pread page) : Kept start epoch other := by
  intro path nodeBase visited
  have low := shape.below path nodeBase visited
  rw [RADIX_NODE_COPIES] at low
  rw [← kept path nodeBase visited]
  exact readNode_congr (same _ (by omega)) (same _ (by omega)) epoch

section Stage

variable {start : Disk (Block E)} {epoch frontier0 frontier : Nat} {world before grown : World E}
  {segmentId segmentBase : Nat} {whole done : List Nat} {edge : MissingEdge}

/-- A path is laid by one edit, wherever it stops no page below the frontier but the edited copy
has changed. -/
theorem layPath_outcome (misses : Misses (pending before epoch) whole edge done)
    (shape' : Shape (pending before epoch) frontier)
    (unwritten : ∀ nodeBase, before.handle.nodes.lookup nodeBase = none →
      before.handle.nodeSlots.lookup nodeBase = none)
    (nodes : grown.handle.nodes = before.handle.nodes)
    (nodeSlots : grown.handle.nodeSlots = before.handle.nodeSlots)
    (pages : ∀ page < frontier, grown.disk.pread page = before.disk.pread page) :
    Outcome (layPath segmentId segmentBase epoch (epoch + 1) frontier edge) grown
      (fun _ after => Edits before after epoch frontier edge.nodeBase
          (target before edge.nodeBase edge.slot)
          ⟨edge.depth, edge.node.entries.insert edge.digit
            (if edge.below = [] then segmentBase else frontier)⟩
          (freshNodes segmentBase frontier (edge.depth + 1) edge.below) ∧
        after.handle.frontier = grown.handle.frontier ∧
        after.handle.segments = grown.handle.segments.insert segmentId segmentBase)
      (fun _ after => ∀ page < frontier, after.disk.pread page = before.disk.pread page) := by
  have above : ∀ item ∈ freshNodes segmentBase frontier (edge.depth + 1) edge.below,
      frontier ≤ item.1 := by
    intro item member
    obtain ⟨index, _, at_, _⟩ := mem_freshNodes member
    omega
  have low := shape'.below done edge.nodeBase misses.visited
  rw [RADIX_NODE_COPIES] at low
  have outside : edge.nodeBase ∉
      (freshNodes segmentBase frontier (edge.depth + 1) edge.below).map Prod.fst := by
    intro member
    obtain ⟨item, listed, same⟩ := List.mem_map.mp member
    have high := above item listed
    omega
  have short_apart : ∀ page < frontier, page ∉
      (freshNodes segmentBase frontier (edge.depth + 1) edge.below).map Prod.fst := by
    intro page short member
    obtain ⟨item, listed, same⟩ := List.mem_map.mp member
    have high := above item listed
    omega
  have first := writeNewNodes_outcome (E := E) (epoch + 1) frontier _
    (freshNodes_nodup segmentBase frontier (edge.depth + 1) edge.below) above grown
  refine Outcome.bind (Outcome.mono first (fun _ _ lays => lays) fun _ after same page short =>
    (same page short).trans (pages page short)) fun _ middle lays => ?_
  have held : middle.handle.nodes.lookup edge.nodeBase =
      before.handle.nodes.lookup edge.nodeBase := by rw [lays.nodes _ outside, nodes]
  have known : middle.handle.nodeSlots.lookup edge.nodeBase =
      before.handle.nodeSlots.lookup edge.nodeBase := by rw [lays.nodeSlots _ outside, nodeSlots]
  have kept : ∀ page < frontier, middle.disk.pread page = before.disk.pread page := fun page short =>
    (lays.pages page (short_apart page short)).trans (pages page short)
  have seen : nodeForPendingWrite middle epoch edge.nodeBase = .ok (edge.node, edge.slot) := by
    have seen_ := misses.seen
    rw [pending, nodeForPendingWrite] at seen_
    rw [nodeForPendingWrite, held, known,
      readNode_congr (kept _ (by omega)) (kept _ (by omega)) epoch]
    exact seen_
  have second := writeExistingNode_outcome (epoch + 1) ⟨edge.depth,
    edge.node.entries.insert edge.digit (if edge.below = [] then segmentBase else frontier)⟩ seen
    (fun absent => by rw [known]; exact unwritten _ (held ▸ absent))
  refine Outcome.bind (Outcome.mono second (fun _ _ wrote => wrote) fun _ after same page short => by
    rw [same, kept page short]) fun _ final wrote => ?_
  have slot_same : target middle edge.nodeBase edge.slot = target before edge.nodeBase edge.slot := by
    rw [target, target, held]
  rw [slot_same] at wrote
  refine ⟨⟨?_, ?_, ?_, ?_⟩, wrote.frontier.trans lays.frontier, ?_⟩
  · exact ⟨(wrote.nodes _).trans (if_pos rfl), (wrote.nodeSlots _).trans (if_pos rfl)⟩
  · intro item member
    have different : item.1 ≠ edge.nodeBase := by
      intro same
      exact outside (same ▸ List.mem_map_of_mem member)
    obtain ⟨node, slot, written⟩ := lays.written item member
    refine ⟨above item member, ?_, ?_, ?_⟩
    · exact ((wrote.nodes _).trans (if_neg different)).trans node
    · exact ((wrote.nodeSlots _).trans (if_neg different)).trans slot
    · have high := above item member
      have apart : item.1 ≠ edge.nodeBase + (target before edge.nodeBase edge.slot).toNat := by
        rcases slot_page edge.nodeBase (target before edge.nodeBase edge.slot) with
          at_ | at_ <;> omega
      show final.disk.pread item.1 = _
      rw [wrote.disk, ← written]
      exact if_neg apart
  · intro other different outside'
    refine ⟨?_, ?_⟩
    · exact ((wrote.nodes _).trans (if_neg different)).trans ((lays.nodes _ outside').trans
        (congrArg (AList.lookup other) nodes))
    · exact ((wrote.nodeSlots _).trans (if_neg different)).trans ((lays.nodeSlots _ outside').trans
        (congrArg (AList.lookup other) nodeSlots))
  · intro page short
    show final.disk.pread page = _
    rw [wrote.disk, Disk.pread_pwrite, Disk.pread_pwrite, kept page short]
  · show final.handle.segments.insert segmentId segmentBase = _
    rw [wrote.segments, lays.segments]

theorem Staged.of_path {after : World E} (staged : Staged start epoch frontier0 before)
    (shape : Shape (committed start epoch) frontier0) (grown : frontier0 ≤ frontier)
    (shape' : Shape (pending before epoch) frontier)
    (named : segmentId < 2 ^ LOGICAL_SEGMENT_BITS)
    (misses : Misses (pending before epoch) (digitsOf segmentId) edge done)
    (free : Free (pending before epoch) frontier segmentBase)
    (edits : Edits before after epoch frontier edge.nodeBase
      (target before edge.nodeBase edge.slot)
      ⟨edge.depth, edge.node.entries.insert edge.digit
        (if edge.below = [] then segmentBase else frontier)⟩
      (freshNodes segmentBase frontier (edge.depth + 1) edge.below))
    (at_ : after.handle.frontier = some (frontier + RADIX_NODE_COPIES * edge.below.length))
    (segments : after.handle.segments = before.handle.segments.insert segmentId segmentBase) :
    Staged start epoch frontier0 after ∧
      ∀ path, path.length = RADIX_LEVELS → find (pending after epoch) path =
        if path = digitsOf segmentId then some segmentBase else find (pending before epoch) path := by
  have full := length_digitsOf segmentId
  have grafts := edits.grafts misses full shape'
  have finds : ∀ path, path.length = RADIX_LEVELS → find (pending after epoch) path =
      if path = digitsOf segmentId then some segmentBase else find (pending before epoch) path := by
    intro path length
    rw [misses.shape]
    exact grafts.follow_whole shape'.branching length
  refine ⟨?_, finds⟩
  refine staged.edit shape shape' grown misses.visited misses.seen edits
    ⟨_, at_, by omega, edits.shape_grafted misses full shape' free⟩ ?_ ?_ ?_ ?_
  · exact fun path now visited => (grafts.reached_iff shape'.branching).mpr (Or.inl visited)
  · intro path now visited
    rcases (grafts.reached_iff shape'.branching).mp visited with old | ⟨more, _, _, found⟩
    · exact Or.inl old
    · exact Or.inr (List.mem_of_getElem? found)
  · intro item member
    obtain ⟨index, found⟩ := List.getElem?_of_mem (List.mem_map_of_mem member)
    have inside := (getElem?_freshNodes found).1
    refine ⟨done ++ edge.digit :: edge.below.take index,
      (grafts.reached_iff shape'.branching).mpr (Or.inr ⟨_, List.take_prefix _ _, rfl, ?_⟩)⟩
    rw [List.length_take, min_eq_left (Nat.le_of_lt inside), found]
  · intro other base held
    rw [segments, lookup_insert] at held
    by_cases same : other = segmentId
    · rw [if_pos same] at held
      rw [same, finds _ full, if_pos rfl]
      exact ⟨named, held⟩
    · rw [if_neg same] at held
      obtain ⟨named', found⟩ := staged.segments other base held
      refine ⟨named', ?_⟩
      rw [finds _ (length_digitsOf other), if_neg fun equal =>
        same (digitsOf_injective named' named equal), found]

theorem Staged.search (staged : Staged start epoch frontier0 world)
    (shape : Shape (committed start epoch) frontier0) (grown : frontier0 ≤ frontier)
    (at_ : world.handle.frontier = some frontier) (shape' : Shape (pending world epoch) frontier)
    (named : segmentId < 2 ^ LOGICAL_SEGMENT_BITS)
    (free : Free (pending world epoch) frontier segmentBase) :
    Outcome (do
        let edge ← ofResult (missingEdge (nodeForPendingWrite world epoch) 0 (digitsOf segmentId)
          ROOT_NODE_BASE_PAGE)
        let frontier' := frontier + RADIX_NODE_COPIES * edge.below.length
        if MAX_PHYSICAL_PAGE_ID < (frontier' : Int) - 1 then
          throw (.overflowError "radix node allocation exceeds uint64 page pointer")
        else if frontier < frontier' then do
          growTo frontier'
          layPath segmentId segmentBase epoch (epoch + 1) frontier edge
        else layPath segmentId segmentBase epoch (epoch + 1) frontier edge) world
      (fun _ after => Staged start epoch frontier0 after ∧
        ∀ path, path.length = RADIX_LEVELS → find (pending after epoch) path =
          if path = digitsOf segmentId then some segmentBase else find (pending world epoch) path)
      (fun _ after => Kept start epoch after.disk) := by
  have kept : ∀ {after : World E},
      (∀ page < frontier, after.disk.pread page = world.disk.pread page) →
        Kept start epoch after.disk := fun same =>
    Kept.of_pages staged.kept shape fun page short => same page (short.trans_le grown)
  have search := @missingEdge_spec _ _ [] (digitsOf segmentId) _ shape' rfl (by simp)
    (digitsOf_ne_nil segmentId)
  rw [List.length_nil, List.nil_append, pending] at search
  cases found : missingEdge (nodeForPendingWrite world epoch) 0 (digitsOf segmentId)
      ROOT_NODE_BASE_PAGE with
  | error error => exact Outcome.of_error (bind_of_error (ofResult_error error world)) staged.kept
  | ok edge =>
      rw [found] at search
      obtain ⟨done, misses⟩ := search
      rw [Outcome, bind_of_ok (ofResult_ok edge world)]
      by_cases exceeds : MAX_PHYSICAL_PAGE_ID <
          ((frontier + RADIX_NODE_COPIES * edge.below.length : Nat) : Int) - 1
      · rw [if_pos exceeds]
        exact staged.kept
      · rw [if_neg exceeds]
        by_cases longer : frontier < frontier + RADIX_NODE_COPIES * edge.below.length
        · rw [if_pos longer]
          have pages : ∀ page < frontier,
              (world.disk.ftruncate (frontier + RADIX_NODE_COPIES * edge.below.length)).pread page =
                world.disk.pread page := fun page short => if_pos (short.trans longer)
          have laid := @layPath_outcome _ epoch frontier world
            ⟨world.disk.ftruncate (frontier + RADIX_NODE_COPIES * edge.below.length),
              world.log ++ [.ftruncate (frontier + RADIX_NODE_COPIES * edge.below.length)],
              { world.handle with
                frontier := some (frontier + RADIX_NODE_COPIES * edge.below.length) }⟩
            segmentId segmentBase _ done edge misses shape' staged.unwritten rfl rfl pages
          refine Outcome.mono laid (fun _ after edited => ?_) fun _ after same => kept same
          exact staged.of_path shape grown shape' named misses free edited.1 edited.2.1 edited.2.2
        · rw [if_neg longer]
          have laid := @layPath_outcome _ epoch frontier world world segmentId segmentBase _ done edge
            misses shape' staged.unwritten rfl rfl fun _ _ => rfl
          refine Outcome.mono laid (fun _ after edited => ?_) fun _ after same => kept same
          have stays : frontier = frontier + RADIX_NODE_COPIES * edge.below.length := by omega
          exact staged.of_path shape grown shape' named misses free edited.1
            (edited.2.1.trans (at_.trans (congrArg some stays))) edited.2.2

theorem Staged.map (staged : Staged start epoch frontier0 world)
    (shape : Shape (committed start epoch) frontier0)
    (free : ∀ frontier, world.handle.frontier = some frontier →
      Free (pending world epoch) frontier segmentBase) :
    Outcome (stageMappingToBase segmentId segmentBase epoch (epoch + 1)) world
      (fun _ after => segmentId < 2 ^ LOGICAL_SEGMENT_BITS ∧ Staged start epoch frontier0 after ∧
        ∀ path, path.length = RADIX_LEVELS → find (pending after epoch) path =
          if path = digitsOf segmentId then some segmentBase else find (pending world epoch) path)
      (fun _ after => Kept start epoch after.disk) := by
  unfold stageMappingToBase
  refine Outcome.bind (Outcome.mono (staged.resolve segmentId) (fun _ _ found => found)
    fun _ after same => same.2 ▸ staged.kept) ?_
  intro found middle resolved
  obtain ⟨named, same, staged', segmentCache, at_middle⟩ := resolved
  have view : pending middle epoch = pending world epoch := by rw [at_middle]; rfl
  cases found with
  | some base =>
      simp only
      by_cases other : base = segmentBase
      · rw [if_neg (not_not.mpr other)]
        refine ⟨named, staged', fun path _ => ?_⟩
        rw [view]
        by_cases here : path = digitsOf segmentId
        · rw [if_pos here, here, ← other, same]
        · rw [if_neg here]
      · rw [if_pos other]
        exact staged'.kept
  | none =>
      simp only
      obtain ⟨frontier, at_, grown, shape'⟩ := staged'.frontier
      have searched := staged'.search shape grown at_ shape' named
        (view ▸ free frontier (by rw [← at_, at_middle]))
      rw [Outcome, bind_of_ok (get_run _)]
      simp only [at_, radixDigits_ok named]
      rw [bind_of_ok (ofResult_ok _ _)]
      rw [view] at searched
      exact Outcome.mono searched (fun _ after held => ⟨named, held⟩) fun _ _ held => held

end Stage

section Unstage

variable {start : Disk (Block E)} {epoch frontier0 frontier : Nat} {world before after : World E}
  {segmentId : Nat} {whole done : List Nat} {edge : LeafEdge} {slot : Bool}

theorem lookup_erase {ν : Type} (dict : Dict ν) (key other : Nat) :
    (dict.erase key).lookup other = if other = key then none else dict.lookup other := by
  by_cases same : other = key
  · rw [if_pos same, same, AList.lookup_erase]
  · rw [if_neg same, AList.lookup_erase_ne same]

theorem Edits.agreesBut (leads : Leads (pending before epoch) whole edge done)
    (shape' : Shape (pending before epoch) frontier)
    (edits : Edits before after epoch frontier edge.nodeBase slot
      ⟨edge.node.depth, edge.node.entries.erase edge.digit⟩ []) :
    AgreesBut (edges (pending before epoch)) (edges (pending after epoch)) ROOT_NODE_BASE_PAGE
      RADIX_LEVELS edge.nodeBase edge.digit := by
  intro path now visited digit different
  by_cases same : now = edge.nodeBase
  · have other : digit ≠ edge.digit := fun equal => different ⟨same, equal⟩
    rw [same, edges_ok (pending_some edits.parent.1 edits.parent.2 epoch), edges_ok leads.seen,
      lookup_erase, if_neg other]
  · rw [edges, edges, edits.pending_other shape' leads.visited visited same]

theorem Staged.of_erase (staged : Staged start epoch frontier0 before)
    (shape : Shape (committed start epoch) frontier0) (grown : frontier0 ≤ frontier)
    (shape' : Shape (pending before epoch) frontier)
    (named : segmentId < 2 ^ LOGICAL_SEGMENT_BITS)
    (leads : Leads (pending before epoch) (digitsOf segmentId) edge done)
    (edits : Edits before after epoch frontier edge.nodeBase
      (target before edge.nodeBase edge.slot)
      ⟨edge.node.depth, edge.node.entries.erase edge.digit⟩ [])
    (at_ : after.handle.frontier = some frontier)
    (segments : after.handle.segments = before.handle.segments.erase segmentId) :
    Staged start epoch frontier0 after ∧
      ∀ path, path.length = RADIX_LEVELS → find (pending after epoch) path =
        if path = digitsOf segmentId then none else find (pending before epoch) path := by
  have agrees := edits.agreesBut leads shape'
  have last : done.length + 1 = RADIX_LEVELS := by
    have full := length_digitsOf segmentId
    rw [leads.shape, List.length_append, List.length_singleton] at full
    exact full
  have gone : edges (pending after epoch) edge.nodeBase edge.digit = none := by
    rw [edges_ok (pending_some edits.parent.1 edits.parent.2 epoch), lookup_erase, if_pos rfl]
  have finds : ∀ path, path.length = RADIX_LEVELS → find (pending after epoch) path =
      if path = digitsOf segmentId then none else find (pending before epoch) path := by
    intro path length
    rw [find, follow_value shape'.branching leads.visited agrees last length, gone, leads.shape]
    rfl
  have reached : ∀ path now, Visits (pending after epoch) path now ↔
      Visits (pending before epoch) path now := fun path now =>
    reached_value shape'.branching leads.visited agrees last
  have pruned : Shape (pending after epoch) frontier := by
    constructor
    · intro path now visited
      rw [reached] at visited
      by_cases same : now = edge.nodeBase
      · refine ⟨_, _, same ▸ pending_some edits.parent.1 edits.parent.2 epoch, ?_⟩
        rw [shape'.branching path done edge.nodeBase (same ▸ visited) leads.visited]
        exact leads.depth
      · rw [edits.pending_other shape' leads.visited visited same]
        exact shape'.readable path now visited
    · exact fun path other now visited visited' => shape'.branching path other now
        ((reached path now).mp visited) ((reached other now).mp visited')
    · exact fun path now visited => shape'.below path now ((reached path now).mp visited)
    · exact fun path now path' now' visited visited' => shape'.spaced path now path' now'
        ((reached path now).mp visited) ((reached path' now').mp visited')
    · intro path base length found
      rw [finds path length] at found
      by_cases same : path = digitsOf segmentId
      · rw [if_pos same] at found
        cases found
      · rw [if_neg same] at found
        have free := shape'.extents path base length found
        exact ⟨free.1, fun path' now visited => free.2 path' now ((reached path' now).mp visited)⟩
  refine ⟨staged.edit shape shape' grown leads.visited leads.seen edits ⟨frontier, at_, grown, pruned⟩
    (fun path now visited => (reached path now).mpr visited)
    (fun path now visited => Or.inl ((reached path now).mp visited)) ?_ ?_, finds⟩
  · intro item member
    cases member
  · intro other base held
    rw [segments, lookup_erase] at held
    by_cases same : other = segmentId
    · rw [if_pos same] at held
      cases held
    · rw [if_neg same] at held
      obtain ⟨named', found⟩ := staged.segments other base held
      refine ⟨named', ?_⟩
      rw [finds _ (length_digitsOf other), if_neg fun equal =>
        same (digitsOf_injective named' named equal), found]

/-- Staging the removal of a mapping changes what its segment resolves to, and nothing else. -/
theorem Staged.unmap (staged : Staged start epoch frontier0 world)
    (shape : Shape (committed start epoch) frontier0) :
    Outcome (stageUnmap segmentId epoch (epoch + 1)) world
      (fun base after => segmentId < 2 ^ LOGICAL_SEGMENT_BITS ∧
        find (pending world epoch) (digitsOf segmentId) = some base ∧
        Staged start epoch frontier0 after ∧
        ∀ path, path.length = RADIX_LEVELS → find (pending after epoch) path =
          if path = digitsOf segmentId then none else find (pending world epoch) path)
      (fun _ after => Kept start epoch after.disk) := by
  unfold stageUnmap
  cases named : radixDigits segmentId with
  | error error => exact Outcome.of_error (bind_of_error (ofResult_error error world)) staged.kept
  | ok digits =>
      obtain ⟨inside, rfl⟩ := radixDigits_eq_ok named
      obtain ⟨frontier, at_, grown, shape'⟩ := staged.frontier
      rw [Outcome, bind_of_ok (ofResult_ok _ _), bind_of_ok (get_run _)]
      have search := @leafEdge_spec _ _ [] (digitsOf segmentId) _ shape' rfl (by simp)
        (digitsOf_ne_nil segmentId)
      rw [List.length_nil, List.nil_append, pending] at search
      cases found : leafEdge (nodeForPendingWrite world epoch) 0 (digitsOf segmentId)
          ROOT_NODE_BASE_PAGE with
      | error error =>
          rw [bind_of_error (ofResult_error error world)]
          exact staged.kept
      | ok edge =>
          rw [found] at search
          obtain ⟨done, leads⟩ := search
          rw [bind_of_ok (ofResult_ok edge world)]
          have low := shape'.below done edge.nodeBase leads.visited
          have wrote := writeExistingNode_outcome (epoch + 1)
            ⟨edge.node.depth, edge.node.entries.erase edge.digit⟩ leads.seen
            (staged.unwritten edge.nodeBase)
          have raises : ∀ (error : StoreError) (after : World E), after.disk = world.disk →
              Kept start epoch after.disk := fun _ after same => same ▸ staged.kept
          refine Outcome.bind (Outcome.mono wrote (fun _ _ held => held) raises) ?_
          intro _ after wrote
          have edited := @Staged.of_erase _ start epoch frontier0 frontier world
            { after with handle := { after.handle with
              segments := after.handle.segments.erase segmentId, segmentCache := ∅ } }
            segmentId done edge staged shape grown shape' inside leads
            ⟨⟨(wrote.nodes _).trans (if_pos rfl), (wrote.nodeSlots _).trans (if_pos rfl)⟩,
              (fun item member => by cases member),
              fun other different _ => ⟨(wrote.nodes other).trans (if_neg different),
                (wrote.nodeSlots other).trans (if_neg different)⟩,
              (fun page _ => by rw [wrote.disk])⟩
            (wrote.frontier.trans at_) (congrArg (AList.erase segmentId) wrote.segments)
          have held : find (pending world epoch) (digitsOf segmentId) = some edge.segmentBase := by
            rw [leads.shape]
            exact (find_snoc leads.visited.2 leads.seen edge.digit).trans leads.held
          exact ⟨inside, held, edited.1, edited.2⟩

end Unstage

end DurableContext.RadixMap
