import DurableContext.Storage.FixedPage
import DurableContext.Storage.RadixNodePage

/-! The radix map of a segmented primary: which segment of logical pages lies at which physical
page, in nodes of two copies that a transaction edits before it commits.

A handle sees its own edits; every other reader sees the nodes of a committed epoch. -/

namespace DurableContext.RadixMap

open Program

variable {E : Type}

def ROOT_NODE_BASE_PAGE : Nat := 2

def RADIX_NODE_COPIES : Nat := 2

def LIFECYCLE_COPIES : Nat := 2

def SEGMENT_DATA_PAGES : Nat := 2 * 16

/-- What a handle keeps of the transaction it is in. -/
structure Handle where
  frontier : Option Nat
  nodes : Dict RadixNode
  nodeSlots : Dict Bool
  segments : Dict Nat
  segmentCache : AList fun _ : Nat × Nat => Option Nat

/-- `_reset_operation_state`. -/
def Handle.reset : Handle := ⟨none, ∅, ∅, ∅, ∅⟩

/-- The primary file, what has been done to it so far, and the handle that does it. -/
structure World (E : Type) where
  disk : Disk (Block E)
  log : List (Effect (Block E))
  handle : Handle

def emit (effect : Effect (Block E)) : Op StoreError (World E) Unit :=
  modify fun world =>
    { world with disk := world.disk.apply effect, log := world.log ++ [effect] }

def changeHandle (change : Handle → Handle) : Op StoreError (World E) Unit :=
  modify fun world => { world with handle := change world.handle }

/-- The digits of a segment id, the most significant first. -/
def radixDigits (segmentId : Nat) : Except StoreError (List Nat) :=
  if 2 ^ LOGICAL_SEGMENT_BITS ≤ segmentId then
    .error (.valueError "logical segment id exceeds fixed 64-bit radix namespace")
  else .ok ((List.range RADIX_LEVELS).map fun level =>
    (segmentId >>> (8 * (RADIX_LEVELS - 1 - level))) % RADIX_FANOUT)

/-! ### Nodes -/

/-- `encode_fixed_radix_node`. -/
def packNode (epoch : Nat) (node : RadixNode) : Except StoreError (Block E) :=
  if RADIX_LEVELS ≤ node.depth then
    .error (.valueError ("radix depth out of range: " ++ toString node.depth))
  else
    match node.entries.entries.find? fun entry =>
        decide (RADIX_FANOUT ≤ entry.1 ∨ MAX_PHYSICAL_PAGE_ID < entry.2) with
    | some entry =>
        if RADIX_FANOUT ≤ entry.1 then
          .error (.valueError ("radix digit out of range: " ++ toString entry.1))
        else .error (.valueError ("radix pointer exceeds uint64: " ++ toString entry.2))
    | none => if 2 ^ 64 ≤ epoch then .error .structError else .ok (.node epoch node)

/-- The node as the committed epoch has it, and the slot of its copy. -/
def readNode (disk : Disk (Block E)) (nodeBase committedEpoch : Nat) :
    Except StoreError (RadixNode × Bool) :=
  match DualCopy.select committedEpoch (copiesAt Block.asNode disk nodeBase) with
  | some (slot, _, node) => .ok (node, slot)
  | none => .error (.runtimeError
      ("no valid fixed-width radix node at physical page " ++ toString nodeBase))

/-- The node as the transaction of the handle has it; also `_transaction_node_view`. -/
def nodeForPendingWrite (world : World E) (committedEpoch nodeBase : Nat) :
    Except StoreError (RadixNode × Bool) :=
  match world.handle.nodes.lookup nodeBase with
  | some node =>
      match world.handle.nodeSlots.lookup nodeBase with
      | some slot => .ok (node, slot)
      | none => .error (.keyError nodeBase)
  | none => readNode world.disk nodeBase committedEpoch

def writeExistingNode (nodeBase committedEpoch newEpoch : Nat) (node : RadixNode)
    (committedSlot : Option Bool) : Op StoreError (World E) Unit := do
  let world ← get
  let targetSlot ← match world.handle.nodeSlots.lookup nodeBase with
    | some slot => pure slot
    | none => do
        let slot ← match committedSlot with
          | some slot => pure slot
          | none => do
              let (_, slot) ← ofResult (readNode world.disk nodeBase committedEpoch)
              pure slot
        changeHandle fun handle =>
          { handle with nodeSlots := handle.nodeSlots.insert nodeBase (!slot) }
        pure !slot
  let block ← ofResult (packNode newEpoch node)
  emit (.pwrite (nodeBase + targetSlot.toNat) block)
  changeHandle fun handle => { handle with nodes := handle.nodes.insert nodeBase node }

def writeNewNode (nodeBase newEpoch : Nat) (node : RadixNode) : Op StoreError (World E) Unit := do
  let block ← ofResult (packNode newEpoch node)
  emit (.pwrite nodeBase block)
  changeHandle fun handle =>
    { handle with
      nodeSlots := handle.nodeSlots.insert nodeBase false
      nodes := handle.nodes.insert nodeBase node }

/-! ### Segments -/

/-- The walk of `_resolve_segment` down the nodes of a view. -/
def walk (view : Nat → Except StoreError (RadixNode × Bool)) :
    Nat → List Nat → Nat → Except StoreError (Option Nat)
  | _, [], _ => .error (.assertionError "radix traversal fell through")
  | depth, digit :: digits, nodeBase => do
      let (node, _) ← view nodeBase
      if node.depth ≠ depth then .error (.runtimeError "radix node depth drifted")
      else
        match node.entries.lookup digit with
        | none => .ok none
        | some value => if digits = [] then .ok (some value) else walk view (depth + 1) digits value

/-- `_resolve_segment`. The handle's own edits come first, and the cache is only for committed
nodes. -/
def resolveSegment (segmentId committedEpoch : Nat) : Op StoreError (World E) (Option Nat) := do
  let world ← get
  match world.handle.segments.lookup segmentId with
  | some base => pure (some base)
  | none =>
      let useCommittedCache := world.handle.nodes.keys.isEmpty
      let cached := if useCommittedCache then
        world.handle.segmentCache.lookup (committedEpoch, segmentId) else none
      match cached with
      | some found => pure found
      | none => do
          let digits ← ofResult (radixDigits segmentId)
          let found ← ofResult (walk (nodeForPendingWrite world committedEpoch) 0 digits
            ROOT_NODE_BASE_PAGE)
          if useCommittedCache then
            changeHandle fun handle => { handle with
              segmentCache := handle.segmentCache.insert (committedEpoch, segmentId) found }
          pure found

/-- What a handle that has staged nothing resolves a segment to. -/
def readSegment (disk : Disk (Block E)) (segmentId committedEpoch : Nat) :
    Except StoreError (Option Nat) :=
  match resolveSegment segmentId committedEpoch ⟨disk, [], Handle.reset⟩ with
  | .ok found _ => .ok found
  | .error error _ => .error error

/-- The node whose edge is missing on the way down, and the digits from there on. -/
structure MissingEdge where
  nodeBase : Nat
  depth : Nat
  node : RadixNode
  slot : Bool
  digit : Nat
  below : List Nat

def missingEdge (view : Nat → Except StoreError (RadixNode × Bool)) :
    Nat → List Nat → Nat → Except StoreError MissingEdge
  | _, [], _ => .error (.assertionError "fresh mapping had no missing radix edge")
  | depth, digit :: digits, nodeBase => do
      let (node, slot) ← view nodeBase
      match node.entries.lookup digit with
      | none => .ok ⟨nodeBase, depth, node, slot, digit, digits⟩
      | some value =>
          if digits = [] then
            .error (.runtimeError "mapping appeared while staging a fresh edge")
          else missingEdge view (depth + 1) digits value

/-- The new nodes below a missing edge, two pages each from the frontier on, and what they lead
to. -/
def freshNodes (segmentBase : Nat) : Nat → Nat → List Nat → List (Nat × RadixNode)
  | _, _, [] => []
  | frontier, depth, digit :: digits =>
      let child := if digits = [] then segmentBase else frontier + RADIX_NODE_COPIES
      (frontier, ⟨depth, (∅ : Dict Nat).insert digit child⟩) ::
        freshNodes segmentBase (frontier + RADIX_NODE_COPIES) (depth + 1) digits

/-- Makes the file longer and moves the handle's frontier to its end. -/
def growTo (frontier : Nat) : Op StoreError (World E) Unit := do
  emit (.ftruncate frontier)
  changeHandle fun handle => { handle with frontier := some frontier }

/-- Writes the nodes of a new path from the frontier on, and then the edge that leads to it. -/
def layPath (segmentId segmentBase committedEpoch newEpoch start : Nat) (edge : MissingEdge) :
    Op StoreError (World E) Unit := do
  (freshNodes segmentBase start (edge.depth + 1) edge.below).forM fun (nodeBase, node) =>
    writeNewNode nodeBase newEpoch node
  let child := if edge.below = [] then segmentBase else start
  writeExistingNode edge.nodeBase committedEpoch newEpoch
    ⟨edge.depth, edge.node.entries.insert edge.digit child⟩ (some edge.slot)
  changeHandle fun handle => { handle with
    segments := handle.segments.insert segmentId segmentBase
    segmentCache := handle.segmentCache.insert (newEpoch, segmentId) (some segmentBase) }

def stageMappingToBase (segmentId segmentBase committedEpoch newEpoch : Nat) :
    Op StoreError (World E) Unit := do
  let existing ← resolveSegment segmentId committedEpoch
  match existing with
  | some base =>
      if base ≠ segmentBase then
        throw (.runtimeError "mapping already exists at a different physical base")
  | none => do
      let world ← get
      match world.handle.frontier with
      | none => throw (.runtimeError "physical append frontier was not initialized")
      | some start => do
          let digits ← ofResult (radixDigits segmentId)
          let edge ← ofResult (missingEdge (nodeForPendingWrite world committedEpoch) 0 digits
            ROOT_NODE_BASE_PAGE)
          let frontier := start + RADIX_NODE_COPIES * edge.below.length
          if MAX_PHYSICAL_PAGE_ID < (frontier : Int) - 1 then
            throw (.overflowError "radix node allocation exceeds uint64 page pointer")
          else if start < frontier then do
            growTo frontier
            layPath segmentId segmentBase committedEpoch newEpoch start edge
          else layPath segmentId segmentBase committedEpoch newEpoch start edge

/-- The node that leads to a segment, and the base it leads to. -/
structure LeafEdge where
  nodeBase : Nat
  node : RadixNode
  slot : Bool
  digit : Nat
  segmentBase : Nat

def leafEdge (view : Nat → Except StoreError (RadixNode × Bool)) :
    Nat → List Nat → Nat → Except StoreError LeafEdge
  | _, [], _ => .error (.assertionError "radix traversal fell through during reclaim")
  | depth, digit :: digits, nodeBase => do
      let (node, slot) ← view nodeBase
      if node.depth ≠ depth then
        .error (.runtimeError "radix node depth drifted during reclaim")
      else
        match node.entries.lookup digit with
        | none => .error (.runtimeError "retired ownership chain points at an absent mapping")
        | some value =>
            if digits = [] then .ok ⟨nodeBase, node, slot, digit, value⟩
            else leafEdge view (depth + 1) digits value

def stageUnmap (segmentId committedEpoch newEpoch : Nat) : Op StoreError (World E) Nat := do
  let digits ← ofResult (radixDigits segmentId)
  let world ← get
  let edge ← ofResult (leafEdge (nodeForPendingWrite world committedEpoch) 0 digits
    ROOT_NODE_BASE_PAGE)
  writeExistingNode edge.nodeBase committedEpoch newEpoch
    ⟨edge.node.depth, edge.node.entries.erase edge.digit⟩ (some edge.slot)
  changeHandle fun handle => { handle with
    segments := handle.segments.erase segmentId
    segmentCache := ∅ }
  pure edge.segmentBase

end DurableContext.RadixMap
