import DurableContext.Cascade.RecoveryRegion

/-! What recovery makes of a coordinator that stopped at work. From every phase, and from the torn
boundaries around the canonical write, it comes to the materialization that would be made anew. -/

namespace DurableContext.Cascade

open DependencyGraph Materialization Program RecoveryCoordinator

variable {V : Type} {reprs : Reprs V} {m m' middle : Materialization V} {store : MemoryStore V}
  {target : Target} {affected : List String} {request : Request V} {serial : Nat} {torn : Prop}
  {phase : MaintenancePhase} {c c' : RecoveryCoordinator V} {node : Option String}

section Journal

def journalOf (intent : MaintenanceIntent V) : Table String (MaintenanceIntent V) :=
  (∅ : Table String (MaintenanceIntent V)).insert intent.id intent

namespace RecoveryCoordinator.Request

/-- The intent of a request as it is journaled. -/
def journaled (request : Request V) (serial : Nat) (store : MemoryStore V)
    (phase : MaintenancePhase) (affected : List String) (node : Option String) :
    MaintenanceIntent V :=
  { request.intent serial store with
    phase
    affectedNodeIds := affected
    partialRebuildNodeId := node }

def working (request : Request V) (serial : Nat) (store : MemoryStore V)
    (phase : MaintenancePhase) (affected : List String) (node : Option String)
    (m : Materialization V) : RecoveryCoordinator V :=
  ⟨m, journalOf (request.journaled serial store phase affected node)⟩

end RecoveryCoordinator.Request

theorem intentOf_run {intent : MaintenanceIntent V} {name : String} (named : intent.id = name) :
    intentOf name ⟨m', journalOf intent⟩ = .ok intent ⟨m', journalOf intent⟩ := by
  have found : (journalOf intent).lookup name = some intent := by
    rw [← named]
    exact AList.lookup_insert _
  unfold intentOf
  rw [bind_of_ok (get_run _)]
  simp only [found]
  rfl

theorem writeIntent_run {intent : MaintenanceIntent V}
    {change : MaintenanceIntent V → MaintenanceIntent V} {name : String} (named : intent.id = name)
    (kept : (change intent).id = intent.id) :
    writeIntent name change ⟨m', journalOf intent⟩ =
      .ok () ⟨m', journalOf (change intent)⟩ := by
  have found : (journalOf intent).lookup name = some intent := by
    rw [← named]
    exact AList.lookup_insert _
  have written : (journalOf intent).insert name (change intent) =
      journalOf (change intent) := by
    rw [journalOf, journalOf, kept, ← named]
    exact AList.insert_insert _
  unfold writeIntent
  rw [modify_run]
  simp only [found, written]

theorem working_intent : intentOf (intentId serial)
      (request.working serial store phase affected node m) =
    .ok (request.journaled serial store phase affected node)
      (request.working serial store phase affected node m) :=
  intentOf_run (request.intent_id serial store)

theorem setPhase_run (later : MaintenancePhase) : setPhase (intentId serial) later
      (request.working serial store phase affected node m) =
    .ok () (request.working serial store later affected node m) :=
  writeIntent_run (request.intent_id serial store) rfl

theorem journaled_phase : (request.journaled serial store phase affected node).phase = phase := rfl

theorem invalidated_journaled :
    invalidated (request.journaled serial store phase affected node) m =
      invalidated { request.intent serial store with phase } m := by
  cases request <;> rfl

theorem invalidate_run {named : List String}
    (ran : invalidated { request.intent serial store with phase } m = .ok (named, m')) :
    invalidate (request.journaled serial store phase affected node)
        (request.working serial store phase affected node m) =
      .ok () (request.working serial store phase named node m') := by
  have asked : invalidated (request.journaled serial store phase affected node)
      (request.working serial store phase affected node m).materialization = .ok (named, m') :=
    invalidated_journaled.trans ran
  have id : (request.journaled serial store phase affected node).id = intentId serial :=
    request.intent_id serial store
  unfold invalidate
  rw [bind_of_ok (get_run _), asked]
  simp only [id]
  exact writeIntent_run (request.intent_id serial store) rfl

theorem applyCanonical_run : applyCanonical (request.journaled serial store phase affected node) c =
    .ok () { c with materialization := { c.materialization with
      store := request.applied c.materialization.store } } := by
  cases request <;> rfl

end Journal

section Stages

variable (reprs m request serial torn)

/-- A coordinator at work on a request, by the phase of its intent. `torn` allows for a canonical
write that was lost though the phase after it is journaled. -/
inductive Stage : MaintenancePhase → RecoveryCoordinator V → Prop where
  | prepared {store : MemoryStore V} (affected : List String) (node : Option String)
      (held : store = m.store ∨ request.Written m.store store) :
      Stage .prepared (request.working serial m.store .prepared affected node { m with store })
  | canonicalApplied {store : MemoryStore V} (affected : List String) (node : Option String)
      (held : request.Written m.store store ∨ (torn ∧ store = m.store)) :
      Stage .canonicalApplied
        (request.working serial m.store .canonicalApplied affected node { m with store })
  | invalidated {m' : Materialization V} {affected : List String} (node : Option String)
      (held : Repairable reprs m' affected) (rows : SameRows (request.applied m.store) m'.store) :
      Stage .invalidated (request.working serial m.store .invalidated affected node m')
  | rebuilding {m' middle : Materialization V} {affected : List String} (node : Option String)
      {target : Target} (held : Repairable reprs middle affected)
      (part : Partial target affected middle m')
      (rows : SameRows (request.applied m.store) middle.store) :
      Stage .rebuilding (request.working serial m.store .rebuilding affected node m')
  | repaired {m' : Materialization V} (affected : List String) (node : Option String)
      (held : Upheld reprs m') (clean : Clean m')
      (rows : SameRows (request.applied m.store) m'.store) :
      Stage .repaired (request.working serial m.store .repaired affected node m')

structure Done (c : RecoveryCoordinator V) : Prop where
  upheld : Upheld reprs c.materialization
  clean : Clean c.materialization
  rows : SameRows (request.applied m.store) c.materialization.store
  journal : c.journal = ∅

variable {reprs m request serial torn}

theorem Stage.mono {torn' : Prop} (stage : Stage reprs m request serial torn phase c)
    (weaker : torn → torn') : Stage reprs m request serial torn' phase c := by
  cases stage with
  | prepared affected node held => exact .prepared affected node held
  | canonicalApplied affected node held =>
      exact .canonicalApplied affected node (held.imp_right (And.imp_left weaker))
  | invalidated node held rows => exact .invalidated node held rows
  | rebuilding node held part rows => exact .rebuilding node held part rows
  | repaired affected node held clean rows => exact .repaired affected node held clean rows

theorem Stage.intentOf (stage : Stage reprs m request serial torn phase c) :
    ∃ intent, RecoveryCoordinator.intentOf (intentId serial) c = .ok intent c ∧
      intent.phase = phase := by
  cases stage <;> exact ⟨_, working_intent, rfl⟩

theorem Stage.applyPhase (stage : Stage reprs m request serial torn phase c) :
    ∃ phase' c', applyPhase (intentId serial) c = .ok () c' ∧ phase' ≠ .prepared ∧
      Stage reprs m request serial (torn ∧ phase ≠ .prepared) phase' c' ∧
      (phase = .prepared → phase' = .canonicalApplied) := by
  obtain ⟨intent, found, named⟩ := stage.intentOf
  unfold RecoveryCoordinator.applyPhase
  by_cases here : phase = .prepared
  · subst here
    cases stage with
    | @prepared store affected node held =>
        have written : request.Written m.store (request.applied store) := by
          rcases held with rfl | written
          · exact request.written_applied m.store
          · exact written.again
        have next : Stage reprs m request serial (torn ∧ MaintenancePhase.prepared ≠ .prepared)
            .canonicalApplied (request.working serial m.store .canonicalApplied affected node
              { m with store := request.applied store }) :=
          .canonicalApplied affected node (Or.inl written)
        refine ⟨.canonicalApplied, _, ?_, by simp, next, fun _ => rfl⟩
        rw [bind_of_ok working_intent, if_pos journaled_phase, bind_of_ok applyCanonical_run]
        exact setPhase_run .canonicalApplied
  · refine ⟨phase, c, ?_, here, stage.mono fun torn => ⟨torn, here⟩, fun first => absurd first here⟩
    rw [bind_of_ok found, if_neg (by rw [named]; exact here)]
    rfl

theorem Stage.invalidatePhase (stage : Stage reprs m request serial torn phase c)
    (upheld : Upheld reprs m) (clean : Clean m) (registered : request.Registered)
    (accepted : request.Accepted m.store) {redo : Bool} (safe : torn → redo = true)
    (later : phase ≠ .prepared) :
    ∃ phase' c', invalidatePhase (intentId serial) redo c = .ok () c' ∧
      Stage reprs m request serial torn phase' c' ∧
      (phase' = .invalidated ∨ phase' = .rebuilding ∨ phase' = .repaired) ∧
      (phase = .canonicalApplied → phase' = .invalidated) := by
  obtain ⟨intent, found, named⟩ := stage.intentOf
  unfold RecoveryCoordinator.invalidatePhase
  by_cases here : phase = .canonicalApplied
  · subst here
    cases stage with
    | @canonicalApplied store affected node held =>
        -- The canonical rows are written, now if not before.
        have written : ∃ store', request.Written m.store store' ∧
            redoCanonical redo (request.journaled serial m.store .canonicalApplied affected node)
              (request.working serial m.store .canonicalApplied affected node { m with store }) =
            .ok () (request.working serial m.store .canonicalApplied affected node
              { m with store := store' }) := by
          cases redo with
          | false =>
              refine ⟨store, held.resolve_right fun lost => ?_, rfl⟩
              cases safe lost.1
          | true =>
              refine ⟨request.applied store, ?_, applyCanonical_run⟩
              rcases held with written | ⟨_, rfl⟩
              · exact written.again
              · exact request.written_applied m.store
        obtain ⟨store', written, redone⟩ := written
        obtain ⟨named, m', ran, repairable, rows⟩ :=
          upheld.repairable clean registered accepted written serial .canonicalApplied
        have next : Stage reprs m request serial torn .invalidated
            (request.working serial m.store .invalidated named node m') :=
          .invalidated node repairable (by rw [rows]; exact written.rows)
        refine ⟨.invalidated, _, ?_, next, Or.inl rfl, fun _ => rfl⟩
        rw [bind_of_ok working_intent, if_pos journaled_phase, bind_of_ok redone,
          bind_of_ok (invalidate_run ran)]
        exact setPhase_run .invalidated
  · refine ⟨phase, c, ?_, stage, ?_, fun due => absurd due here⟩
    · rw [bind_of_ok found, if_neg (by rw [named]; exact here)]
      rfl
    · cases phase with
      | prepared => exact absurd rfl later
      | canonicalApplied => exact absurd rfl here
      | invalidated => exact Or.inl rfl
      | rebuilding => exact Or.inr (Or.inl rfl)
      | repaired => exact Or.inr (Or.inr rfl)

/-- A partial rebuild marks an affected node and writes it, or finds none to write. -/
theorem simulate_spec (held : Repairable reprs m' affected) :
    Outcome (simulateDurablePartialRebuild reprs
        (request.journaled serial store phase affected node))
      (request.working serial store phase affected node m')
      (fun _ c' => ∃ chosen target middle,
        c' = request.working serial store phase affected chosen middle ∧
          Partial target affected m' middle)
      fun _ c' => c' = request.working serial store phase affected node m' := by
  cases sorted : candidates m'.graph affected with
  | nil =>
      have ran : simulateDurablePartialRebuild reprs
          (request.journaled serial store phase affected node)
          (request.working serial store phase affected node m') =
          .error (.raised (.runtimeError "No invalid affected node available for REBUILDING failpoint"))
            (request.working serial store phase affected node m') := by
        unfold simulateDurablePartialRebuild
        rw [bind_of_ok (get_run _)]
        simp only [Request.journaled, Request.working, sorted]
        rfl
      exact Outcome.of_error ran rfl
  | cons chosen rest =>
      have member : chosen ∈ affected.filter fun node =>
          decide (m'.graph.statusOf node = some .invalid) := by
        rw [← List.mem_insertionSort (Earlier m'.graph), ← candidates, sorted]
        exact List.mem_cons_self
      obtain ⟨listed, invalid⟩ := List.mem_filter.mp member
      have status : m'.graph.statusOf chosen = some .invalid := of_decide_eq_true invalid
      obtain ⟨target, proper, rfl⟩ := held.upheld.named chosen (by rw [status]; rfl)
      obtain ⟨graph, middle, marked, rebuilt, part⟩ :=
        @partial_ok _ reprs _ _ _ held.upheld.toShaped held.upheld.known proper listed status
      have first : ofStep (m'.graph.markRebuilding target.node)
          (request.working serial store phase affected node m') =
          .ok graph (request.working serial store phase affected node m') := by
        rw [marked]
        rfl
      have second : ofStep (rebuildMarked reprs target.node { m' with graph })
          (request.working serial store phase affected node { m' with graph }) =
          .ok middle (request.working serial store phase affected node { m' with graph }) := by
        rw [rebuilt]
        rfl
      have ran : simulateDurablePartialRebuild reprs
          (request.journaled serial store phase affected node)
          (request.working serial store phase affected node m') =
          .ok () (request.working serial store phase affected (some target.node) middle) := by
        unfold simulateDurablePartialRebuild
        rw [bind_of_ok (get_run _)]
        simp only [Request.journaled, Request.working, sorted] at first second ⊢
        rw [bind_of_ok first]
        refine (bind_of_ok (modify_run _ _)).trans ?_
        refine (bind_of_ok second).trans ?_
        refine (bind_of_ok (modify_run _ _)).trans ?_
        exact @writeIntent_run _ _ _
          (fun intent => { intent with partialRebuildNodeId := some target.node }) _ rfl rfl
      exact Outcome.of_ok ran ⟨some target.node, target, middle, rfl, part⟩

theorem Stage.partialPhase (stage : Stage reprs m request serial torn .invalidated c) :
    Outcome (partialPhase reprs (intentId serial)) c
      (fun _ c' => Stage reprs m request serial torn .rebuilding c') fun _ c' => c' = c := by
  cases stage with
  | @invalidated m' affected node held rows =>
      unfold RecoveryCoordinator.partialPhase
      rw [Outcome, bind_of_ok working_intent]
      refine Outcome.bind (simulate_spec held) fun _ between reached => ?_
      obtain ⟨chosen, target, middle, rfl, part⟩ := reached
      exact Outcome.of_ok (setPhase_run .rebuilding) (.rebuilding chosen held part rows)

theorem Stage.reinvalidatePhase (stage : Stage reprs m request serial torn phase c)
    (later : phase = .invalidated ∨ phase = .rebuilding ∨ phase = .repaired) :
    ∃ phase' c', reinvalidatePhase (intentId serial) c = .ok () c' ∧
      Stage reprs m request serial torn phase' c' ∧
      (phase' = .invalidated ∨ phase' = .repaired) := by
  obtain ⟨intent, found, named⟩ := stage.intentOf
  unfold RecoveryCoordinator.reinvalidatePhase
  by_cases here : phase = .rebuilding
  · subst here
    cases stage with
    | @rebuilding m' middle affected node target held part rows =>
        obtain ⟨repairable, same⟩ := held.reinvalidated part
        refine ⟨.invalidated, _, ?_, .invalidated node repairable (rows.trans same), Or.inl rfl⟩
        rw [bind_of_ok working_intent, if_pos journaled_phase, bind_of_ok (get_run _)]
        refine (bind_of_ok (modify_run _ _)).trans ?_
        exact setPhase_run .invalidated
  · refine ⟨phase, c, ?_, stage, ?_⟩
    · rw [bind_of_ok found, if_neg (by rw [named]; exact here)]
      rfl
    · rcases later with invalidated | rebuilding | repaired
      · exact Or.inl invalidated
      · exact absurd rebuilding here
      · exact Or.inr repaired

theorem rebuild_run {journal : Table String (MaintenanceIntent V)}
    (ran : CascadeMaintainer.rebuild reprs (some affected) m = .ok m') :
    RecoveryCoordinator.rebuild reprs affected ⟨m, journal⟩ = .ok () ⟨m', journal⟩ := by
  unfold RecoveryCoordinator.rebuild
  rw [bind_of_ok (get_run _)]
  unfold CascadeMaintainer.rebuild at ran
  cases stopped : m.rebuild reprs (some affected) with
  | ok value session =>
      rw [stopped] at ran
      obtain rfl : session.held = m' := Except.ok.inj ran
      rfl
  | error error session =>
      rw [stopped] at ran
      cases ran

theorem Stage.rebuildPhase (stage : Stage reprs m request serial torn phase c)
    (later : phase = .invalidated ∨ phase = .repaired) :
    ∃ c', rebuildPhase reprs (intentId serial) c = .ok () c' ∧
      Stage reprs m request serial torn .repaired c' := by
  obtain ⟨intent, found, named⟩ := stage.intentOf
  unfold RecoveryCoordinator.rebuildPhase
  rcases later with rfl | rfl
  · cases stage with
    | @invalidated m' affected node held rows =>
        obtain ⟨m'', ran, upheld, evidence, assertions, relations, left⟩ :=
          held.upheld.rebuild (some affected)
        have clean : Clean m'' := fun node invalid =>
          (left node invalid).2 (held.covered node (left node invalid).1)
        refine ⟨_, ?_, .repaired affected node upheld clean
          (rows.trans ⟨evidence, assertions, relations⟩)⟩
        rw [bind_of_ok working_intent, if_pos journaled_phase]
        refine (bind_of_ok (rebuild_run ran)).trans ?_
        exact setPhase_run .repaired
  · refine ⟨c, ?_, stage⟩
    rw [bind_of_ok found, if_neg (by rw [named]; simp)]
    rfl

theorem finishPhase_run : finishPhase (intentId serial)
    (request.working serial store .repaired affected node m) = .ok () ⟨m, ∅⟩ := by
  have emptied : (journalOf (request.journaled serial store .repaired affected node)).erase
      (intentId serial) = ∅ := by
    have named : (request.journaled serial store .repaired affected node).id = intentId serial :=
      request.intent_id serial store
    rw [journalOf, named]
    exact AList.ext (List.kerase_cons_eq rfl)
  unfold RecoveryCoordinator.finishPhase
  rw [bind_of_ok working_intent, if_pos journaled_phase, modify_run, ← emptied]
  rfl

theorem Stage.finishPhase (stage : Stage reprs m request serial torn .repaired c) :
    ∃ c', finishPhase (intentId serial) c = .ok () c' ∧ Done reprs m request c' := by
  cases stage with
  | repaired affected node upheld clean rows =>
      exact ⟨_, finishPhase_run, ⟨upheld, clean, rows, rfl⟩⟩

end Stages

section Runs

def Kept (reprs : Reprs V) (m : Materialization V) (request : Request V) (serial : Nat)
    (torn : Prop) (c : RecoveryCoordinator V) : Prop :=
  (∃ phase, Stage reprs m request serial torn phase c) ∨ Done reprs m request c

theorem runUntil_spec (upheld : Upheld reprs m) (clean : Clean m)
    (registered : request.Registered) (accepted : request.Accepted m.store)
    (stage : Stage reprs m request serial torn phase c) {mode : Bool} (safe : torn → mode = true)
    (stop : Option MaintenancePhase) :
    Outcome (runUntil reprs (intentId serial) stop mode) c
      (fun _ c' => Kept reprs m request serial torn c' ∧ (stop = none → Done reprs m request c'))
      fun _ c' => Kept reprs m request serial torn c' ∧ stop ≠ none := by
  obtain ⟨intent, found, named⟩ := stage.intentOf
  unfold runUntil
  rw [Outcome, bind_of_ok found]
  by_cases prepared : stop = some .prepared
  · rw [if_pos prepared]
    exact ⟨Or.inl ⟨phase, stage⟩, fun none => by rw [none] at prepared; cases prepared⟩
  rw [if_neg prepared]
  obtain ⟨phase₁, c₁, ran₁, later₁, stage₁, _⟩ := stage.applyPhase
  rw [bind_of_ok ran₁]
  by_cases canonicalApplied : stop = some .canonicalApplied
  · rw [if_pos canonicalApplied]
    exact ⟨Or.inl ⟨phase₁, stage₁.mono And.left⟩, fun none => by
      rw [none] at canonicalApplied
      cases canonicalApplied⟩
  rw [if_neg canonicalApplied]
  -- A write may be missing only where the intent was found past its preparation, by recovery.
  have redone : (torn ∧ phase ≠ .prepared) →
      (mode && decide (intent.phase ≠ .prepared)) = true := by
    intro lost
    rw [safe lost.1, named, decide_eq_true lost.2]
    rfl
  obtain ⟨phase₂, c₂, ran₂, stage₂, later₂, _⟩ :=
    stage₁.invalidatePhase upheld clean registered accepted redone later₁
  rw [bind_of_ok ran₂]
  by_cases invalidated : stop = some .invalidated
  · rw [if_pos invalidated]
    exact ⟨Or.inl ⟨phase₂, stage₂.mono And.left⟩, fun none => by
      rw [none] at invalidated
      cases invalidated⟩
  rw [if_neg invalidated]
  obtain ⟨intent₂, found₂, named₂⟩ := stage₂.intentOf
  rw [bind_of_ok found₂]
  by_cases part : stop = some .rebuilding ∧ intent₂.phase = .invalidated
  · rw [if_pos part]
    have stage₂ : Stage reprs m request serial torn .invalidated c₂ :=
      (named₂.symm.trans part.2) ▸ stage₂.mono And.left
    refine stage₂.partialPhase.mono (fun _ c' reached => ⟨Or.inl ⟨_, reached⟩, fun none => ?_⟩)
      fun _ c' same => ⟨Or.inl ⟨_, same ▸ stage₂⟩, fun none => ?_⟩
    · rw [none] at part
      cases part.1
    · rw [none] at part
      cases part.1
  rw [if_neg part]
  obtain ⟨phase₃, c₃, ran₃, stage₃, later₃⟩ := stage₂.reinvalidatePhase later₂
  obtain ⟨c₄, ran₄, stage₄⟩ := stage₃.rebuildPhase later₃
  rw [bind_of_ok ran₃, bind_of_ok ran₄]
  by_cases repaired : stop = some .repaired
  · rw [if_pos repaired]
    exact ⟨Or.inl ⟨_, stage₄.mono And.left⟩, fun none => by rw [none] at repaired; cases repaired⟩
  rw [if_neg repaired]
  obtain ⟨c₅, ran₅, done⟩ := stage₄.finishPhase
  exact Outcome.of_ok ran₅ ⟨Or.inr done, fun _ => done⟩

theorem Done.intentOf (done : Done reprs m request c) (name : String) :
    RecoveryCoordinator.intentOf name c = .error (.raised (.keyError name)) c := by
  unfold RecoveryCoordinator.intentOf
  rw [bind_of_ok (get_run _), done.journal]
  rfl

theorem Kept.runUntil (kept : Kept reprs m request serial torn c) (upheld : Upheld reprs m)
    (clean : Clean m) (registered : request.Registered) (accepted : request.Accepted m.store)
    {mode : Bool} (safe : torn → mode = true) (stop : Option MaintenancePhase) :
    Kept reprs m request serial torn
      (finalState (RecoveryCoordinator.runUntil reprs (intentId serial) stop mode c)) := by
  rcases kept with ⟨phase, stage⟩ | done
  · refine Outcome.stops ((runUntil_spec upheld clean registered accepted stage safe stop).mono
      (fun _ _ reached => reached.1) fun _ _ reached => reached.1)
  · have raised : RecoveryCoordinator.runUntil reprs (intentId serial) stop mode c =
        .error (.raised (.keyError (intentId serial))) c := by
      unfold RecoveryCoordinator.runUntil
      exact bind_of_error (done.intentOf _)
    rw [raised]
    exact Or.inr done

/-- The runs of an intent one after the other, each stopped after some phase. -/
def stopped (reprs : Reprs V) (name : String) (mode : Bool)
    (stops : List (Option MaintenancePhase)) (c : RecoveryCoordinator V) : RecoveryCoordinator V :=
  stops.foldl (fun c stop => finalState (RecoveryCoordinator.runUntil reprs name stop mode c)) c

theorem Kept.stopped (kept : Kept reprs m request serial torn c) (upheld : Upheld reprs m)
    (clean : Clean m) (registered : request.Registered) (accepted : request.Accepted m.store)
    {mode : Bool} (safe : torn → mode = true) (stops : List (Option MaintenancePhase)) :
    Kept reprs m request serial torn (stopped reprs (intentId serial) mode stops c) := by
  induction stops generalizing c with
  | nil => exact kept
  | cons stop rest ih => exact ih (kept.runUntil upheld clean registered accepted safe stop)

theorem recoverAll_idle (idle : c.journal = ∅) :
    RecoveryCoordinator.recoverAll reprs c = .ok () c := by
  have nothing : sorted (∅ : Table String (MaintenanceIntent V)).keys.toFinset = [] := by
    rw [AList.keys_empty, List.toFinset_nil, sorted, Finset.sort_empty]
  unfold RecoveryCoordinator.recoverAll
  rw [bind_of_ok (get_run _), idle, nothing]
  rfl

theorem working_listed :
    sorted (request.working serial store phase affected node m).journal.keys.toFinset =
      [intentId serial] := by
  rw [Request.working, journalOf, AList.keys_insert, AList.keys_empty, List.erase_nil,
    ← request.intent_id serial store, sorted, List.toFinset_cons, List.toFinset_nil]
  exact Finset.sort_singleton _ _

theorem Stage.listed (stage : Stage reprs m request serial torn phase c) :
    sorted c.journal.keys.toFinset = [intentId serial] := by
  cases stage <;> exact working_listed

theorem Kept.recoverAll (kept : Kept reprs m request serial torn c) (upheld : Upheld reprs m)
    (clean : Clean m) (registered : request.Registered) (accepted : request.Accepted m.store) :
    ∃ c', RecoveryCoordinator.recoverAll reprs c = .ok () c' ∧ Done reprs m request c' := by
  rcases kept with ⟨phase, stage⟩ | done
  · obtain ⟨_, c', ran, reached⟩ := ((runUntil_spec upheld clean registered accepted stage
      (fun _ => rfl) none).mono (fun _ _ reached => reached.2 rfl)
      fun _ _ reached => reached.2 rfl).total
    refine ⟨c', ?_, reached⟩
    unfold RecoveryCoordinator.recoverAll
    rw [bind_of_ok (get_run _), stage.listed, List.forM_cons]
    exact bind_of_ok ran
  · exact ⟨c, recoverAll_idle done.journal, done⟩

end Runs

section Prepared

theorem insertIntent_spec {intent : MaintenanceIntent V} {name : String}
    (ran : insertIntent intent c = .ok name c') :
    name = intent.id ∧ c' = ⟨c.materialization, journalOf intent⟩ := by
  unfold insertIntent at ran
  rw [bind_of_ok (get_run _)] at ran
  by_cases busy : c.journal.keys ≠ []
  · rw [if_pos busy] at ran
    cases ran
  · rw [if_neg busy, bind_of_ok (modify_run _ _)] at ran
    cases ran
    have empty : c.journal = ∅ := AList.ext (List.map_eq_nil_iff.mp (not_not.mp busy))
    rw [empty]
    exact ⟨rfl, rfl⟩

/-- An accepted intent is the only one of the journal, and nothing else is changed. -/
theorem prepare_spec {name : String} (ran : request.prepare serial c = .ok name c') :
    name = intentId serial ∧ request.Accepted c.materialization.store ∧
      c' = request.working serial c.materialization.store .prepared [] none c.materialization := by
  cases request with
  | upsertEvidence item =>
      obtain ⟨named, after⟩ := insertIntent_spec ran
      exact ⟨named, trivial, after⟩
  | upsertAssertion item =>
      simp only [Request.prepare, prepareUpsertAssertion] at ran
      rw [bind_of_ok (get_run _)] at ran
      obtain ⟨named, after⟩ := insertIntent_spec ran
      exact ⟨named, trivial, after⟩
  | deleteAssertion assertionId =>
      simp only [Request.prepare, prepareDeleteAssertion] at ran
      rw [bind_of_ok (get_run _)] at ran
      cases held : c.materialization.store.assertions.lookup assertionId with
      | none =>
          simp only [held] at ran
          cases ran
      | some previous =>
          simp only [held] at ran
          obtain ⟨named, after⟩ := insertIntent_spec ran
          refine ⟨named, by rw [Request.Accepted, held]; rfl, ?_⟩
          rw [after, Request.working, Request.journaled, Request.intent, held]
          rfl

/-- What may be durable of the work on a prepared intent: what there was when a run stopped after
some phase, the canonical write without the mark that follows it, or the mark without the write. -/
inductive Durable (reprs : Reprs V) (name : String) (c : RecoveryCoordinator V) :
    RecoveryCoordinator V → Prop where
  | stopped (stops : List (Option MaintenancePhase)) :
      Durable reprs name c (stopped reprs name false stops c)
  | written {intent : MaintenanceIntent V} {image : RecoveryCoordinator V}
      (held : c.journal.lookup name = some intent)
      (ran : applyCanonical intent c = .ok () image) : Durable reprs name c image
  | marked {image : RecoveryCoordinator V}
      (ran : setPhase name .canonicalApplied c = .ok () image) : Durable reprs name c image

theorem Durable.kept {image : RecoveryCoordinator V} (upheld : Upheld reprs m) (clean : Clean m)
    (registered : request.Registered) (accepted : request.Accepted m.store)
    (durable : Durable reprs (intentId serial)
      (request.working serial m.store .prepared [] none m) image) :
    Kept reprs m request serial True image := by
  cases durable with
  | stopped stops =>
      have begun : Kept reprs m request serial False
          (request.working serial m.store .prepared [] none m) :=
        Or.inl ⟨_, .prepared [] none (Or.inl rfl)⟩
      rcases begun.stopped upheld clean registered accepted False.elim stops with
        ⟨phase, stage⟩ | done
      · exact Or.inl ⟨phase, stage.mono fun lost => lost.elim⟩
      · exact Or.inr done
  | @written intent _ held ran =>
      have found : intent = request.journaled serial m.store .prepared [] none := by
        have there : (request.working serial m.store .prepared [] none m).journal.lookup
            (intentId serial) = some (request.journaled serial m.store .prepared [] none) := by
          rw [Request.working, journalOf, ← request.intent_id serial m.store]
          exact AList.lookup_insert _
        exact Option.some.inj (held.symm.trans there)
      rw [found, applyCanonical_run] at ran
      cases ran
      exact Or.inl ⟨_, .prepared [] none (Or.inr (request.written_applied m.store))⟩
  | marked ran =>
      rw [setPhase_run] at ran
      cases ran
      exact Or.inl ⟨_, .canonicalApplied [] none (Or.inr ⟨trivial, rfl⟩)⟩

end Prepared

theorem Done.allDerivedFresh (done : Done reprs m request c) : c.AllDerivedFresh := by
  intro node listed
  rw [derivedNodes, mem_sorted, List.mem_toFinset, ← AList.mem_keys, Table.mem_iff] at listed
  rcases done.upheld.status done.clean node with none | fresh
  · rw [DependencyGraph.statusOf] at none
    rw [none] at listed
    cases listed
  · exact fresh

/-- Recovery from whatever may be durable of an accepted intent, after any number of recoveries that
were stopped themselves: it returns with an empty journal, the mutation applied, and the
materialization that would be made anew, all fresh and ready for the next intent; and recovering
again changes nothing. -/
theorem recovery_converges (reprs : Reprs V) (c : RecoveryCoordinator V)
    (upheld : Upheld reprs c.materialization) (clean : Clean c.materialization)
    (request : Request V) (registered : request.Registered) (serial : Nat) (name : String)
    (prepared : RecoveryCoordinator V) (accepted : request.prepare serial c = .ok name prepared)
    (image : RecoveryCoordinator V) (durable : Durable reprs name prepared image)
    (stops : List (Option MaintenancePhase)) :
    ∃ final fresh, recoverAll reprs (stopped reprs name true stops image) = .ok () final ∧
      final.journal = ∅ ∧
      SameRows (request.applied c.materialization.store) final.materialization.store ∧
      final.AllDerivedFresh ∧
      create reprs final.materialization.store.cloneCanonicalStore = .ok fresh ∧
      final.materialization.Equivalent fresh ∧ recoverAll reprs final = .ok () final ∧
      Upheld reprs final.materialization ∧ Clean final.materialization := by
  obtain ⟨rfl, known, rfl⟩ := prepare_spec accepted
  have kept := (durable.kept upheld clean registered known).stopped upheld clean registered known
    (fun _ => rfl) stops
  obtain ⟨final, recovered, done⟩ := kept.recoverAll upheld clean registered known
  obtain ⟨fresh, anew, _, equivalent⟩ := done.upheld.anew
  exact ⟨final, fresh, recovered, done.journal, done.rows, done.allDerivedFresh, anew,
    equivalent done.clean, recoverAll_idle done.journal, done.upheld, done.clean⟩

theorem recovery_converges_sample : ∃ (c prepared final : RecoveryCoordinator Int),
    create intReprs bareStore = .ok c.materialization ∧
      (Request.upsertAssertion (moved "project-x" "deadline" [])).prepare 1 c =
        .ok (intentId 1) prepared ∧
      recoverAll intReprs (stopped intReprs (intentId 1) true [some .rebuilding, some .repaired]
        (stopped intReprs (intentId 1) false [some .invalidated] prepared)) = .ok () final ∧
      final.journal = ∅ ∧ final.AllDerivedFresh ∧ recoverAll intReprs final = .ok () final := by
  obtain ⟨first, made, held⟩ := @create_made _ intReprs bareStore bareStore_known
  have registered : (Request.upsertAssertion (moved "project-x" "deadline" [])).Registered :=
    (by decide : (REGISTRY.lookup "deadline").isSome)
  obtain ⟨upheld, clean⟩ := held.upheld bareStore_known
  obtain ⟨final, _, recovered, journal, _, fresh, _, _, again, _⟩ := recovery_converges intReprs
    ⟨first, ∅⟩ upheld clean
    (.upsertAssertion (moved "project-x" "deadline" [])) registered 1 _ _ rfl _
    (.stopped [some .invalidated]) [some .rebuilding, some .repaired]
  exact ⟨⟨first, ∅⟩, _, final, made, rfl, recovered, journal, fresh, again⟩

end DurableContext.Cascade
