import DurableContext.Cascade.RecoveryRuns

/-! Recovery from an image inside a rebuild. The journal still says `invalidated` there, so that
recovery rebuilds what is invalid and no more: exactly the images without a node in the middle of its
rebuild, and without fresh nodes of what has vanished, come to what would be made anew. -/

namespace DurableContext.Cascade

open DependencyGraph Materialization Program RecoveryCoordinator

variable {V : Type} {reprs : Reprs V} {m m' image fresh : Materialization V} {store : MemoryStore V}
  {affected : List String} {request : Request V} {serial : Nat} {node : Option String}

section Recovered

theorem recoverAll_invalidated {session : Session V}
    (ran : image.rebuild reprs (some affected) = .ok () session) :
    recoverAll reprs (request.working serial store .invalidated affected node image) =
      .ok () ⟨session.held, ∅⟩ := by
  have skipped : ∀ phase : MaintenancePhase,
      (request.journaled serial store .invalidated affected node).phase = phase ↔
        phase = .invalidated := fun phase => eq_comm
  have applied : applyPhase (intentId serial)
      (request.working serial store .invalidated affected node image) =
      .ok () (request.working serial store .invalidated affected node image) := by
    unfold applyPhase
    rw [bind_of_ok working_intent, if_neg (by rw [skipped]; simp)]
    rfl
  have invalidated : ∀ redo, invalidatePhase (intentId serial) redo
      (request.working serial store .invalidated affected node image) =
      .ok () (request.working serial store .invalidated affected node image) := by
    intro redo
    unfold invalidatePhase
    rw [bind_of_ok working_intent, if_neg (by rw [skipped]; simp)]
    rfl
  have reinvalidated : reinvalidatePhase (intentId serial)
      (request.working serial store .invalidated affected node image) =
      .ok () (request.working serial store .invalidated affected node image) := by
    unfold reinvalidatePhase
    rw [bind_of_ok working_intent, if_neg (by rw [skipped]; simp)]
    rfl
  have rebuilt : rebuildPhase reprs (intentId serial)
      (request.working serial store .invalidated affected node image) =
      .ok () (request.working serial store .repaired affected node session.held) := by
    have held : CascadeMaintainer.rebuild reprs (some affected) image = .ok session.held := by
      rw [CascadeMaintainer.rebuild, ran]
    unfold rebuildPhase
    rw [bind_of_ok working_intent, if_pos journaled_phase]
    exact (bind_of_ok (rebuild_run held)).trans (setPhase_run .repaired)
  have worked : runUntil reprs (intentId serial) none true
      (request.working serial store .invalidated affected node image) =
      .ok () ⟨session.held, ∅⟩ := by
    unfold runUntil
    rw [bind_of_ok working_intent, if_neg (by decide), bind_of_ok applied,
      if_neg (by decide), bind_of_ok (invalidated _), if_neg (by decide),
      bind_of_ok working_intent, if_neg fun due => absurd due.1 (by decide),
      bind_of_ok reinvalidated, bind_of_ok rebuilt, if_neg (by decide)]
    exact finishPhase_run
  have listed : sorted (request.working serial store .invalidated affected node
      image).journal.keys.toFinset = [intentId serial] := working_listed
  unfold recoverAll
  rw [bind_of_ok (get_run _), listed, List.forM_cons]
  exact bind_of_ok worked

end Recovered

section Converged

variable {middle final : Session V} {names : List String}

/-- A node that was not invalid is as it was, unless it has been retired. -/
theorem Rebuilt.kept (rebuilt : Rebuilt reprs image names middle final) {node : String}
    (valid : image.graph.statusOf node ≠ some .invalid) :
    middle.held.graph.statusOf node = image.graph.statusOf node ∧ node ∉ middle.rebuilt := by
  constructor
  · rcases rebuilt.advanced.status node with same | ⟨invalid, _⟩
    · exact same
    · exact absurd invalid valid
  · intro member
    rcases rebuilt.advanced.rebuilt node member with before | ⟨invalid, _⟩
    · cases before
    · exact valid invalid

/-- What a rebuild of an image leaves when it has come to all nodes that are invalid there. -/
theorem Rebuilt.converged_iff (rebuilt : Rebuilt reprs image names middle final)
    (sound : Sound reprs image)
    (covered : ∀ node, image.graph.statusOf node = some .invalid → node ∈ names)
    (upheld : Upheld reprs fresh) (clean : Clean fresh)
    (rows : SameRows final.held.store fresh.store) :
    ((∀ node ∈ final.held.graph.derivedNodes, final.held.graph.statusOf node = some .fresh) ∧
        final.held.Equivalent fresh) ↔ Settled image ∧ Tidy image := by
  have retired := rebuilt.cleared.retired
  have shaped := rebuilt.advanced.ready.shaped
  have kept : SameRows image.store final.held.store := by
    refine ⟨?_, rebuilt.assertions, ?_⟩
    · rw [retired.store]
      exact rebuilt.advanced.evidence
    · rw [retired.store]
      exact rebuilt.advanced.relations
  constructor
  · intro converged
    obtain ⟨whole, _, _, _, _, _, _, statuses, _⟩ := converged
    -- A target that is fresh here is fresh there, so that there is something to derive it from.
    have present : ∀ target : Target, target.Proper →
        final.held.statusOf target = some .fresh → target.Present image.store := by
      intro target proper held
      have same : fresh.statusOf target = some .fresh :=
        (Table.same_iff.mp statuses target.node).symm.trans held
      have there := (upheld.registered clean proper).mp (by rw [same]; rfl)
      exact (Target.present_congr (rows.assertions.trans kept.assertions)).mp there
    refine ⟨?_, ?_, ?_⟩
    · intro node working
      have before := (rebuilt.kept (by rw [working]; simp)).1.trans working
      have after : final.held.graph.statusOf node = some .rebuilding := by
        rcases retired.status_node shaped node with same | ⟨held, _⟩
        · exact same.trans before
        · rw [before] at held
          cases held
      have listed : node ∈ final.held.graph.derivedNodes := by
        rw [derivedNodes, mem_sorted, List.mem_toFinset, ← AList.mem_keys, Table.mem_iff]
        exact Option.isSome_of_eq_some after
      rw [whole node listed] at after
      cases after
    · intro subject held
      obtain ⟨same, out⟩ := @Rebuilt.kept _ _ _ _ _ _ rebuilt (Target.profile subject).node
        (by rw [show image.graph.statusOf _ = _ from held]; simp)
      exact present (.profile subject) trivial
        ((rebuilt.profiles subject out).trans (same.trans held))
    · intro key proper vanished fresh target here
      have valid : ∀ other ∈ chain key, image.graph.statusOf other.node ≠ some .invalid := by
        intro other there
        rcases fresh other there with none | held
        · rw [show image.graph.statusOf _ = _ from none]
          simp
        · rw [show image.graph.statusOf _ = _ from held]
          simp
      have out : ∀ other ∈ chain key, other.node ∉ middle.rebuilt :=
        fun other there => (rebuilt.kept (valid other there)).2
      rcases fresh target here with none | held
      · exact none
      · have after := (rebuilt.chains key proper out target here).trans
          ((rebuilt.kept (valid target here)).1.trans held)
        have some := present target (mem_chain_proper proper here) after
        rcases mem_chain.mp here with rfl | rfl | rfl <;> exact absurd vanished some
  · intro condition
    have begun : Upheld reprs image := ⟨sound, condition.2, condition.1⟩
    have upheld' := begun.rebuilt rebuilt
    have clean' : Clean final.held := by
      intro node invalid
      have before : middle.held.graph.statusOf node = some .invalid := by
        rcases retired.status_node shaped node with same | ⟨_, gone⟩
        · exact same.symm.trans invalid
        · rw [gone] at invalid
          cases invalid
      exact rebuilt.targets node (covered node (rebuilt.advanced.invalid before)) before
    refine ⟨fun node listed => ?_,
      upheld'.equivalent upheld clean' clean rows.evidence rows.assertions rows.relations⟩
    rw [derivedNodes, mem_sorted, List.mem_toFinset, ← AList.mem_keys, Table.mem_iff] at listed
    rcases upheld'.status clean' node with none | held
    · rw [DependencyGraph.statusOf] at none
      rw [none] at listed
      cases listed
    · exact held

end Converged

section Halted

/-- Nothing stops an accepted intent on its way to the invalidation. -/
theorem halts (upheld : Upheld reprs m) (clean : Clean m) (registered : request.Registered)
    (accepted : request.Accepted m.store) :
    ∃ affected m', invalidated { request.intent serial m.store with phase := .canonicalApplied }
        { m with store := request.applied m.store } = .ok (affected, m') ∧
      runUntil reprs (intentId serial) (some .invalidated) false
          (request.working serial m.store .prepared [] none m) =
        .ok () (request.working serial m.store .invalidated affected none m') ∧
      Repairable reprs m' affected ∧ m'.store = request.applied m.store := by
  obtain ⟨affected, m', named, repairable, store⟩ := upheld.repairable clean registered accepted
    (request.written_applied m.store) serial .canonicalApplied
  refine ⟨affected, m', named, ?_, repairable, store⟩
  have applied : applyPhase (intentId serial) (request.working serial m.store .prepared [] none m) =
      .ok () (request.working serial m.store .canonicalApplied [] none
        { m with store := request.applied m.store }) := by
    unfold applyPhase
    rw [bind_of_ok working_intent, if_pos journaled_phase, bind_of_ok applyCanonical_run]
    exact setPhase_run .canonicalApplied
  have invalidated : invalidatePhase (intentId serial) false
      (request.working serial m.store .canonicalApplied [] none
        { m with store := request.applied m.store }) =
      .ok () (request.working serial m.store .invalidated affected none m') := by
    unfold invalidatePhase
    rw [bind_of_ok working_intent, if_pos journaled_phase]
    refine (bind_of_ok (pure_run _ _)).trans ?_
    rw [bind_of_ok (invalidate_run named)]
    exact setPhase_run .invalidated
  unfold runUntil
  rw [bind_of_ok working_intent, if_neg (by decide), bind_of_ok applied, if_neg (by decide)]
  exact (bind_of_ok invalidated).trans (by rw [if_pos rfl]; rfl)

theorem working_lookup {phase : MaintenancePhase} :
    (request.working serial store phase affected node m).journal.lookup (intentId serial) =
      some (request.journaled serial store phase affected node) := by
  rw [Request.working, journalOf, ← request.intent_id serial store]
  exact AList.lookup_insert _

/-- What recovery makes of an image inside a rebuild of all that is invalid. -/
theorem Repairable.image_recovers (held : Repairable reprs m affected) {session : Session V}
    (rebuilding : m.rebuild reprs (some affected) = .ok () session) (member : image ∈ session.images) :
    ∃ final fresh, recoverAll reprs (request.working serial store .invalidated affected node image) =
        .ok () final ∧ final.journal = ∅ ∧ SameRows m.store final.materialization.store ∧
      create reprs final.materialization.store.cloneCanonicalStore = .ok fresh ∧
      ((final.AllDerivedFresh ∧ final.materialization.Equivalent fresh) ↔
        Settled image ∧ Tidy image) := by
  have outcome := @rebuild_spec _ reprs _ held.upheld.toShaped held.upheld.known (some affected)
  have ran : Session.rebuild reprs (some affected) (.start m) = .ok () session := rebuilding
  rw [Outcome, ran] at outcome
  obtain ⟨middle, rebuilt⟩ := outcome
  have passed := rebuilt.passed image member
  have sound : Sound reprs image := passed.sound held.upheld.toSound held.upheld.settled
  obtain ⟨_, session', recovering, middle', rebuilt'⟩ :=
    (@rebuild_spec _ reprs _ sound.toShaped sound.known (some affected)).total
  have reached : SameRows image.store session'.held.store := by
    refine ⟨?_, rebuilt'.assertions, ?_⟩
    · rw [rebuilt'.cleared.retired.store]
      exact rebuilt'.advanced.evidence
    · rw [rebuilt'.cleared.retired.store]
      exact rebuilt'.advanced.relations
  have knownRows : Known session'.held.store.cloneCanonicalStore :=
    (reached.known sound.known).same MemoryStore.cloneCanonicalStore_assertions
  obtain ⟨fresh, anew, made⟩ := @create_made _ reprs _ knownRows
  obtain ⟨upheld', clean'⟩ := made.upheld knownRows
  have cloned : SameRows session'.held.store fresh.store :=
    ⟨made.evidence.trans MemoryStore.cloneCanonicalStore_evidence,
      made.assertions.trans MemoryStore.cloneCanonicalStore_assertions,
      made.relations.trans MemoryStore.cloneCanonicalStore_relations⟩
  have rows : SameRows m.store image.store :=
    ⟨passed.evidence, passed.assertions, passed.relations⟩
  refine ⟨⟨session'.held, ∅⟩, fresh, recoverAll_invalidated recovering, rfl, rows.trans reached,
    anew, ?_⟩
  exact rebuilt'.converged_iff sound
    (fun node invalid => held.covered node (passed.invalid node invalid)) upheld' clean' cloned

end Halted

/-- The rebuild of an accepted intent, whose journal stays invalidated until it ends: from every image
that it writes on the way recovery returns with an empty journal and the mutation applied, but with
what would be made anew exactly when no node of the image is in the middle of its rebuild and nothing
that has vanished is left of it as fresh. -/
theorem rebuild_image_recovers_iff (reprs : Reprs V) (c : RecoveryCoordinator V)
    (upheld : Upheld reprs c.materialization) (clean : Clean c.materialization)
    (request : Request V) (registered : request.Registered) (serial : Nat) (name : String)
    (prepared : RecoveryCoordinator V) (accepted : request.prepare serial c = .ok name prepared) :
    ∃ halted intent session,
      runUntil reprs name (some .invalidated) false prepared = .ok () halted ∧
      halted.journal.lookup name = some intent ∧ intent.phase = .invalidated ∧
      halted.materialization.rebuild reprs (some intent.affectedNodeIds) = .ok () session ∧
      ∀ image ∈ session.images, ∃ final fresh,
        recoverAll reprs { halted with materialization := image } = .ok () final ∧
        final.journal = ∅ ∧
        SameRows (request.applied c.materialization.store) final.materialization.store ∧
        create reprs final.materialization.store.cloneCanonicalStore = .ok fresh ∧
        ((final.AllDerivedFresh ∧ final.materialization.Equivalent fresh) ↔
          Settled image ∧ Tidy image) := by
  obtain ⟨rfl, known, rfl⟩ := prepare_spec accepted
  obtain ⟨affected, m', _, ran, held, store⟩ := halts upheld clean registered known
  obtain ⟨_, session, rebuilding, _⟩ :=
    (@rebuild_spec _ reprs _ held.upheld.toShaped held.upheld.known (some affected)).total
  refine ⟨_, _, session, ran, working_lookup, rfl, rebuilding, fun image member => ?_⟩
  rw [← store]
  exact held.image_recovers rebuilding member

theorem rebuild_image_recovers_iff_sample :
    ∃ (c prepared halted : RecoveryCoordinator Int) (intent : MaintenanceIntent Int)
      (session : Session Int),
      create intReprs bareStore = .ok c.materialization ∧
      (Request.upsertAssertion (moved "project-x" "deadline" [])).prepare 1 c =
        .ok (intentId 1) prepared ∧
      runUntil intReprs (intentId 1) (some .invalidated) false prepared = .ok () halted ∧
      halted.journal.lookup (intentId 1) = some intent ∧
      halted.materialization.rebuild intReprs (some intent.affectedNodeIds) = .ok () session ∧
      ∀ image ∈ session.images, ∃ final fresh,
        recoverAll intReprs { halted with materialization := image } = .ok () final ∧
        create intReprs final.materialization.store.cloneCanonicalStore = .ok fresh ∧
        ((final.AllDerivedFresh ∧ final.materialization.Equivalent fresh) ↔
          Settled image ∧ Tidy image) := by
  obtain ⟨first, made, held⟩ := @create_made _ intReprs bareStore bareStore_known
  have registered : (Request.upsertAssertion (moved "project-x" "deadline" [])).Registered :=
    (by decide : (REGISTRY.lookup "deadline").isSome)
  obtain ⟨upheld, clean⟩ := held.upheld bareStore_known
  obtain ⟨halted, intent, session, ran, journal, _, rebuilt, images⟩ :=
    rebuild_image_recovers_iff intReprs ⟨first, ∅⟩ upheld clean
      (.upsertAssertion (moved "project-x" "deadline" [])) registered 1 _ _ rfl
  refine ⟨⟨first, ∅⟩, _, halted, intent, session, made, rfl, ran, journal, rebuilt,
    fun image member => ?_⟩
  obtain ⟨final, fresh, recovered, _, _, anew, converged⟩ := images image member
  exact ⟨final, fresh, recovered, anew, converged⟩

section Taken

/-- What may be durable while an intent is worked on: what a run leaves between its phases or around
a torn canonical write, and what each write inside the rebuild leaves. -/
inductive Taken (reprs : Reprs V) (name : String) (prepared : RecoveryCoordinator V) :
    RecoveryCoordinator V → Prop where
  | between {image : RecoveryCoordinator V} (durable : Durable reprs name prepared image) :
      Taken reprs name prepared image
  | inside {halted : RecoveryCoordinator V} {intent : MaintenanceIntent V}
      {image : Materialization V}
      (ran : runUntil reprs name (some .invalidated) false prepared = .ok () halted)
      (held : halted.journal.lookup name = some intent)
      (written : image ∈
        (finalState (halted.materialization.rebuild reprs (some intent.affectedNodeIds))).images) :
      Taken reprs name prepared { halted with materialization := image }

/-- Recovery from an image carries out the request that was accepted over the store. -/
def Recovers (reprs : Reprs V) (store : MemoryStore V) (request : Request V)
    (image : RecoveryCoordinator V) : Prop :=
  ∃ final fresh, recoverAll reprs image = .ok () final ∧ final.journal = ∅ ∧
    SameRows (request.applied store) final.materialization.store ∧ final.AllDerivedFresh ∧
    create reprs final.materialization.store.cloneCanonicalStore = .ok fresh ∧
    final.materialization.Equivalent fresh ∧ recoverAll reprs final = .ok () final

/-- A journal that says `invalidated` is taken at its word by recovery: it rebuilds what is invalid
and looks at nothing else. -/
def Undivided (name : String) (image : RecoveryCoordinator V) : Prop :=
  ∀ intent, image.journal.lookup name = some intent → intent.phase = .invalidated →
    Settled image.materialization ∧ Tidy image.materialization

theorem Recovers.registered {taken : RecoveryCoordinator V}
    (recovers : Recovers reprs store request taken) : request.Registered := by
  obtain ⟨final, fresh, _, _, rows, _, anew, _⟩ := recovers
  have cloned := (create_known anew).same MemoryStore.cloneCanonicalStore_assertions.symm
  have known : Known (request.applied store) := cloned.same rows.assertions.symm
  cases request with
  | upsertAssertion item =>
      refine known item.id item ?_
      rw [Request.applied, MemoryStore.addAssertion_assertions]
      exact AList.lookup_insert _
  | upsertEvidence item | deleteAssertion assertionId => trivial

theorem Kept.undivided {taken : RecoveryCoordinator V} {torn : Prop}
    (kept : Kept reprs m request serial torn taken) : Undivided (intentId serial) taken := by
  intro intent found invalidated
  rcases kept with ⟨phase, stage⟩ | done
  · cases stage with
    | invalidated node held rows => exact ⟨held.upheld.settled, held.upheld.toTidy⟩
    | prepared | canonicalApplied | rebuilding | repaired =>
        rw [working_lookup] at found
        cases found
        cases invalidated
  · rw [done.journal] at found
    cases found

theorem Kept.recovers {taken : RecoveryCoordinator V} (upheld : Upheld reprs m) (clean : Clean m)
    (registered : request.Registered) (accepted : request.Accepted m.store)
    (kept : Kept reprs m request serial True taken) : Recovers reprs m.store request taken := by
  obtain ⟨final, recovered, done⟩ := kept.recoverAll upheld clean registered accepted
  obtain ⟨fresh, anew, _, equivalent⟩ := done.upheld.anew
  exact ⟨final, fresh, recovered, done.journal, done.rows, done.allDerivedFresh, anew,
    equivalent done.clean, recoverAll_idle done.journal⟩

/-- Inside the rebuild the journal still says `invalidated`. -/
theorem Repairable.recovers_iff (held : Repairable reprs m affected)
    (rows : m.store = request.applied store)
    (written : image ∈ (finalState (m.rebuild reprs (some affected))).images) :
    Recovers reprs store request
        (request.working serial store .invalidated affected none image) ↔
      Settled image ∧ Tidy image := by
  obtain ⟨_, session, rebuilding, _⟩ :=
    (@rebuild_spec _ reprs _ held.upheld.toShaped held.upheld.known (some affected)).total
  have ran : m.rebuild reprs (some affected) = .ok () session := rebuilding
  rw [ran] at written
  obtain ⟨final, fresh, recovered, journal, same, anew, converged⟩ :=
    @Repairable.image_recovers _ reprs m image store affected request serial none held session ran
      written
  rw [← converged]
  constructor
  · rintro ⟨final', fresh', recovered', _, _, whole, anew', equivalent, _⟩
    cases recovered.symm.trans recovered'
    cases anew.symm.trans anew'
    exact ⟨whole, equivalent⟩
  · rintro ⟨whole, equivalent⟩
    exact ⟨final, fresh, recovered, journal, rows ▸ same, whole, anew, equivalent,
      recoverAll_idle journal⟩

/-- A written assertion makes the state of its key invalid, and its rebuild passes an image in which
it is not done. -/
theorem upsert_not_recovered (upheld : Upheld reprs m) (clean : Clean m) {item : Assertion V}
    (registered : (REGISTRY.lookup item.predicate).isSome) (serial : Nat) :
    ∃ taken, Taken reprs (intentId serial)
        ((Request.upsertAssertion item).working serial m.store .prepared [] none m) taken ∧
      taken.materialization.graph.statusOf (stateNode item.key) = some .rebuilding ∧
      ¬ Recovers reprs m.store (.upsertAssertion item) taken := by
  obtain ⟨affected, m', named, ran, held, store⟩ :=
    @halts _ reprs m (.upsertAssertion item) serial upheld clean registered trivial
  have shaped : Shaped { m with store := m.store.addAssertion item } :=
    upheld.toShaped.congr rfl rfl rfl
  have invalid : m'.graph.statusOf (stateNode item.key) = some .invalid := by
    have listed : item.key ∈
        (CascadeMaintainer.upsertSeeds item (m.store.assertions.lookup item.id)).1 := by
      simp [CascadeMaintainer.upsertSeeds]
    cases Except.ok.inj named
    exact invalidateSeeds_invalid shaped (upheld.known.upsertKeys registered) _ listed
  obtain ⟨_, session, rebuilding, middle, rebuilt⟩ :=
    (@rebuild_spec _ reprs _ held.upheld.toShaped held.upheld.known (some affected)).total
  obtain ⟨image, written, working⟩ := rebuilt.marked (held.covered _ invalid) invalid
  have final : (finalState (m'.rebuild reprs (some affected))).images = session.images := by
    rw [show m'.rebuild reprs (some affected) = .ok () session from rebuilding]
    rfl
  refine ⟨_, .inside ran working_lookup (final ▸ written), working, fun recovers => ?_⟩
  exact ((held.recovers_iff store (final ▸ written)).mp recovers).1 _ working

end Taken

/-- Recovery from an image of the work on an accepted intent comes to the store with the intent
applied and the materialization that would be made anew just when the predicate it writes is
registered and nothing in the image is half done under a journal that says `invalidated`. -/
theorem image_recovers_iff (reprs : Reprs V) (c : RecoveryCoordinator V)
    (labelled : Labelled c.materialization) (fresh : Materialization V)
    (anew : create reprs c.materialization.store.cloneCanonicalStore = .ok fresh)
    (equivalent : c.materialization.Equivalent fresh) (request : Request V) (serial : Nat)
    (name : String) (prepared : RecoveryCoordinator V)
    (accepted : request.prepare serial c = .ok name prepared) (image : RecoveryCoordinator V)
    (taken : Taken reprs name prepared image) :
    Recovers reprs c.materialization.store request image ↔
      request.Registered ∧ Undivided name image := by
  obtain ⟨upheld, clean⟩ := labelled.upheld anew equivalent
  obtain ⟨rfl, known, rfl⟩ := prepare_spec accepted
  cases taken with
  | between durable =>
      have kept := fun registered => durable.kept upheld clean registered known
      exact ⟨fun recovers => ⟨recovers.registered, (kept recovers.registered).undivided⟩,
        fun condition => (kept condition.1).recovers upheld clean condition.1 known⟩
  | @inside halted intent image ran held written =>
      have exact_ : request.Registered → (Recovers reprs c.materialization.store request
          { halted with materialization := image } ↔ Settled image ∧ Tidy image) ∧
          intent.phase = .invalidated := by
        intro registered
        obtain ⟨affected, m', _, ran', repairable, store⟩ := halts upheld clean registered known
        cases ran.symm.trans ran'
        rw [working_lookup] at held
        cases held
        exact ⟨repairable.recovers_iff store written, rfl⟩
      constructor
      · intro recovers
        refine ⟨recovers.registered, fun _ _ _ => ?_⟩
        exact (exact_ recovers.registered).1.mp recovers
      · rintro ⟨registered, undivided⟩
        obtain ⟨iff_, invalidated⟩ := exact_ registered
        exact iff_.mpr (undivided intent held invalidated)

theorem image_recovers_iff_sample :
    ∃ (c prepared taken : RecoveryCoordinator Int),
      create intReprs bareStore = .ok c.materialization ∧
      (Request.upsertAssertion (moved "project-x" "deadline" [])).prepare 1 c =
        .ok (intentId 1) prepared ∧
      (∀ stops, Recovers intReprs c.materialization.store
          (.upsertAssertion (moved "project-x" "deadline" []))
          (stopped intReprs (intentId 1) false stops prepared) ↔
        (Request.upsertAssertion (moved "project-x" "deadline" [])).Registered ∧
          Undivided (intentId 1) (stopped intReprs (intentId 1) false stops prepared)) ∧
      Taken intReprs (intentId 1) prepared taken ∧
      ¬ ((Request.upsertAssertion (moved "project-x" "deadline" [])).Registered ∧
        Undivided (intentId 1) taken) := by
  obtain ⟨first, made, held⟩ := @create_made _ intReprs bareStore bareStore_known
  obtain ⟨upheld, clean⟩ := held.upheld bareStore_known
  obtain ⟨taken, passed, _, lost⟩ := @upsert_not_recovered _ intReprs first upheld clean
    (moved "project-x" "deadline" []) (by decide) 1
  obtain ⟨fresh, anew, _, equivalent⟩ := upheld.anew
  have exactly := image_recovers_iff intReprs ⟨first, ∅⟩ (upheld.labelled clean) fresh anew
    (equivalent clean) (.upsertAssertion (moved "project-x" "deadline" [])) 1 _ _ rfl
  exact ⟨⟨first, ∅⟩, _, taken, made, rfl, fun stops => exactly _ (.between (.stopped stops)), passed,
    fun condition => lost ((exactly taken passed).mpr condition)⟩

/-- A first assertion is written. While its state is rebuilt the journal says `invalidated`, and from
there recovery leaves the node in the middle of its rebuild. -/
theorem rebuild_image_not_recovered :
    ∃ (c prepared taken : RecoveryCoordinator Int),
      create intReprs bareStore = .ok c.materialization ∧ c.journal = ∅ ∧
      (Request.upsertAssertion (moved "project-x" "deadline" [])).prepare 1 c =
        .ok (intentId 1) prepared ∧
      Taken intReprs (intentId 1) prepared taken ∧
      taken.materialization.graph.statusOf "state:project-x:deadline:default" =
        some .rebuilding ∧
      ¬ Recovers intReprs c.materialization.store
        (.upsertAssertion (moved "project-x" "deadline" [])) taken := by
  obtain ⟨first, made, held⟩ := @create_made _ intReprs bareStore bareStore_known
  obtain ⟨upheld, clean⟩ := held.upheld bareStore_known
  obtain ⟨taken, passed, working, lost⟩ := @upsert_not_recovered _ intReprs first upheld clean
    (moved "project-x" "deadline" []) (by decide) 1
  exact ⟨⟨first, ∅⟩, _, taken, made, rfl, rfl, passed, working, lost⟩

end DurableContext.Cascade
