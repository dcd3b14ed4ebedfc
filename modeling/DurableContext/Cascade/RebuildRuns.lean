import DurableContext.Cascade.Renewal

/-! A rebuild runs to its end and leaves none of its targets invalid; every image on the way is as
sound as what it started from. -/

namespace DurableContext.Cascade

open DependencyGraph Materialization Program Session

variable {V : Type} {reprs : Reprs V} {m m' m'' : Materialization V} {target other : Target}
  {session session' session'' : Session V} {node : String}

theorem Touched.status_node (touched : Touched target m m') (shaped : Shaped m)
    (apart : node ≠ target.node) : m'.graph.statusOf node = m.graph.statusOf node := by
  have same : ∀ other : Target, other.Proper → other.node = node →
      m'.graph.statusOf node = m.graph.statusOf node := by
    intro other proper names
    rw [← names]
    exact touched.status other proper fun same => apart (by rw [← names, same])
  by_cases before : (m.graph.statusOf node).isSome
  · obtain ⟨other, proper, names⟩ := shaped.named node before
    exact same other proper names
  · by_cases after : (m'.graph.statusOf node).isSome
    · obtain ⟨other, proper, names⟩ := touched.shaped.named node after
      exact same other proper names
    · rw [Option.not_isSome_iff_eq_none.mp before, Option.not_isSome_iff_eq_none.mp after]

structure Passed (reprs : Reprs V) (m image : Materialization V) : Prop where
  shaped : Shaped image
  evidence : image.store.evidence = m.store.evidence
  assertions : image.store.assertions = m.store.assertions
  relations : image.store.relations = m.store.relations
  invalid : ∀ node, image.graph.statusOf node = some .invalid → m.graph.statusOf node = some .invalid
  sound : Sound reprs m → Settled m → Sound reprs image

structure Ready (session : Session V) : Prop where
  shaped : Shaped session.held
  known : Known session.held.store
  done : ∀ node ∈ session.done, session.held.graph.statusOf node ≠ some .invalid

/-- What a rebuild does on its way: some nodes that were invalid are fresh, and have been rebuilt. -/
structure Advanced (reprs : Reprs V) (session session' : Session V) : Prop where
  ready : Ready session'
  evidence : session'.held.store.evidence = session.held.store.evidence
  assertions : session'.held.store.assertions = session.held.store.assertions
  relations : session'.held.store.relations = session.held.store.relations
  keyByNode : session'.held.keyByNode = session.held.keyByNode
  subjectByProfileNode : session'.held.subjectByProfileNode = session.held.subjectByProfileNode
  visiting : session'.visiting = session.visiting
  status : ∀ node, session'.held.graph.statusOf node = session.held.graph.statusOf node ∨
    (session.held.graph.statusOf node = some .invalid ∧
      session'.held.graph.statusOf node = some .fresh ∧ node ∈ session'.rebuilt)
  guarded : ∀ node ∈ session.visiting,
    session'.held.graph.statusOf node = session.held.graph.statusOf node
  kept : session.rebuilt ⊆ session'.rebuilt
  rebuilt : ∀ node ∈ session'.rebuilt, node ∈ session.rebuilt ∨
    (session.held.graph.statusOf node = some .invalid ∧
      session'.held.graph.statusOf node = some .fresh)
  sound : Sound reprs session.held → Settled session.held →
    Sound reprs session'.held ∧ Settled session'.held
  images : ∀ image ∈ session'.images, image ∈ session.images ∨ Passed reprs session.held image
  longer : session.images ⊆ session'.images
  marked : ∀ node ∈ session'.rebuilt, node ∈ session.rebuilt ∨
    ∃ image ∈ session'.images, image.graph.statusOf node = some .rebuilding

theorem Advanced.refl (ready : Ready session) : Advanced reprs session session where
  ready := ready
  evidence := rfl
  assertions := rfl
  relations := rfl
  keyByNode := rfl
  subjectByProfileNode := rfl
  visiting := rfl
  status := fun _ => Or.inl rfl
  guarded := fun _ _ => rfl
  kept := Finset.Subset.refl _
  rebuilt := fun _ member => Or.inl member
  sound := fun sound settled => ⟨sound, settled⟩
  images := fun _ member => Or.inl member
  longer := List.Subset.refl _
  marked := fun _ member => Or.inl member

theorem Advanced.invalid (advanced : Advanced reprs session session')
    (after : session'.held.graph.statusOf node = some .invalid) :
    session.held.graph.statusOf node = some .invalid := by
  rcases advanced.status node with same | ⟨_, fresh, _⟩
  · rw [← same]
    exact after
  · rw [fresh] at after
    cases after

theorem Advanced.registered (advanced : Advanced reprs session session') :
    (session'.held.graph.statusOf node).isSome ↔ (session.held.graph.statusOf node).isSome := by
  rcases advanced.status node with same | ⟨before, fresh, _⟩
  · rw [same]
  · rw [before, fresh]
    exact Iff.rfl

theorem Advanced.trans (first : Advanced reprs session session')
    (second : Advanced reprs session' session'') : Advanced reprs session session'' where
  ready := second.ready
  evidence := second.evidence.trans first.evidence
  assertions := second.assertions.trans first.assertions
  relations := second.relations.trans first.relations
  keyByNode := second.keyByNode.trans first.keyByNode
  subjectByProfileNode := second.subjectByProfileNode.trans first.subjectByProfileNode
  visiting := second.visiting.trans first.visiting
  status := by
    intro node
    rcases second.status node with same | ⟨before, fresh, member⟩
    · rcases first.status node with same' | ⟨before, fresh, member⟩
      · exact Or.inl (same.trans same')
      · exact Or.inr ⟨before, same.trans fresh, second.kept member⟩
    · exact Or.inr ⟨first.invalid before, fresh, member⟩
  guarded := by
    intro node member
    rw [second.guarded node (by rw [first.visiting]; exact member), first.guarded node member]
  kept := first.kept.trans second.kept
  rebuilt := by
    intro node member
    rcases second.rebuilt node member with before | ⟨invalid, fresh⟩
    · rcases first.rebuilt node before with earlier | ⟨invalid, fresh⟩
      · exact Or.inl earlier
      · refine Or.inr ⟨invalid, ?_⟩
        rcases second.status node with same | ⟨again, _, _⟩
        · rw [same]
          exact fresh
        · rw [fresh] at again
          cases again
    · exact Or.inr ⟨first.invalid invalid, fresh⟩
  sound := by
    intro sound settled
    obtain ⟨sound', settled'⟩ := first.sound sound settled
    exact second.sound sound' settled'
  images := by
    intro image member
    rcases second.images image member with before | passed
    · exact first.images image before
    · refine Or.inr ⟨passed.shaped, passed.evidence.trans first.evidence,
        passed.assertions.trans first.assertions, passed.relations.trans first.relations,
        fun node invalid => first.invalid (passed.invalid node invalid), ?_⟩
      intro sound settled
      obtain ⟨sound', settled'⟩ := first.sound sound settled
      exact passed.sound sound' settled'
  longer := List.Subset.trans first.longer second.longer
  marked := by
    intro node member
    rcases second.marked node member with before | marked
    · rcases first.marked node before with earlier | ⟨image, passed, working⟩
      · exact Or.inl earlier
      · exact Or.inr ⟨image, second.longer passed, working⟩
    · exact Or.inr marked

def Target.rank : Target → Nat
  | .profile _ => 0
  | .state _ => 0
  | .support _ => 1
  | .context _ => 2

theorem Target.rank_below (below : target.below = some other) : other.rank < target.rank := by
  cases target <;> cases below <;> exact Nat.lt_succ_self _

/-- The dependencies of a node that are invalid, one after the other. -/
def rebuildDependencies (reprs : Reprs V) (fuel : Nat) (dependencies : List String) :
    Op Raised (Session V) Unit :=
  forM dependencies fun dependency => do
    if (← get).held.graph.statusOf dependency = some .invalid then
      rebuildNode reprs fuel dependency
    else pure ()

theorem rebuildNode_done (fuel : Nat) (done : node ∈ session.done) :
    rebuildNode reprs (fuel + 1) node session = .ok ⟨⟩ session := by
  unfold rebuildNode
  rw [bind_of_ok (get_run _), if_pos done, pure_run]

theorem rebuildNode_kept (fuel : Nat) (fresh : node ∉ session.done)
    (idle : session.held.graph.statusOf node ≠ some .invalid) :
    rebuildNode reprs (fuel + 1) node session =
      .ok ⟨⟩ { session with done := insert node session.done } := by
  unfold rebuildNode
  rw [bind_of_ok (get_run _), if_neg fresh, if_pos idle, set_run]

theorem rebuildNode_invalid (fuel : Nat) (fresh : node ∉ session.done)
    (invalid : session.held.graph.statusOf node = some .invalid) (unseen : node ∉ session.visiting) :
    rebuildNode reprs (fuel + 1) node session =
      (do
        rebuildDependencies reprs fuel (sorted (session.held.graph.dependenciesOf node))
        finishNode reprs node : Op Raised (Session V) Unit)
        { session with visiting := insert node session.visiting } := by
  rw [rebuildNode, bind_of_ok (get_run _), if_neg fresh, if_neg (not_not.mpr invalid),
    if_neg unseen, bind_of_ok (set_run _ _)]
  rfl

theorem rebuildNode_idle (fuel : Nat) (ready : Ready session)
    (idle : session.held.graph.statusOf node ≠ some .invalid) :
    Outcome (rebuildNode reprs (fuel + 1) node) session
      (fun _ final => Advanced reprs session final) fun _ _ => False := by
  by_cases done : node ∈ session.done
  · exact Outcome.of_ok (rebuildNode_done fuel done) (.refl ready)
  · refine Outcome.of_ok (rebuildNode_kept fuel done idle) ?_
    have settled : Ready { session with done := insert node session.done } := by
      refine ⟨ready.shaped, ready.known, fun other member => ?_⟩
      rcases Finset.mem_insert.mp member with same | before
      · rw [same]
        exact idle
      · exact ready.done other before
    exact { Advanced.refl ready with ready := settled }

theorem rebuildDependencies_spec (fuel : Nat) (dependencies : List String) (ready : Ready session)
    (each : ∀ name ∈ dependencies, ∀ start : Session V, Ready start →
      start.visiting = session.visiting → start.held.graph.statusOf name = some .invalid →
      Outcome (rebuildNode reprs fuel name) start
        (fun _ final => Advanced reprs start final ∧
          final.held.graph.statusOf name ≠ some .invalid) fun _ _ => False) :
    Outcome (rebuildDependencies reprs fuel dependencies) session
      (fun _ final => Advanced reprs session final ∧
        ∀ name ∈ dependencies, final.held.graph.statusOf name ≠ some .invalid)
      fun _ _ => False := by
  induction dependencies generalizing session with
  | nil => exact Outcome.of_ok (pure_run _ _) ⟨.refl ready, fun name member => by cases member⟩
  | cons name rest ih =>
      rw [rebuildDependencies, List.forM_cons]
      have first : Outcome (do
          if (← get).held.graph.statusOf name = some .invalid then rebuildNode reprs fuel name
          else pure () : Op Raised (Session V) Unit) session
          (fun _ final => Advanced reprs session final ∧
            final.held.graph.statusOf name ≠ some .invalid) fun _ _ => False := by
        by_cases invalid : session.held.graph.statusOf name = some .invalid
        · have outcome := each name List.mem_cons_self session ready rfl invalid
          rw [Outcome, bind_of_ok (get_run _), if_pos invalid]
          exact outcome
        · rw [Outcome, bind_of_ok (get_run _), if_neg invalid, pure_run]
          exact ⟨.refl ready, invalid⟩
      refine Outcome.bind first fun _ middle reached => ?_
      obtain ⟨advanced, settled⟩ := reached
      refine (ih advanced.ready fun other member start ready' visiting invalid =>
        each other (List.mem_cons_of_mem _ member) start ready' (visiting.trans advanced.visiting)
          invalid).mono (fun _ final reached => ?_) fun _ _ absurdity => absurdity
      obtain ⟨advanced', rest'⟩ := reached
      refine ⟨advanced.trans advanced', fun other member => ?_⟩
      rcases List.mem_cons.mp member with same | later
      · rw [same]
        exact fun invalid => settled (advanced'.invalid invalid)
      · exact rest' other later

/-- What an invalid target rests on is fresh once it is not invalid. -/
theorem Shaped.below_fresh (shaped : Shaped m) (settled : Settled m) (proper : target.Proper)
    (invalid : m.statusOf target = some .invalid)
    (rests : ∀ lower, target.below = some lower → m.statusOf lower ≠ some .invalid)
    (lower : Target) (below : target.below = some lower) : m.statusOf lower = some .fresh := by
  obtain ⟨held, _⟩ := shaped.based target lower proper below (by rw [invalid]; rfl)
  cases status : m.statusOf lower with
  | none =>
      rw [status] at held
      cases held
  | some found =>
      cases found with
      | fresh => rfl
      | invalid => exact absurd status (rests lower below)
      | rebuilding => exact absurd status (settled lower.node)

section Renewed

variable {images : List (Materialization V)} {image : Materialization V}

theorem Renewed.status_node (renewed : Renewed reprs target m m' images) (shaped : Shaped m)
    (node : String) : m'.graph.statusOf node = m.graph.statusOf node ∨
      (node = target.node ∧ m'.graph.statusOf node = some .fresh) := by
  by_cases here : node = target.node
  · rw [here]
    exact Or.inr ⟨rfl, renewed.fresh⟩
  · exact Or.inl (renewed.touched.status_node shaped here)

/-- In an image of its rebuild the node is done, or it is not taken for fresh. -/
theorem Renewed.sound (renewed : Renewed reprs target m m' images) (sound : Sound reprs m)
    (proper : target.Proper) (invalid : m.statusOf target = some .invalid)
    (based : ∀ lower, target.below = some lower → m.statusOf lower = some .fresh)
    (touches : Touched target m image)
    (which : image = m' ∨ image.statusOf target = some .rebuilding) : Sound reprs image := by
  have stale : m.statusOf target ≠ some .fresh := by
    rw [invalid]
    exact fun same => by cases same
  rcases which with rfl | working
  · refine sound.touched touches proper stale ?_ fun _ => ?_
    · rw [renewed.fresh]
      rfl
    · obtain ⟨value, edges⟩ := @written_expected _ reprs _ target fun lower below =>
        (sound.fresh lower (proper.below below) (based lower below)).2.1
      exact ⟨renewed.lineage.trans edges, renewed.value.trans value, based⟩
  · refine sound.touched touches proper stale ?_ fun fresh => ?_
    · rw [working]
      rfl
    · rw [working] at fresh
      cases fresh

theorem Renewed.passed (renewed : Renewed reprs target m m' images) (shaped : Shaped m)
    (proper : target.Proper) (invalid : m.statusOf target = some .invalid)
    (rests : ∀ lower, target.below = some lower → m.statusOf lower ≠ some .invalid)
    (member : image ∈ images) : Passed reprs m image := by
  obtain ⟨touches, which⟩ := renewed.images image member
  refine ⟨touches.shaped, touches.evidence, touches.assertions, touches.relations,
    fun node again => ?_, fun sound settled => ?_⟩
  · by_cases here : node = target.node
    · rw [here]
      exact invalid
    · rw [← touches.status_node shaped here]
      exact again
  · exact renewed.sound sound proper invalid
      (shaped.below_fresh settled proper invalid rests) touches which

theorem Renewed.held (renewed : Renewed reprs target m m' images) (proper : target.Proper)
    (invalid : m.statusOf target = some .invalid)
    (rests : ∀ lower, target.below = some lower → m.statusOf lower ≠ some .invalid)
    (sound : Sound reprs m) (settled : Settled m) : Sound reprs m' ∧ Settled m' := by
  refine ⟨renewed.sound sound proper invalid (sound.below_fresh settled proper invalid rests)
    renewed.touched (Or.inl rfl), fun node working => ?_⟩
  rcases renewed.status_node sound.toShaped node with same | ⟨_, fresh⟩
  · rw [same] at working
    exact settled node working
  · rw [fresh] at working
    cases working

theorem Renewed.advanced (renewed : Renewed reprs target session.held m' images)
    (ready : Ready session) (proper : target.Proper)
    (invalid : session.held.statusOf target = some .invalid)
    (rests : ∀ lower, target.below = some lower → session.held.statusOf lower ≠ some .invalid) :
    Advanced reprs { session with visiting := session.visiting.erase target.node }
      { held := m'
        visiting := session.visiting.erase target.node
        done := insert target.node session.done
        rebuilt := insert target.node session.rebuilt
        images := session.images ++ images } where
  ready := by
    refine ⟨renewed.touched.shaped, ready.known.same renewed.touched.assertions,
      fun node member => ?_⟩
    rcases renewed.status_node ready.shaped node with same | ⟨_, fresh⟩
    · rcases Finset.mem_insert.mp member with here | before
      · rw [here]
        exact fun again => by cases renewed.fresh.symm.trans again
      · rw [same]
        exact ready.done node before
    · rw [fresh]
      exact fun again => by cases again
  evidence := renewed.touched.evidence
  assertions := renewed.touched.assertions
  relations := renewed.touched.relations
  keyByNode := renewed.touched.keyByNode
  subjectByProfileNode := renewed.touched.subjectByProfileNode
  visiting := rfl
  status := by
    intro node
    rcases renewed.status_node ready.shaped node with same | ⟨here, fresh⟩
    · exact Or.inl same
    · rw [here] at fresh ⊢
      exact Or.inr ⟨invalid, fresh, Finset.mem_insert_self _ _⟩
  guarded := fun node member =>
    renewed.touched.status_node ready.shaped (Finset.mem_erase.mp member).1
  kept := Finset.subset_insert _ _
  rebuilt := by
    intro node member
    rcases Finset.mem_insert.mp member with here | before
    · rw [here]
      exact Or.inr ⟨invalid, renewed.fresh⟩
    · exact Or.inl before
  sound := renewed.held proper invalid rests
  images := by
    intro image member
    rcases List.mem_append.mp member with before | passed
    · exact Or.inl before
    · exact Or.inr (renewed.passed ready.shaped proper invalid rests passed)
  longer := List.subset_append_left _ _
  marked := by
    intro node member
    rcases Finset.mem_insert.mp member with here | before
    · obtain ⟨image, passed, working⟩ := renewed.marked
      rw [here]
      exact Or.inr ⟨image, List.mem_append_right _ passed, working⟩
    · exact Or.inl before

end Renewed

/-- The end of one node's rebuild, after what it rests on. -/
theorem finishNode_spec (ready : Ready session) (proper : target.Proper)
    (invalid : session.held.statusOf target = some .invalid)
    (rests : ∀ lower, target.below = some lower → session.held.statusOf lower ≠ some .invalid) :
    Outcome (finishNode reprs target.node) session
      (fun _ final => final.visiting = session.visiting.erase target.node ∧
        Advanced reprs { session with visiting := session.visiting.erase target.node } final ∧
        final.held.statusOf target = some .fresh) fun _ _ => False := by
  have registered : (session.held.statusOf target).isSome := by
    rw [invalid]
    rfl
  obtain ⟨m', images, renewed, ran⟩ :=
    @finishNode_run _ reprs _ _ ready.shaped ready.known proper registered
  exact Outcome.of_ok ran ⟨rfl, renewed.advanced ready proper invalid rests, renewed.fresh⟩

theorem rebuildNode_spec (fuel : Nat) (proper : target.Proper) (deep : target.rank < fuel)
    (ready : Ready session)
    (unseen : ∀ other : Target, other.Proper → other.rank ≤ target.rank →
      other.node ∉ session.visiting) :
    Outcome (rebuildNode reprs fuel target.node) session
      (fun _ final => Advanced reprs session final ∧
        final.held.graph.statusOf target.node ≠ some .invalid) fun _ _ => False := by
  induction fuel generalizing target session with
  | zero => exact absurd deep (Nat.not_lt_zero _)
  | succ fuel ih =>
      by_cases invalid : session.held.graph.statusOf target.node = some .invalid
      · have fresh : target.node ∉ session.done := fun done => ready.done _ done invalid
        have out : target.node ∉ session.visiting := unseen target proper (le_refl _)
        rw [Outcome, rebuildNode_invalid fuel fresh invalid out]
        set begun : Session V := { session with visiting := insert target.node session.visiting }
          with begun_eq
        have begunReady : Ready begun := ⟨ready.shaped, ready.known, ready.done⟩
        have dependencies := @rebuildDependencies_spec _ reprs begun fuel
          (sorted (session.held.graph.dependenciesOf target.node)) begunReady
          (by
            intro name member start startReady visiting stale
            rw [mem_sorted] at member
            rcases ready.shaped.shape target proper name member with canonical | ⟨lower, below, names⟩
            · obtain ⟨other, _, names⟩ := startReady.shaped.named name (by rw [stale]; rfl)
              exact absurd names.symm (canonical.ne_node other)
            · have under : lower.rank < target.rank := Target.rank_below below
              rw [names]
              refine ih (proper.below below) (by omega) startReady fun other proper' low seen => ?_
              rw [visiting, begun_eq] at seen
              rcases Finset.mem_insert.mp seen with here | before
              · have same := Target.node_inj proper' proper here
                rw [same] at low
                omega
              · exact unseen other proper' (by omega) before)
        refine Outcome.bind dependencies fun _ middle reached => ?_
        obtain ⟨advanced, settled⟩ := reached
        have cleared : middle.visiting.erase target.node = session.visiting := by
          rw [advanced.visiting, begun_eq]
          exact Finset.erase_insert out
        have still : middle.held.statusOf target = some .invalid :=
          (advanced.guarded target.node (Finset.mem_insert_self _ _)).trans invalid
        have first : Advanced reprs session
            { middle with visiting := middle.visiting.erase target.node } :=
          { advanced with
            ready := ⟨advanced.ready.shaped, advanced.ready.known, advanced.ready.done⟩
            visiting := cleared
            guarded := fun node member => advanced.guarded node (Finset.mem_insert_of_mem member) }
        refine (finishNode_spec advanced.ready proper still fun lower below => ?_).mono
          (fun _ final reached => ?_) fun _ _ absurdity => absurdity
        · refine settled lower.node (mem_sorted.mpr ?_)
          exact (ready.shaped.based target lower proper below (by
            rw [Materialization.statusOf, invalid]
            rfl)).2
        · obtain ⟨_, later, renewed⟩ := reached
          exact ⟨first.trans later, fun again => by cases renewed.symm.trans again⟩
      · exact (rebuildNode_idle fuel ready invalid).mono
          (fun _ final advanced => ⟨advanced, fun again => invalid (advanced.invalid again)⟩)
          fun _ _ absurdity => absurdity

/-- The fuel of a rebuild is more than any of its nodes needs. -/
theorem Shaped.deep (shaped : Shaped m) (proper : target.Proper)
    (registered : (m.statusOf target).isSome) :
    target.rank < m.graph.status.entries.length + 1 := by
  have listed : ∀ other : Target, (m.statusOf other).isSome →
      other.node ∈ m.graph.status.keys.toFinset := fun other held =>
    List.mem_toFinset.mpr (AList.mem_keys.mp (AList.lookup_isSome.mp held))
  have size : m.graph.status.keys.toFinset.card ≤ m.graph.status.entries.length := by
    refine (List.toFinset_card_le _).trans ?_
    rw [AList.keys, List.keys, List.length_map]
  cases target with
  | profile subject | state key => exact Nat.succ_pos _
  | support key =>
      have held := Finset.card_pos.mpr ⟨_, listed (.support key) registered⟩
      show 1 < _
      omega
  | context key =>
      have lower := (shaped.based (.context key) (.support key) proper rfl registered).1
      have apart : Target.node (.context key) ≠ Target.node (.support key) := fun names =>
        Target.noConfusion (@Target.node_inj (.context key) (.support key) proper proper names)
      have two : ({Target.node (.context key), Target.node (.support key)} : Finset String) ⊆
          m.graph.status.keys.toFinset :=
        Finset.insert_subset (listed _ registered) (Finset.singleton_subset_iff.mpr (listed _ lower))
      have many := Finset.card_le_card two
      rw [Finset.card_pair apart] at many
      show 2 < _
      omega

theorem rebuildTargets_spec (fuel : Nat) (targets : List String) (ready : Ready session)
    (idle : session.visiting = ∅)
    (deep : ∀ target : Target, target.Proper → (session.held.statusOf target).isSome →
      target.rank < fuel + 1) :
    Outcome (forM targets (rebuildNode reprs (fuel + 1))) session
      (fun _ final => Advanced reprs session final ∧
        ∀ name ∈ targets, final.held.graph.statusOf name ≠ some .invalid) fun _ _ => False := by
  induction targets generalizing session with
  | nil => exact Outcome.of_ok (pure_run _ _) ⟨.refl ready, fun name member => by cases member⟩
  | cons name rest ih =>
      rw [List.forM_cons]
      have first : Outcome (rebuildNode reprs (fuel + 1) name) session
          (fun _ final => Advanced reprs session final ∧
            final.held.graph.statusOf name ≠ some .invalid) fun _ _ => False := by
        by_cases invalid : session.held.graph.statusOf name = some .invalid
        · have registered : (session.held.graph.statusOf name).isSome := by
            rw [invalid]
            rfl
          obtain ⟨target, proper, names⟩ := ready.shaped.named name registered
          rw [← names] at registered ⊢
          refine rebuildNode_spec (fuel + 1) proper (deep target proper registered) ready ?_
          intro other _ _ seen
          rw [idle] at seen
          exact absurd seen (Finset.notMem_empty _)
        · exact (rebuildNode_idle fuel ready invalid).mono
            (fun _ final advanced => ⟨advanced, fun again => invalid (advanced.invalid again)⟩)
            fun _ _ absurdity => absurdity
      refine Outcome.bind first fun _ middle reached => ?_
      obtain ⟨advanced, settled⟩ := reached
      refine (ih advanced.ready (advanced.visiting.trans idle) fun target proper registered =>
        deep target proper (advanced.registered.mp registered)).mono
        (fun _ final reached => ?_) fun _ _ absurdity => absurdity
      obtain ⟨advanced', rest'⟩ := reached
      refine ⟨advanced.trans advanced', fun other member => ?_⟩
      rcases List.mem_cons.mp member with same | later
      · rw [same]
        exact fun invalid => settled (advanced'.invalid invalid)
      · exact rest' other later

end DurableContext.Cascade
