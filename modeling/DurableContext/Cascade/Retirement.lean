import DurableContext.Cascade.RebuildRuns

/-! After a rebuild the nodes of keys and subjects that have vanished from the store are retired, from
the top of each chain, once all of them are fresh. -/

namespace DurableContext.Cascade

open DependencyGraph Materialization Program Session

variable {V : Type} {reprs : Reprs V} {m m' m'' : Materialization V} {target other : Target}
  {session session' session'' : Session V} {node : String} {key : StateKey} {subject : String}

/-- Some fresh nodes of what has vanished from the store are gone. -/
structure Retired (m m' : Materialization V) : Prop where
  shaped : Shaped m'
  store : m'.store = m.store
  value : ∀ target, m'.value target = m.value target
  posted : m.index.Posted → m'.index.Posted
  status : ∀ target : Target, target.Proper → m'.statusOf target = m.statusOf target ∨
    (m.statusOf target = some .fresh ∧ ¬ target.Present m.store ∧ m'.statusOf target = none)
  dependencies : ∀ target : Target, target.Proper → (m'.statusOf target).isSome →
    m'.dependenciesOf target = m.dependenciesOf target

theorem Retired.refl (shaped : Shaped m) : Retired m m :=
  ⟨shaped, rfl, fun _ => rfl, id, fun _ _ => Or.inl rfl, fun _ _ _ => rfl⟩

theorem Retired.still (retired : Retired m m') (proper : target.Proper)
    (registered : (m'.statusOf target).isSome) : m'.statusOf target = m.statusOf target := by
  rcases retired.status target proper with same | ⟨_, _, gone⟩
  · exact same
  · rw [gone] at registered
    cases registered

theorem Retired.absent (retired : Retired m m') (proper : target.Proper)
    (none : m.statusOf target = none) : m'.statusOf target = Option.none := by
  rcases retired.status target proper with same | ⟨fresh, _, _⟩
  · exact same.trans none
  · rw [none] at fresh
    cases fresh

theorem Retired.trans (first : Retired m m') (second : Retired m' m'') : Retired m m'' where
  shaped := second.shaped
  store := second.store.trans first.store
  value := fun target => (second.value target).trans (first.value target)
  posted := fun posted => second.posted (first.posted posted)
  status := by
    intro target proper
    rcases second.status target proper with same | ⟨fresh, vanished, gone⟩
    · rcases first.status target proper with same' | ⟨fresh, vanished, gone⟩
      · exact Or.inl (same.trans same')
      · exact Or.inr ⟨fresh, vanished, same.trans gone⟩
    · have registered : (m'.statusOf target).isSome := by
        rw [fresh]
        rfl
      rw [first.store] at vanished
      exact Or.inr ⟨(first.still proper registered).symm.trans fresh, vanished, gone⟩
  dependencies := by
    intro target proper registered
    have before : (m'.statusOf target).isSome := by
      rw [← second.still proper registered]
      exact registered
    exact (second.dependencies target proper registered).trans
      (first.dependencies target proper before)

theorem Sound.retired (sound : Sound reprs m) (retired : Retired m m') : Sound reprs m' where
  toShaped := retired.shaped
  known := retired.store ▸ sound.known
  posted := retired.posted sound.posted
  fresh := by
    intro target proper fresh
    have registered : (m'.statusOf target).isSome := by
      rw [fresh]
      rfl
    obtain ⟨edges, held, rests⟩ :=
      sound.fresh target proper ((retired.still proper registered).symm.trans fresh)
    rw [retired.store]
    refine ⟨(retired.dependencies target proper registered).trans edges,
      (retired.value target).trans held, fun lower below => ?_⟩
    rw [retired.still (proper.below below)
      (retired.shaped.based target lower proper below registered).1]
    exact rests lower below
  absent := by
    intro target proper none
    rw [retired.value]
    rcases retired.status target proper with same | ⟨fresh, vanished, _⟩
    · exact sound.absent target proper (same.symm.trans none)
    · rw [(sound.fresh target proper fresh).2.1, expected_blank vanished]
  improper := by
    intro target improper
    rw [retired.value]
    exact sound.improper target improper
  present := by
    intro target held
    rw [retired.store] at held
    have proper : target.Proper := proper_of_present sound.known held
    rcases retired.status target proper with same | ⟨_, vanished, _⟩
    · rw [same]
      exact sound.present target held
    · exact absurd held vanished

theorem Retired.status_node (retired : Retired m m') (shaped : Shaped m) (node : String) :
    m'.graph.statusOf node = m.graph.statusOf node ∨
      (m.graph.statusOf node = some .fresh ∧ m'.graph.statusOf node = none) := by
  by_cases before : (m.graph.statusOf node).isSome
  · obtain ⟨target, proper, names⟩ := shaped.named node before
    rw [← names]
    rcases retired.status target proper with same | ⟨fresh, _, gone⟩
    · exact Or.inl same
    · exact Or.inr ⟨fresh, gone⟩
  · left
    by_cases after : (m'.graph.statusOf node).isSome
    · obtain ⟨target, proper, names⟩ := retired.shaped.named node after
      rw [← names] at before after ⊢
      exact retired.still proper after
    · rw [Option.not_isSome_iff_eq_none.mp before, Option.not_isSome_iff_eq_none.mp after]

section Removals

theorem node_apart (proper : target.Proper) (proper' : other.Proper)
    (apart : other ≠ target) : other.node ≠ target.node :=
  fun names => apart (Target.node_inj proper' proper names)

theorem statusOf_retired (proper : target.Proper) (proper' : other.Proper)
    (apart : other ≠ target) :
    ({ m with graph := m.graph.unregister target.node } : Materialization V).statusOf other =
      m.statusOf other := by
  refine (statusOf_unregister other.node).trans ?_
  rw [if_neg (node_apart proper proper' apart)]
  rfl

theorem statusOf_retired_self :
    ({ m with graph := m.graph.unregister target.node } : Materialization V).statusOf target =
      none := by
  refine (statusOf_unregister target.node).trans ?_
  rw [if_pos rfl]

theorem retired_apart
    (held : (({ m with graph := m.graph.unregister target.node } :
      Materialization V).statusOf other).isSome) : other ≠ target := by
  intro same
  rw [same, statusOf_retired_self] at held
  cases held

/-- No node depends on a target above which nothing is registered. -/
theorem Shaped.leaf (shaped : Shaped m) (proper : target.Proper)
    (alone : ∀ upper : Target, upper.Proper → upper.below = some target → m.statusOf upper = none) :
    m.graph.dependentsOf target.node = ∅ := by
  refine Finset.eq_empty_iff_forall_notMem.mpr fun name member => ?_
  have held := shaped.linked.registered_of_mem member
  obtain ⟨upper, proper', names⟩ := shaped.named name held
  have edge := (shaped.linked.inverse target.node name).mp member
  rw [← names] at edge held
  rcases shaped.shape upper proper' target.node edge with canonical | ⟨lower, below, same⟩
  · exact canonical.ne_node target rfl
  · have here := Target.node_inj proper (proper'.below below) same
    rw [← here] at below
    have none := alone upper proper' below
    rw [Materialization.statusOf] at none
    rw [none] at held
    cases held

theorem Shaped.unregister (shaped : Shaped m) (proper : target.Proper)
    (alone : ∀ upper : Target, upper.Proper → upper.below = some target → m.statusOf upper = none) :
    Shaped { m with graph := m.graph.unregister target.node } where
  linked := shaped.linked.unregister (shaped.leaf proper alone)
  named := by
    intro name held
    rw [statusOf_unregister] at held
    split at held
    · cases held
    · exact shaped.named name held
  kinds := by
    intro other proper' held
    have apart := retired_apart held
    refine (kindOf_unregister other.node).trans ?_
    rw [if_neg (node_apart proper proper' apart)]
    rw [statusOf_retired proper proper' apart] at held
    exact shaped.kinds other proper' held
  names := by
    intro other proper' held
    rw [statusOf_retired proper proper' (retired_apart held)] at held
    have before := shaped.names other proper' held
    cases other <;> exact before
  shape := by
    intro other proper' name member
    have edges : name ∈ (m.graph.unregister target.node).dependenciesOf other.node := member
    rw [dependenciesOf_unregister] at edges
    split at edges
    · exact absurd edges (Finset.notMem_empty _)
    · exact shaped.shape other proper' name edges
  based := by
    intro upper lower proper' below held
    have apart := retired_apart held
    rw [statusOf_retired proper proper' apart] at held
    obtain ⟨lowerHeld, edge⟩ := shaped.based upper lower proper' below held
    have lowerApart : lower ≠ target := by
      intro same
      rw [same] at below
      rw [alone upper proper' below] at held
      cases held
    refine ⟨?_, ?_⟩
    · rw [statusOf_retired proper (proper'.below below) lowerApart]
      exact lowerHeld
    · show lower.node ∈ (m.graph.unregister target.node).dependenciesOf upper.node
      rw [dependenciesOf_unregister, if_neg (node_apart proper proper' apart)]
      exact edge

theorem remove_ok (shaped : Shaped m) (proper : target.Proper)
    (alone : ∀ upper : Target, upper.Proper → upper.below = some target → m.statusOf upper = none)
    (fresh : m.statusOf target = some .fresh) (vanished : ¬ target.Present m.store) :
    ∃ graph, m.graph.removeDerived target.node = .ok graph ∧ Retired m { m with graph } ∧
      ({ m with graph } : Materialization V).statusOf target = none ∧
      ∀ other : Target, other.Proper → other ≠ target →
        ({ m with graph } : Materialization V).statusOf other = m.statusOf other := by
  have registered : m.graph.statusOf target.node ≠ none := by
    intro none
    rw [Materialization.statusOf, none] at fresh
    cases fresh
  have removed : m.graph.removeDerived target.node = .ok (m.graph.unregister target.node) := by
    unfold removeDerived
    rw [if_neg registered, if_neg (not_not.mpr (shaped.leaf proper alone))]
  refine ⟨_, removed, ⟨shaped.unregister proper alone, rfl, fun other => by cases other <;> rfl, id,
    ?_, ?_⟩, statusOf_retired_self, fun other => statusOf_retired proper⟩
  · intro other proper'
    by_cases same : other = target
    · rw [same]
      exact Or.inr ⟨fresh, vanished, statusOf_retired_self⟩
    · exact Or.inl (statusOf_retired proper proper' same)
  · intro other proper' held
    refine (dependenciesOf_unregister other.node).trans ?_
    rw [if_neg (node_apart proper proper' (retired_apart held))]
    rfl

theorem Shaped.forgetKey (shaped : Shaped m) (proper : target.Proper)
    (gone : m.statusOf target = none) :
    Retired m { m with keyByNode := m.keyByNode.erase target.node } where
  shaped :=
    { linked := shaped.linked
      named := shaped.named
      kinds := shaped.kinds
      names := by
        intro other proper' held
        have before := shaped.names other proper' held
        have apart : other.node ≠ target.node := by
          intro names
          rw [Target.node_inj proper' proper names] at held
          exact absurd held (by
            rw [show ({ m with keyByNode := m.keyByNode.erase target.node } :
              Materialization V).statusOf target = m.statusOf target from rfl, gone]
            exact Bool.noConfusion)
        cases other with
        | profile subject => exact before
        | state key | support key | context key =>
            exact (AList.lookup_erase_ne apart).trans before
      shape := shaped.shape
      based := shaped.based }
  store := rfl
  value := fun other => by cases other <;> rfl
  posted := id
  status := fun _ _ => Or.inl rfl
  dependencies := fun _ _ _ => rfl

theorem Shaped.forgetSubject (shaped : Shaped m) (gone : m.statusOf (.profile subject) = none) :
    Retired m { m with
      subjectByProfileNode := m.subjectByProfileNode.erase (profileNode subject) } where
  shaped :=
    { linked := shaped.linked
      named := shaped.named
      kinds := shaped.kinds
      names := by
        intro other proper' held
        have before := shaped.names other proper' held
        cases other with
        | profile subject' =>
            refine (AList.lookup_erase_ne fun names => ?_).trans before
            rw [(String.append_right_inj _).mp names] at held
            have none : m.statusOf (.profile subject) = none := gone
            rw [show ({ m with
              subjectByProfileNode := m.subjectByProfileNode.erase (profileNode subject) } :
              Materialization V).statusOf (.profile subject) = m.statusOf (.profile subject) from rfl,
              none] at held
            cases held
        | state key | support key | context key => exact before
      shape := shaped.shape
      based := shaped.based }
  store := rfl
  value := fun other => by cases other <;> rfl
  posted := id
  status := fun _ _ => Or.inl rfl
  dependencies := fun _ _ _ => rfl

end Removals

section Loops

structure Cleared (session session' : Session V) : Prop where
  retired : Retired session.held session'.held
  images : ∀ image ∈ session'.images, image ∈ session.images ∨ Retired session.held image
  longer : session.images ⊆ session'.images

theorem Cleared.refl (shaped : Shaped session.held) : Cleared session session :=
  ⟨.refl shaped, fun _ member => Or.inl member, List.Subset.refl _⟩

theorem Cleared.trans (first : Cleared session session') (second : Cleared session' session'') :
    Cleared session session'' where
  retired := first.retired.trans second.retired
  images := by
    intro image member
    rcases second.images image member with before | passed
    · exact first.images image before
    · exact Or.inr (first.retired.trans passed)
  longer := List.Subset.trans first.longer second.longer

theorem write_cleared (change : Materialization V → Except Raised (Materialization V))
    (made : change session.held = .ok m) (retired : Retired session.held m) :
    Outcome (write change) session (fun _ final => final.held = m ∧ Cleared session final)
      fun _ _ => False := by
  refine Outcome.of_ok (write_run made) ⟨rfl, retired, fun image member => ?_,
    List.subset_append_left _ _⟩
  rcases List.mem_append.mp member with before | passed
  · exact Or.inl before
  · rw [List.mem_singleton.mp passed]
    exact Or.inr retired

theorem retireSubject_spec (shaped : Shaped session.held) (subject : String) :
    Outcome (retireSubject subject) session
      (fun _ final => Cleared session final ∧
        (session.held.store.assertionsForSubject subject = [] →
          final.held.statusOf (.profile subject) ≠ some .fresh) ∧
        ∀ target : Target, target.Proper → target ≠ .profile subject →
          final.held.statusOf target = session.held.statusOf target) fun _ _ => False := by
  unfold retireSubject
  rw [Outcome, bind_of_ok (get_run _)]
  by_cases leaves : session.held.store.assertionsForSubject subject = [] ∧
      session.held.graph.statusOf (profileNode subject) = some .fresh
  · rw [if_pos leaves]
    obtain ⟨graph, removed, retired, gone, others⟩ := @remove_ok _ session.held (.profile subject)
      shaped trivial (fun upper _ below => by cases upper <;> cases below) leaves.2
      (not_not.mpr leaves.1)
    refine Outcome.bind (write_cleared _ (congrArg (Except.map _) removed) retired)
      fun _ middle reached => ?_
    obtain ⟨held, cleared⟩ := reached
    have shaped' : Shaped middle.held := cleared.retired.shaped
    have none : middle.held.statusOf (.profile subject) = Option.none := by
      rw [held]
      exact gone
    refine (write_cleared (fun m => .ok { m with
      subjectByProfileNode := m.subjectByProfileNode.erase (profileNode subject) }) rfl
      (shaped'.forgetSubject none)).mono (fun _ final reached => ?_) fun _ _ absurdity => absurdity
    obtain ⟨held', cleared'⟩ := reached
    refine ⟨cleared.trans cleared', fun _ fresh => ?_, fun target proper apart => ?_⟩
    · rw [held', show ({ middle.held with
        subjectByProfileNode := middle.held.subjectByProfileNode.erase (profileNode subject) } :
        Materialization V).statusOf (.profile subject) = middle.held.statusOf (.profile subject)
        from rfl, none] at fresh
      cases fresh
    · rw [held']
      refine Eq.trans (b := middle.held.statusOf target) rfl ?_
      rw [held]
      exact others target proper apart
  · rw [if_neg leaves, pure_run]
    exact ⟨.refl shaped, fun vanished fresh => leaves ⟨vanished, fresh⟩, fun _ _ _ => rfl⟩

/-- One node of a chain, from which nothing above is left. -/
def retireNode (node : String) : Op Raised (Session V) Unit := do
  if (← get).held.graph.statusOf node ≠ none then
    writeGraph fun graph => graph.removeDerived node
  else pure ()
  write fun m => .ok { m with keyByNode := m.keyByNode.erase node }

theorem retireNode_spec (shaped : Shaped session.held) (proper : target.Proper)
    (alone : ∀ upper : Target, upper.Proper → upper.below = some target →
      session.held.statusOf upper = none)
    (whole : session.held.statusOf target = none ∨ session.held.statusOf target = some .fresh)
    (vanished : ¬ target.Present session.held.store) :
    Outcome (retireNode target.node) session
      (fun _ final => Cleared session final ∧ final.held.statusOf target = none ∧
        ∀ other : Target, other.Proper → other ≠ target →
          final.held.statusOf other = session.held.statusOf other) fun _ _ => False := by
  have forget : ∀ middle : Session V, Cleared session middle → middle.held.statusOf target = none →
      (∀ other : Target, other.Proper → other ≠ target →
        middle.held.statusOf other = session.held.statusOf other) →
      Outcome (write fun m => .ok { m with keyByNode := m.keyByNode.erase target.node }) middle
        (fun _ final => Cleared session final ∧ final.held.statusOf target = none ∧
          ∀ other : Target, other.Proper → other ≠ target →
            final.held.statusOf other = session.held.statusOf other) fun _ _ => False := by
    intro middle cleared gone others
    refine (write_cleared (fun m => .ok { m with keyByNode := m.keyByNode.erase target.node }) rfl
      (cleared.retired.shaped.forgetKey proper gone)).mono (fun _ final reached => ?_)
      fun _ _ absurdity => absurdity
    obtain ⟨held, cleared'⟩ := reached
    rw [held]
    exact ⟨cleared.trans cleared', gone, others⟩
  rw [Outcome, retireNode, bind_of_ok (get_run _)]
  by_cases registered : session.held.graph.statusOf target.node ≠ none
  · rw [if_pos registered]
    obtain ⟨graph, removed, retired, gone, others⟩ :=
      remove_ok shaped proper alone (whole.resolve_left registered) vanished
    refine Outcome.bind (write_cleared _ (congrArg (Except.map _) removed) retired)
      fun _ middle reached => ?_
    obtain ⟨held, cleared⟩ := reached
    refine forget middle cleared ?_ ?_
    · rw [held]
      exact gone
    · rw [held]
      exact others
  · rw [if_neg registered]
    exact forget session (.refl shaped) (not_not.mp registered) fun _ _ _ => rfl

/-- Some node of the key is registered and not fresh. -/
theorem unfresh_iff : ((chainNodes key).filterMap m.graph.statusOf).any
      (fun status => decide (status ≠ .fresh)) = true ↔
    ∃ target ∈ chain key, ¬ (m.statusOf target = none ∨ m.statusOf target = some .fresh) := by
  have listed : ∀ node, node ∈ chainNodes key ↔ ∃ target ∈ chain key, target.node = node := by
    intro node
    simp [chainNodes, chain, Target.node, eq_comm]
  rw [List.any_eq_true]
  constructor
  · intro found
    obtain ⟨status, member, other⟩ := found
    obtain ⟨node, inside, held⟩ := List.mem_filterMap.mp member
    obtain ⟨target, here, names⟩ := (listed node).mp inside
    refine ⟨target, here, fun either => ?_⟩
    rw [Materialization.statusOf, names, held] at either
    rcases either with none | fresh
    · cases none
    · rw [Option.some.inj fresh] at other
      exact absurd other (by decide)
  · intro found
    obtain ⟨target, here, neither⟩ := found
    cases held : m.graph.statusOf target.node with
    | none => exact absurd (Or.inl held) neither
    | some status =>
        refine ⟨status, List.mem_filterMap.mpr ⟨target.node, (listed _).mpr ⟨target, here, rfl⟩,
          held⟩, decide_eq_true fun fresh => neither (Or.inr ?_)⟩
        rw [Materialization.statusOf, held, fresh]

/-- Nothing is left of a key that has vanished once all its nodes are fresh. -/
theorem retireKey_spec (shaped : Shaped session.held) (proper : ProperKey key) :
    Outcome (retireKey key) session
      (fun _ final => Cleared session final ∧
        (session.held.store.assertionsForKey key = [] →
          (∀ target ∈ chain key, final.held.statusOf target = none ∨
            final.held.statusOf target = some .fresh) →
          ∀ target ∈ chain key, final.held.statusOf target = none) ∧
        ∀ target : Target, target.Proper → target ∉ chain key →
          final.held.statusOf target = session.held.statusOf target) fun _ _ => False := by
  rw [Outcome, retireKey, bind_of_ok (get_run _)]
  by_cases stays : session.held.store.assertionsForKey key ≠ [] ∨
      ((chainNodes key).filterMap session.held.graph.statusOf).any
        (fun status => decide (status ≠ .fresh)) = true
  · dsimp only
    rw [if_pos stays, pure_run]
    refine ⟨.refl shaped, fun vanished fresh => ?_, fun _ _ _ => rfl⟩
    rcases stays with held | some
    · exact absurd vanished held
    · obtain ⟨target, here, neither⟩ := unfresh_iff.mp some
      exact absurd (fresh target here) neither
  · obtain ⟨gone, fresh⟩ := not_or.mp stays
    have vanished : session.held.store.assertionsForKey key = [] := not_not.mp gone
    have each : ∀ target ∈ chain key, session.held.statusOf target = none ∨
        session.held.statusOf target = some .fresh := fun target here =>
      not_not.mp fun neither => fresh (unfresh_iff.mpr ⟨target, here, neither⟩)
    dsimp only
    rw [if_neg stays]
    have top := @retireNode_spec _ (.context key) session shaped proper
      (fun upper _ below => by cases upper <;> cases below)
      (each _ (mem_chain.mpr (Or.inl rfl))) (not_not.mpr vanished)
    refine Outcome.bind top fun _ first reached => ?_
    obtain ⟨cleared, none, others⟩ := reached
    have middle := @retireNode_spec _ (.support key) first cleared.retired.shaped proper
      (fun upper proper' below => by
        cases upper <;> cases below
        exact none)
      (by
        rw [others (.support key) proper (fun same => by cases same)]
        exact each _ (mem_chain.mpr (Or.inr (Or.inl rfl))))
      (by
        rw [cleared.retired.store]
        exact not_not.mpr vanished)
    refine Outcome.bind middle fun _ second reached => ?_
    obtain ⟨cleared', none', others'⟩ := reached
    have bottom := @retireNode_spec _ (.state key) second cleared'.retired.shaped proper
      (fun upper proper' below => by
        cases upper <;> cases below
        exact none')
      (by
        rw [others' (.state key) proper (fun same => by cases same),
          others (.state key) proper (fun same => by cases same)]
        exact each _ (mem_chain.mpr (Or.inr (Or.inr rfl))))
      (by
        rw [cleared'.retired.store, cleared.retired.store]
        exact not_not.mpr vanished)
    refine Outcome.bind bottom fun _ final reached => ?_
    obtain ⟨cleared'', none'', others''⟩ := reached
    refine ⟨(cleared.trans cleared').trans cleared'', fun _ _ target here => ?_,
      fun target proper' out => ?_⟩
    · rcases mem_chain.mp here with rfl | rfl | rfl
      · exact cleared''.retired.absent proper (cleared'.retired.absent proper none)
      · exact cleared''.retired.absent proper none'
      · exact none''
    · rw [mem_chain, not_or, not_or] at out
      rw [others'' target proper' out.2.2, others' target proper' out.2.1,
        others target proper' out.1]

theorem retireSubjects_spec (shaped : Shaped session.held) (subjects : List String) :
    Outcome (forM subjects retireSubject) session
      (fun _ final => Cleared session final ∧
        (∀ subject ∈ subjects, session.held.store.assertionsForSubject subject = [] →
          final.held.statusOf (.profile subject) ≠ some .fresh) ∧
        ∀ target : Target, target.Proper → ¬ target.Of [] subjects →
          final.held.statusOf target = session.held.statusOf target) fun _ _ => False := by
  induction subjects generalizing session with
  | nil =>
      exact Outcome.of_ok (pure_run _ _)
        ⟨.refl shaped, fun _ member => absurd member List.not_mem_nil, fun _ _ _ => rfl⟩
  | cons subject rest ih =>
      rw [List.forM_cons]
      refine Outcome.bind (retireSubject_spec shaped subject) fun _ middle reached => ?_
      obtain ⟨cleared, left, others⟩ := reached
      refine (ih cleared.retired.shaped).mono (fun _ final reached => ?_) fun _ _ absurdity => absurdity
      obtain ⟨cleared', left', others'⟩ := reached
      refine ⟨cleared.trans cleared', fun other member vanished => ?_, fun target proper out => ?_⟩
      · rcases List.mem_cons.mp member with same | later
        · intro fresh
          rw [same] at fresh vanished
          refine left vanished ?_
          rw [← fresh]
          refine (@Retired.still _ _ _ (.profile subject) cleared'.retired trivial ?_).symm
          rw [fresh]
          rfl
        · exact left' other later (by rw [cleared.retired.store]; exact vanished)
      · have apart : target ≠ .profile subject := fun same => out (by
          rw [same]
          exact List.mem_cons_self)
        have later : ¬ target.Of [] rest := fun inside =>
          out (by cases target <;> first | exact List.mem_cons_of_mem _ inside | exact inside)
        rw [others' target proper later, others target proper apart]

theorem retireKeys_spec (shaped : Shaped session.held) {keys : List StateKey}
    (proper : ∀ key ∈ keys, ProperKey key) :
    Outcome (forM keys retireKey) session
      (fun _ final => Cleared session final ∧
        (∀ key ∈ keys, session.held.store.assertionsForKey key = [] →
          (∀ target ∈ chain key, final.held.statusOf target = none ∨
            final.held.statusOf target = some .fresh) →
          ∀ target ∈ chain key, final.held.statusOf target = none) ∧
        ∀ target : Target, target.Proper → ¬ target.Of keys [] →
          final.held.statusOf target = session.held.statusOf target) fun _ _ => False := by
  induction keys generalizing session with
  | nil =>
      exact Outcome.of_ok (pure_run _ _)
        ⟨.refl shaped, fun _ member => absurd member List.not_mem_nil, fun _ _ _ => rfl⟩
  | cons key rest ih =>
      rw [List.forM_cons]
      refine Outcome.bind (retireKey_spec shaped (proper key List.mem_cons_self))
        fun _ middle reached => ?_
      obtain ⟨cleared, left, others⟩ := reached
      refine (ih cleared.retired.shaped fun other member =>
        proper other (List.mem_cons_of_mem _ member)).mono (fun _ final reached => ?_)
        fun _ _ absurdity => absurdity
      obtain ⟨cleared', left', others'⟩ := reached
      refine ⟨cleared.trans cleared', fun other member vanished whole => ?_,
        fun target proper' out => ?_⟩
      · rcases List.mem_cons.mp member with same | later
        · rw [same] at vanished whole ⊢
          intro target here
          have proper' := mem_chain_proper (proper key List.mem_cons_self) here
          refine cleared'.retired.absent proper' (left vanished (fun target here => ?_) target here)
          have each := mem_chain_proper (proper key List.mem_cons_self) here
          rcases cleared'.retired.status target each with same | ⟨fresh, _, _⟩
          · rw [← same]
            exact whole target here
          · exact Or.inr fresh
        · exact left' other later (by rw [cleared.retired.store]; exact vanished) whole
      · have apart : target ∉ chain key := fun here => out (by
          rcases mem_chain.mp here with rfl | rfl | rfl <;> exact List.mem_cons_self)
        have later : ¬ target.Of rest [] := fun inside =>
          out (by cases target <;> first | exact List.mem_cons_of_mem _ inside | exact inside)
        rw [others' target proper' later, others target proper' apart]

end Loops

section Chosen

variable {nodes : Finset String}

def Listed (m : Materialization V) (nodes : Finset String) : Prop :=
  ∀ node ∈ nodes, (m.graph.statusOf node).isSome

theorem mem_subjectsOf (shaped : Shaped session.held) (listed : Listed session.held nodes) :
    subject ∈ subjectsOf session nodes ↔ Target.node (.profile subject) ∈ nodes := by
  simp only [subjectsOf, mem_sorted, List.mem_toFinset, List.mem_filterMap]
  constructor
  · intro found
    obtain ⟨node, member, held⟩ := found
    obtain ⟨target, proper, names⟩ := shaped.named node (listed node member)
    have registered : (session.held.statusOf target).isSome := by
      rw [Materialization.statusOf, names]
      exact listed node member
    have kind := shaped.kinds target proper registered
    have named := shaped.names target proper registered
    rw [names] at kind
    rw [kind] at held
    cases target with
    | profile subject' =>
        rw [Target.kind, if_pos rfl, ← names] at held
        have same : some subject' = some subject :=
          (show session.held.subjectByProfileNode.lookup (profileNode subject') = some subject' from
            named).symm.trans held
        rw [← Option.some.inj same, names]
        exact member
    | state key | support key | context key =>
        rw [if_neg (by exact fun same => by cases same)] at held
        cases held
  · intro member
    have registered : (session.held.statusOf (.profile subject)).isSome := listed _ member
    refine ⟨_, member, ?_⟩
    rw [shaped.kinds (.profile subject) trivial registered, Target.kind, if_pos rfl]
    exact shaped.names (.profile subject) trivial registered

theorem mem_keysOf (shaped : Shaped session.held) (listed : Listed session.held nodes) :
    key ∈ keysOf session nodes ↔ ProperKey key ∧ ∃ target ∈ chain key, target.node ∈ nodes := by
  rw [keysOf, List.mem_insertionSort, List.mem_dedup]
  simp only [List.mem_filterMap, mem_sorted]
  constructor
  · intro found
    obtain ⟨node, member, held⟩ := found
    obtain ⟨target, proper, names⟩ := shaped.named node (listed node member)
    have registered : (session.held.statusOf target).isSome := by
      rw [Materialization.statusOf, names]
      exact listed node member
    have kind := shaped.kinds target proper registered
    have named := shaped.names target proper registered
    rw [names] at kind
    rw [kind] at held
    rw [← names] at member held
    cases target with
    | profile subject' => cases held
    | state key' | support key' | context key' =>
        have same := Option.some.inj (named.symm.trans held)
        subst same
        exact ⟨proper, _, by simp [chain], member⟩
  · intro found
    obtain ⟨proper, target, here, member⟩ := found
    have registered : (session.held.statusOf target).isSome := listed _ member
    have proper' := mem_chain_proper proper here
    refine ⟨_, member, ?_⟩
    rw [shaped.kinds target proper' registered]
    have named := shaped.names target proper' registered
    rcases mem_chain.mp here with rfl | rfl | rfl <;> exact named

end Chosen

end DurableContext.Cascade
