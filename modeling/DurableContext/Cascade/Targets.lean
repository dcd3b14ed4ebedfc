import DurableContext.Cascade.Rebuild

/-! The nodes a materialization derives, apart from their names: what each depends on, which layer is
below it, and that their names tell them apart. -/

namespace DurableContext.Cascade

inductive Target where
  | profile (subjectId : String)
  | state (key : StateKey)
  | support (key : StateKey)
  | context (key : StateKey)
  deriving DecidableEq

namespace Target

def node : Target → String
  | profile subject => profileNode subject
  | state key => stateNode key
  | support key => supportNode key
  | context key => contextNode key

def kind : Target → Kind
  | profile _ => .profile
  | state _ => .state
  | support _ => .support
  | context _ => .context

def below : Target → Option Target
  | profile _ => none
  | state _ => none
  | support key => some (state key)
  | context key => some (support key)

end Target

/-- A key of an assertion with a registered predicate. -/
def ProperKey (key : StateKey) : Prop := (REGISTRY.lookup key.2.1).isSome ∧ key.2.2 = "default"

def Target.Proper : Target → Prop
  | .profile _ => True
  | .state key => ProperKey key
  | .support key => ProperKey key
  | .context key => ProperKey key

theorem registered_no_colon {predicate : String} (known : (REGISTRY.lookup predicate).isSome) :
    ':' ∉ predicate.toList := by
  have listed : predicate ∈ REGISTRY.map Prod.fst := by
    obtain ⟨entry, member, same⟩ := List.lookup_isSome_iff.mp known
    exact List.mem_map.mpr ⟨entry, member, (eq_of_beq same).symm⟩
  have every : ∀ name ∈ REGISTRY.map Prod.fst, ':' ∉ name.toList := by decide
  exact every predicate listed

theorem append_separator_inj {start start' rest rest' : List Char} {separator : Char}
    (absent : separator ∉ rest) (absent' : separator ∉ rest')
    (same : start ++ separator :: rest = start' ++ separator :: rest') :
    start = start' ∧ rest = rest' := by
  have longer : ∀ {left right : List Char} (more : List Char), separator ∉ left →
      separator :: left = more ++ separator :: right → more = [] := by
    intro left right more missing split
    cases more with
    | nil => rfl
    | cons letter more =>
        have inside : left = more ++ separator :: right := (List.cons.inj split).2
        exact absurd (inside ▸ List.mem_append_right _ List.mem_cons_self) missing
  rcases List.append_eq_append_iff.mp same with ⟨more, first, second⟩ | ⟨more, first, second⟩
  · have none := longer more absent second
    rw [none, List.append_nil] at first
    rw [none, List.nil_append] at second
    exact ⟨first.symm, (List.cons.inj second).2⟩
  · have none := longer more absent' second
    rw [none, List.append_nil] at first
    rw [none, List.nil_append] at second
    exact ⟨first, (List.cons.inj second).2.symm⟩

theorem keyNode_inj {layer : String} {key other : StateKey} (proper : ProperKey key)
    (proper' : ProperKey other) (same : keyNode layer key = keyNode layer other) : key = other := by
  obtain ⟨subject, predicate, scope⟩ := key
  obtain ⟨subject', predicate', scope'⟩ := other
  obtain ⟨known, rfl⟩ := proper
  obtain ⟨known', rfl⟩ := proper'
  have texts := congrArg String.toList same
  simp only [keyNode, String.toList_append, List.append_assoc] at texts
  have parts : subject.toList ++ ':' :: predicate.toList =
      subject'.toList ++ ':' :: predicate'.toList := by
    have cut := List.append_cancel_left (List.append_cancel_left texts)
    have ends : (subject.toList ++ ':' :: predicate.toList) ++ ":default".toList =
        (subject'.toList ++ ':' :: predicate'.toList) ++ ":default".toList := by
      simpa using cut
    exact List.append_cancel_right ends
  obtain ⟨subjects, predicates⟩ :=
    append_separator_inj (registered_no_colon known) (registered_no_colon known') parts
  exact congrArg₂ (fun subject predicate => (subject, predicate, "default"))
    (String.toList_inj.mp subjects) (String.toList_inj.mp predicates)

theorem append_ne_append {first second : String} (rest rest' : String)
    (apart : first.toList.take 2 ≠ second.toList.take 2) (long : 2 ≤ first.toList.length)
    (long' : 2 ≤ second.toList.length) : first ++ rest ≠ second ++ rest' := by
  intro same
  have texts := congrArg (fun text : String => text.toList.take 2) same
  simp only [String.toList_append, List.take_append_of_le_length long,
    List.take_append_of_le_length long'] at texts
  exact apart texts

theorem keyNode_eq (layer : String) (key : StateKey) :
    keyNode layer key = layer ++ (":" ++ key.1 ++ ":" ++ key.2.1 ++ ":" ++ key.2.2) := by
  simp only [keyNode, String.append_assoc]

theorem Target.node_inj {target other : Target} (proper : target.Proper) (proper' : other.Proper)
    (same : target.node = other.node) : target = other := by
  cases target <;> cases other
  case profile.profile subject subject' => rw [(String.append_right_inj _).mp same]
  case state.state key key' => rw [keyNode_inj proper proper' same]
  case support.support key key' => rw [keyNode_inj proper proper' same]
  case context.context key key' => rw [keyNode_inj proper proper' same]
  all_goals
    simp only [Target.node, stateNode, supportNode, contextNode, profileNode, keyNode_eq] at same
    exact absurd same (append_ne_append _ _ (by decide) (by decide) (by decide))

inductive IsCanonical : String → Prop
  | evidence (id : String) : IsCanonical (evidenceNode id)
  | assertion (id : String) : IsCanonical (assertionNode id)
  | relation (relation : AssertionRelation) : IsCanonical (relationNode relation)

theorem IsCanonical.ne_node {name : String} (canonical : IsCanonical name) (target : Target) :
    name ≠ target.node := by
  intro same
  cases canonical <;> cases target <;>
    simp only [Target.node, stateNode, supportNode, contextNode, profileNode, keyNode_eq,
      evidenceNode, assertionNode, relationNode, String.append_assoc] at same <;>
    exact absurd same (append_ne_append _ _ (by decide) (by decide) (by decide))

theorem evidenceNode_inj {id id' : String} (same : evidenceNode id = evidenceNode id') : id = id' :=
  (String.append_right_inj _).mp same

end DurableContext.Cascade
