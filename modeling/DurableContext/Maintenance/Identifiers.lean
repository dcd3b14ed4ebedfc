import DurableContext.Maintenance.Ledger

/-! The identifiers of derived rows.

The tables are keyed by the parts of an identifier. No subject that a store writes has a colon, so
its rows have different texts; a reader asks for rows by text, under any subject. -/

namespace DurableContext.Maintenance

/-- The text does not have the separator of identifiers. -/
def Plain (text : String) : Prop := ':' ∉ text.toList

instance : DecidablePred Plain := fun text => inferInstanceAs (Decidable (':' ∉ text.toList))

theorem separated_inj {separator : Char} {start start' rest rest' : List Char}
    (absent : separator ∉ start) (absent' : separator ∉ start')
    (same : start ++ separator :: rest = start' ++ separator :: rest') :
    start = start' ∧ rest = rest' := by
  induction start generalizing start' with
  | nil =>
      cases start' with
      | nil => exact ⟨rfl, (List.cons.inj same).2⟩
      | cons letter more =>
          obtain ⟨rfl, -⟩ := List.cons.inj same
          exact absurd List.mem_cons_self absent'
  | cons letter more ih =>
      cases start' with
      | nil =>
          obtain ⟨rfl, -⟩ := List.cons.inj same
          exact absurd List.mem_cons_self absent
      | cons letter' more' =>
          obtain ⟨rfl, tails⟩ := List.cons.inj same
          obtain ⟨starts, rests⟩ := ih (List.not_mem_of_not_mem_cons absent)
            (List.not_mem_of_not_mem_cons absent') tails
          exact ⟨congrArg (List.cons letter) starts, rests⟩

theorem Plain.append_inj {start start' rest rest' : String} (plain : Plain start)
    (plain' : Plain start') (same : start ++ ":" ++ rest = start' ++ ":" ++ rest') :
    start = start' ∧ rest = rest' := by
  have texts := congrArg String.toList same
  simp only [String.toList_append, List.append_assoc] at texts
  obtain ⟨starts, rests⟩ := separated_inj plain plain' texts
  exact ⟨String.toList_inj.mp starts, String.toList_inj.mp rests⟩

namespace NodeId

/-- The subject of a cell in an identifier is plain; other parts end the identifier. -/
def Plain : NodeId → Prop
  | predicatePresence key => Maintenance.Plain key.1
  | state key => Maintenance.Plain key.1
  | support key => Maintenance.Plain key.1
  | context key => Maintenance.Plain key.1
  | _ => True

def tag : NodeId → String
  | evidence _ => "evidence"
  | assertion _ => "assertion"
  | predicatePresence _ => "predicate-presence"
  | profile _ => "profile"
  | state _ => "state"
  | support _ => "support"
  | context _ => "context"

def name : NodeId → String
  | evidence id => id
  | assertion id => id
  | predicatePresence key => key.1 ++ ":" ++ key.2
  | profile subject => subject
  | state key => key.1 ++ ":" ++ key.2 ++ ":default"
  | support key => key.1 ++ ":" ++ key.2 ++ ":default"
  | context key => key.1 ++ ":" ++ key.2 ++ ":default"

theorem text_eq (id : NodeId) : id.text = id.tag ++ ":" ++ id.name := by
  cases id with
  | evidence id =>
      show "evidence:" ++ id = "evidence" ++ ":" ++ id
      simp
  | assertion id =>
      show "assertion:" ++ id = "assertion" ++ ":" ++ id
      simp
  | predicatePresence key =>
      show "predicate-presence:" ++ key.1 ++ ":" ++ key.2 = "predicate-presence" ++ ":" ++ (key.1 ++ ":" ++ key.2)
      simp [← String.append_assoc]
  | profile subject =>
      show "profile:" ++ subject = "profile" ++ ":" ++ subject
      simp
  | state key =>
      show "state:" ++ key.1 ++ ":" ++ key.2 ++ ":default" =
        "state" ++ ":" ++ (key.1 ++ ":" ++ key.2 ++ ":default")
      simp [← String.append_assoc]
  | support key =>
      show "support:" ++ key.1 ++ ":" ++ key.2 ++ ":default" =
        "support" ++ ":" ++ (key.1 ++ ":" ++ key.2 ++ ":default")
      simp [← String.append_assoc]
  | context key =>
      show "context:" ++ key.1 ++ ":" ++ key.2 ++ ":default" =
        "context" ++ ":" ++ (key.1 ++ ":" ++ key.2 ++ ":default")
      simp [← String.append_assoc]

theorem tag_name_of_text {id other : NodeId} (same : id.text = other.text) :
    id.tag = other.tag ∧ id.name = other.name := by
  rw [text_eq, text_eq] at same
  have plain : ∀ id : NodeId, Maintenance.Plain id.tag := by
    intro id
    cases id <;> simp [Maintenance.Plain, tag]
  exact (plain id).append_inj (plain other) same

theorem cell_inj {key other : CellKey} (plain : Maintenance.Plain key.1)
    (plain' : Maintenance.Plain other.1)
    (same : key.1 ++ ":" ++ key.2 = other.1 ++ ":" ++ other.2) : key = other := by
  obtain ⟨subjects, predicates⟩ := plain.append_inj plain' same
  exact Prod.ext subjects predicates

theorem text_inj {id other : NodeId} (plain : id.Plain) (plain' : other.Plain)
    (same : id.text = other.text) : id = other := by
  obtain ⟨tags, names⟩ := tag_name_of_text same
  cases id <;> cases other
  case evidence.evidence => exact congrArg evidence names
  case assertion.assertion => exact congrArg assertion names
  case profile.profile => exact congrArg profile names
  case predicatePresence.predicatePresence => rw [cell_inj plain plain' names]
  case state.state => rw [cell_inj plain plain' ((String.append_left_inj _).mp names)]
  case support.support => rw [cell_inj plain plain' ((String.append_left_inj _).mp names)]
  case context.context => rw [cell_inj plain plain' ((String.append_left_inj _).mp names)]
  all_goals simp [tag] at tags

theorem eq_context {id : NodeId} {key : CellKey} (same : id.text = (context key).text) :
    ∃ cell, id = context cell := by
  obtain ⟨tags, -⟩ := tag_name_of_text same
  cases id with
  | context cell => exact ⟨cell, rfl⟩
  | _ => simp [tag] at tags

theorem eq_profile {id : NodeId} {subject : String} (same : id.text = (profile subject).text) :
    id = profile subject := by
  obtain ⟨tags, names⟩ := tag_name_of_text same
  cases id with
  | profile other => exact congrArg profile names
  | _ => simp [tag] at tags

end NodeId

/-! ### Rows by text -/

/-- `SELECT value_json FROM derived_nodes WHERE node_id=? AND status='fresh'`. -/
def readFresh (nodes : Table NodeId DerivedRow) (nodeId : String) : Option DerivedValue :=
  (nodes.entries.find? fun entry =>
    decide (entry.1.text = nodeId ∧ entry.2.status = .fresh)).map fun entry => entry.2.value

theorem readFresh_none {nodes : Table NodeId DerivedRow} {nodeId : String}
    (absent : ∀ id ∈ nodes, id.text ≠ nodeId) : readFresh nodes nodeId = none := by
  unfold readFresh
  rw [Option.map_eq_none_iff, List.find?_eq_none]
  intro entry member found
  have listed : entry.1 ∈ nodes := AList.mem_keys.mpr (List.mem_map_of_mem member)
  exact absent entry.1 listed (of_decide_eq_true found).1

theorem readFresh_eq {derived : Derived} {id : NodeId}
    (alone : ∀ other ∈ derived.nodes, other.text = id.text → other = id) :
    readFresh derived.nodes id.text = derived.freshValue id := by
  have own : ∀ entry ∈ derived.nodes.entries, entry.1.text = id.text →
      derived.nodes.lookup id = some entry.2 := by
    rintro ⟨other, row⟩ member same
    have listed : other ∈ derived.nodes := AList.mem_keys.mpr (List.mem_map_of_mem member)
    rw [← alone other listed same]
    exact AList.mem_lookup_iff.mpr member
  unfold readFresh
  cases found : derived.nodes.entries.find? fun entry =>
      decide (entry.1.text = id.text ∧ entry.2.status = .fresh) with
  | some entry =>
      have chosen : decide (entry.1.text = id.text ∧ entry.2.status = .fresh) = true :=
        List.find?_some (p := fun entry : Sigma fun _ : NodeId => DerivedRow =>
          decide (entry.1.text = id.text ∧ entry.2.status = .fresh)) found
      obtain ⟨same, fresh⟩ := of_decide_eq_true chosen
      rw [Derived.freshValue, own entry (List.mem_of_find?_eq_some found) same]
      simp only [if_pos fresh, Option.map_some]
  | none =>
      unfold Derived.freshValue
      cases held : derived.nodes.lookup id with
      | none => rfl
      | some row =>
          have member : (⟨id, row⟩ : Sigma fun _ : NodeId => DerivedRow) ∈ derived.nodes.entries :=
            AList.mem_lookup_iff.mp held
          have missed := List.find?_eq_none.mp found _ member
          have stale : row.status ≠ .fresh := fun fresh => missed (decide_eq_true ⟨rfl, fresh⟩)
          simp only [if_neg stale, Option.map_none]

/-! ### The subjects that are written -/

theorem subjectId_plain (i : Int) : Plain (subjectId i) := by
  intro colon
  rw [subjectId, String.toList_append, List.mem_append] at colon
  rcases colon with colon | colon
  · exact absurd colon (by decide)
  · simp only [zeroPadded, String.toList_ofList, List.mem_append, List.mem_replicate] at colon
    rcases colon with (sign | ⟨-, zero⟩) | digit
    · split_ifs at sign
      · exact absurd sign (by decide)
      · cases sign
    · exact absurd zero (by decide)
    · exact absurd (Nat.isDigit_of_mem_toDigits (by decide) (by decide) digit) (by decide)

/-- The assertions that the intent writes and was admitted against are of plain subjects. -/
def Intent.Plain (intent : Intent) : Prop := ∀ key ∈ intent.cells, Maintenance.Plain key.1

def Canonical.Plain (canonical : Canonical) : Prop :=
  ∀ id row, canonical.assertions.lookup id = some row → Maintenance.Plain row.subjectId

namespace Canonical.Plain

variable {canonical canonical' : Canonical}

theorem apply (plain : canonical.Plain) {intent : Intent} (written : intent.Plain)
    (ran : canonical.apply intent = .ok canonical') : canonical'.Plain := by
  intro id row held
  cases intent with
  | upsertEvidence item previous =>
      obtain ⟨-, rfl⟩ := apply_evidence ran
      exact plain id row held
  | upsertAssertion item previous =>
      obtain ⟨-, rfl⟩ := apply_upsert ran
      by_cases same : id = item.id
      · rw [same, AList.lookup_insert] at held
        obtain rfl := Option.some.inj held
        exact written item.key List.mem_cons_self
      · rw [AList.lookup_insert_ne same] at held
        exact plain id row held
  | deleteAssertion deleted previous =>
      obtain rfl := Except.ok.inj ran
      by_cases same : id = deleted
      · rw [same, AList.lookup_erase] at held
        cases held
      · rw [AList.lookup_erase_ne same] at held
        exact plain id row held

theorem getAssertion (plain : canonical.Plain) {id : String} {item : Assertion}
    (found : canonical.getAssertion id = .ok item) : Maintenance.Plain item.subjectId := by
  unfold Canonical.getAssertion at found
  cases held : canonical.assertions.lookup id with
  | none =>
      rw [held] at found
      cases found
  | some stored =>
      rw [held] at found
      obtain rfl := Except.ok.inj found
      exact plain id stored held

theorem replacement (plain : canonical.Plain) {index : Int} {change : Assertion → Assertion}
    {intents : List Intent} (asked : replacement canonical index change = .ok intents)
    (changed : ∀ item : Assertion, Maintenance.Plain item.subjectId →
      Maintenance.Plain (change item).subjectId) : ∀ intent ∈ intents, intent.Plain := by
  unfold Maintenance.replacement at asked
  cases found : canonical.getAssertion (assertionId index) with
  | error error =>
      rw [found] at asked
      cases asked
  | ok item =>
      rw [found] at asked
      obtain rfl := Except.ok.inj asked
      have stored := plain.getAssertion found
      intro intent member key cell
      rw [List.mem_singleton.mp member] at cell
      rcases List.mem_cons.mp cell with rfl | cell
      · exact changed item stored
      · rw [List.mem_singleton.mp cell]
        exact stored

theorem intents (plain : canonical.Plain) {request : Request} {intents : List Intent}
    (asked : request.intents canonical = .ok intents) : ∀ intent ∈ intents, intent.Plain := by
  cases request with
  | operation kind index newValue =>
      cases kind with
      | replaceEvidencePayload =>
          simp only [Request.intents, enqueueOperation] at asked
          cases held : canonical.evidence.lookup (evidenceId index) with
          | none =>
              rw [held] at asked
              cases asked
          | some row =>
              rw [held] at asked
              obtain rfl := Except.ok.inj asked
              intro intent member key cell
              rw [List.mem_singleton.mp member] at cell
              cases cell
      | replaceAssertionObject => exact plain.replacement asked fun _ stored => stored
      | deleteAssertion =>
          simp only [Request.intents, enqueueOperation] at asked
          cases found : canonical.getAssertion (assertionId index) with
          | error error =>
              rw [found] at asked
              cases asked
          | ok item =>
              rw [found] at asked
              obtain rfl := Except.ok.inj asked
              intro intent member key cell
              rw [List.mem_singleton.mp member] at cell
              rw [List.mem_singleton.mp cell]
              exact plain.getAssertion found
  | topologyMove index targetIndex =>
      exact plain.replacement asked fun _ _ => subjectId_plain targetIndex
  | predicateChange index newPredicate newValue =>
      exact plain.replacement asked fun _ stored => stored
  | predicateAddition index newPredicate value =>
      simp only [Request.intents, enqueuePredicateAddition] at asked
      cases found : canonical.getAssertion (assertionId index) with
      | error error =>
          rw [found] at asked
          cases asked
      | ok base =>
          rw [found] at asked
          obtain rfl := Except.ok.inj asked
          intro intent member key cell
          rcases List.mem_cons.mp member with rfl | member
          · cases cell
          · rw [List.mem_singleton.mp member] at cell
            rw [List.mem_singleton.mp cell]
            exact plain.getAssertion found

end Canonical.Plain

theorem readCells_plain {canonical : Canonical} {intent : Intent} (plain : canonical.Plain)
    (written : intent.Plain) : ∀ key ∈ readCells canonical intent, Plain key.1 := by
  intro key member
  cases intent with
  | upsertEvidence item previous =>
      obtain ⟨row, cites, rfl⟩ := List.mem_map.mp member
      obtain ⟨entry, listed, rfl⟩ := List.mem_map.mp (List.mem_filter.mp cites).1
      exact plain entry.1 entry.2 (AList.mem_lookup_iff.mpr listed)
  | upsertAssertion item previous => exact written key member
  | deleteAssertion id previous => exact written key member

end DurableContext.Maintenance
