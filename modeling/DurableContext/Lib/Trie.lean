import Mathlib.Data.List.Infix
import Mathlib.Data.List.Nodup
import Mathlib.Logic.Function.Basic
import Mathlib.Tactic.Common

/-! Tries laid out in a store of nodes: paths of digits are followed from a root, and a path is as
long as the trie has levels when it has reached a value.

A trie whose nodes are reached on one path each can be edited at one edge, and only the paths that
go through the edge notice. -/

namespace DurableContext

/-- The edges of each node. What lies at the end of a path of all levels is a value. -/
abbrev Trie (ν δ : Type) := ν → δ → Option ν

namespace Trie

variable {ν δ : Type}

def follow (trie : Trie ν δ) : ν → List δ → Option ν
  | node, [] => some node
  | node, digit :: path => (trie node digit).bind fun child => follow trie child path

theorem follow_append (trie : Trie ν δ) (node : ν) (path more : List δ) :
    follow trie node (path ++ more) =
      (follow trie node path).bind fun child => follow trie child more := by
  induction path generalizing node with
  | nil => rfl
  | cons digit path ih =>
      rw [List.cons_append, follow, follow]
      cases trie node digit with
      | none => rfl
      | some child => exact ih child

/-- The nodes on the paths that are still short of a value. -/
def Reached (trie : Trie ν δ) (root : ν) (levels : Nat) (path : List δ) (node : ν) : Prop :=
  path.length < levels ∧ follow trie root path = some node

/-- No node is reached on two paths. -/
def Branching (trie : Trie ν δ) (root : ν) (levels : Nat) : Prop :=
  ∀ path other node, Reached trie root levels path node → Reached trie root levels other node →
    path = other

variable {trie other : Trie ν δ} {root : ν} {levels : Nat}

theorem follow_congr
    (same : ∀ path node, Reached trie root levels path node → other node = trie node) :
    ∀ path, path.length ≤ levels → follow other root path = follow trie root path := by
  have rest : ∀ (path done : List δ) (node : ν), follow trie root done = some node →
      done.length + path.length ≤ levels → follow other node path = follow trie node path := by
    intro path
    induction path with
    | nil => exact fun _ _ _ _ => rfl
    | cons digit path ih =>
        intro done node here bound
        rw [List.length_cons] at bound
        rw [follow, follow, same done node ⟨by omega, here⟩]
        cases held : trie node digit with
        | none => rfl
        | some child =>
            have next : follow trie root (done ++ [digit]) = some child := by
              rw [follow_append, here, Option.bind_some, follow, held]
              rfl
            exact ih (done ++ [digit]) child next (by rw [List.length_append]; simp; omega)
  intro path bound
  exact rest path [] root rfl (by simpa using bound)

theorem reached_congr
    (same : ∀ path node, Reached trie root levels path node → other node = trie node)
    {path : List δ} {node : ν} :
    Reached other root levels path node ↔ Reached trie root levels path node := by
  refine and_congr_right fun short => ?_
  rw [follow_congr same path (Nat.le_of_lt short)]

/-! ### Changing one edge -/

section Edit

variable {node : ν} {digit : δ} {before : List δ}

/-- The edges of the reached nodes are the same, one edge apart. -/
def AgreesBut (trie other : Trie ν δ) (root : ν) (levels : Nat) (node : ν) (digit : δ) : Prop :=
  ∀ path now, Reached trie root levels path now → ∀ edge, ¬ (now = node ∧ edge = digit) →
    other now edge = trie now edge

variable (branching : Branching trie root levels) (here : Reached trie root levels before node)
  (agrees : AgreesBut trie other root levels node digit)

include branching here agrees

theorem follow_other {path : List δ} (bound : path.length ≤ levels)
    (apart : ¬ before ++ [digit] <+: path) : follow other root path = follow trie root path := by
  have rest : ∀ (path done : List δ) (now : ν), follow trie root done = some now →
      done.length + path.length ≤ levels → ¬ before ++ [digit] <+: done ++ path →
      follow other now path = follow trie now path := by
    intro path
    induction path with
    | nil => exact fun _ _ _ _ _ => rfl
    | cons edge path ih =>
        intro done now reached bound apart
        rw [List.length_cons] at bound
        have next : done ++ edge :: path = (done ++ [edge]) ++ path := by simp
        have visited : Reached trie root levels done now := ⟨by omega, reached⟩
        have kept : other now edge = trie now edge := by
          refine agrees done now visited edge fun through => apart ?_
          rw [next, branching done before node (through.1 ▸ visited) here, through.2]
          exact List.prefix_append _ _
        rw [follow, follow, kept]
        cases held : trie now edge with
        | none => rfl
        | some after =>
            have further : follow trie root (done ++ [edge]) = some after := by
              rw [follow_append, reached, Option.bind_some, follow, held]
              rfl
            refine ih (done ++ [edge]) after further ?_ (next ▸ apart)
            rw [List.length_append, List.length_singleton]
            omega
  exact rest path [] root rfl (by simpa using bound) apart

theorem follow_through (path : List δ) : follow other root (before ++ digit :: path) =
    (other node digit).bind fun child => follow other child path := by
  have shorter : ¬ before ++ [digit] <+: before := by
    intro within
    have longer := within.length_le
    rw [List.length_append, List.length_singleton] at longer
    omega
  rw [follow_append, follow_other branching here agrees (Nat.le_of_lt here.1) shorter, here.2,
    Option.bind_some, follow]

theorem follow_value [DecidableEq δ] (last : before.length + 1 = levels) {path : List δ}
    (whole : path.length = levels) : follow other root path =
      if path = before ++ [digit] then other node digit else follow trie root path := by
  by_cases same : path = before ++ [digit]
  · rw [if_pos same, same, follow_through branching here agrees]
    cases other node digit <;> rfl
  · rw [if_neg same]
    refine follow_other branching here agrees (Nat.le_of_eq whole) fun within => same ?_
    refine (within.eq_of_length ?_).symm
    rw [List.length_append, List.length_singleton]
    omega

theorem reached_value (last : before.length + 1 = levels) {path : List δ} {now : ν} :
    Reached other root levels path now ↔ Reached trie root levels path now := by
  refine and_congr_right fun short => ?_
  rw [follow_other branching here agrees (Nat.le_of_lt short)]
  intro within
  have longer := within.length_le
  rw [List.length_append, List.length_singleton] at longer
  omega

end Edit

/-! ### Laying a new path -/

/-- Nodes with one edge each, along the digits of a path, and the value at its end. -/
def Laid [DecidableEq δ] (trie : Trie ν δ) : List ν → List δ → ν → Prop
  | [], [], _ => True
  | node :: nodes, digit :: path, value =>
      (∀ edge, trie node edge = if edge = digit then some (nodes.headD value) else none) ∧
        Laid trie nodes path value
  | _, _, _ => False

theorem Laid.length_eq [DecidableEq δ] {nodes : List ν} {path : List δ} {value : ν}
    (laid : Laid trie nodes path value) : nodes.length = path.length := by
  induction nodes generalizing path with
  | nil =>
      cases path with
      | nil => rfl
      | cons digit path => exact laid.elim
  | cons node nodes ih =>
      cases path with
      | nil => exact laid.elim
      | cons digit path => rw [List.length_cons, List.length_cons, ih laid.2]

theorem follow_laid [DecidableEq δ] {nodes : List ν} {path : List δ} {value : ν}
    (laid : Laid trie nodes path value) (more : List δ) (bound : more.length ≤ path.length) :
    follow trie (nodes.headD value) more =
      if more <+: path then (nodes ++ [value])[more.length]? else none := by
  induction nodes generalizing path more with
  | nil =>
      cases path with
      | nil =>
          rw [List.eq_nil_of_length_eq_zero (Nat.le_zero.mp bound)]
          rfl
      | cons digit path => exact laid.elim
  | cons node nodes ih =>
      cases path with
      | nil => exact laid.elim
      | cons digit path =>
          cases more with
          | nil => rw [if_pos List.nil_prefix]; rfl
          | cons edge more =>
              have within : more.length ≤ path.length := Nat.le_of_succ_le_succ bound
              rw [List.headD_cons, follow, laid.1]
              by_cases same : edge = digit
              · rw [if_pos same, Option.bind_some, ih laid.2 more within, same]
                simp only [List.cons_prefix_cons, true_and, List.length_cons, List.cons_append,
                  List.getElem?_cons_succ]
              · rw [if_neg same, if_neg fun through => same (List.cons_prefix_cons.mp through).1]
                rfl

/-- One trie is another with a path of new nodes laid below an edge that was missing. -/
structure Grafts [DecidableEq δ] (trie other : Trie ν δ) (root : ν) (levels : Nat)
    (before : List δ) (node : ν) (digit : δ) (nodes : List ν) (path : List δ) (value : ν) :
    Prop where
  here : Reached trie root levels before node
  missing : trie node digit = none
  whole : before.length + 1 + path.length = levels
  fresh : ∀ now ∈ nodes, ∀ path, ¬ Reached trie root levels path now
  distinct : nodes.Nodup
  kept : AgreesBut trie other root levels node digit
  edge : other node digit = some (nodes.headD value)
  laid : Laid other nodes path value

namespace Grafts

variable [DecidableEq δ] {before path : List δ} {node value : ν} {digit : δ} {nodes : List ν}

theorem follow_new (grafts : Grafts trie other root levels before node digit nodes path value)
    (branching : Branching trie root levels) {more : List δ} (bound : more.length ≤ path.length) :
    follow other root (before ++ digit :: more) =
      if more <+: path then (nodes ++ [value])[more.length]? else none := by
  rw [follow_through branching grafts.here grafts.kept, grafts.edge, Option.bind_some,
    follow_laid grafts.laid more bound]

theorem follow_old (grafts : Grafts trie other root levels before node digit nodes path value)
    (more : List δ) : follow trie root (before ++ digit :: more) = none := by
  rw [follow_append, grafts.here.2, Option.bind_some, follow, grafts.missing]
  rfl

theorem follow_whole (grafts : Grafts trie other root levels before node digit nodes path value)
    (branching : Branching trie root levels) {whole : List δ} (full : whole.length = levels) :
    follow other root whole =
      if whole = before ++ digit :: path then some value else follow trie root whole := by
  by_cases through : before ++ [digit] <+: whole
  · obtain ⟨more, rfl⟩ := through
    have shape : before ++ [digit] ++ more = before ++ digit :: more := by simp
    have length : more.length = path.length := by
      have total := grafts.whole
      rw [shape, List.length_append, List.length_cons] at full
      omega
    rw [shape, grafts.follow_new branching (Nat.le_of_eq length), grafts.follow_old]
    by_cases same : more = path
    · rw [if_pos (same ▸ List.prefix_rfl), if_pos (by rw [same]), length,
        ← grafts.laid.length_eq, List.getElem?_concat_length]
    · rw [if_neg fun within => same (within.eq_of_length length), if_neg]
      exact fun equal => same (List.cons.inj (List.append_cancel_left equal)).2
  · rw [follow_other branching grafts.here grafts.kept (Nat.le_of_eq full) through, if_neg]
    intro same
    refine through ⟨path, ?_⟩
    rw [same]
    simp

theorem reached_iff (grafts : Grafts trie other root levels before node digit nodes path value)
    (branching : Branching trie root levels) {whole : List δ} {now : ν} :
    Reached other root levels whole now ↔ Reached trie root levels whole now ∨
      ∃ more, more <+: path ∧ whole = before ++ digit :: more ∧ nodes[more.length]? = some now := by
  have total := grafts.whole
  have count := grafts.laid.length_eq
  by_cases through : before ++ [digit] <+: whole
  · obtain ⟨more, rfl⟩ := through
    have shape : before ++ [digit] ++ more = before ++ digit :: more := by simp
    rw [shape]
    constructor
    · intro reached
      have short := reached.1
      rw [List.length_append, List.length_cons] at short
      have found := reached.2
      rw [grafts.follow_new branching (by omega)] at found
      by_cases within : more <+: path
      · rw [if_pos within, List.getElem?_append_left (by omega)] at found
        exact Or.inr ⟨more, within, rfl, found⟩
      · rw [if_neg within] at found
        cases found
    · intro found
      rcases found with old | ⟨new, within, same, at_⟩
      · have absent := old.2
        rw [grafts.follow_old] at absent
        cases absent
      · have equal : new = more := (List.cons.inj (List.append_cancel_left same)).2.symm
        obtain ⟨inside, _⟩ := List.getElem?_eq_some_iff.mp at_
        rw [equal] at within at_ inside
        refine ⟨by rw [List.length_append, List.length_cons]; omega, ?_⟩
        rw [grafts.follow_new branching within.length_le, if_pos within,
          List.getElem?_append_left inside, at_]
  · constructor
    · intro reached
      refine Or.inl ⟨reached.1, ?_⟩
      rw [← follow_other branching grafts.here grafts.kept (Nat.le_of_lt reached.1) through]
      exact reached.2
    · intro found
      rcases found with old | ⟨new, _, same, _⟩
      · refine ⟨old.1, ?_⟩
        rw [follow_other branching grafts.here grafts.kept (Nat.le_of_lt old.1) through]
        exact old.2
      · refine absurd ⟨new, ?_⟩ through
        rw [same]
        simp

theorem branching (grafts : Grafts trie other root levels before node digit nodes path value)
    (branching : Branching trie root levels) : Branching other root levels := by
  intro first second now there here
  rw [grafts.reached_iff branching] at there here
  rcases there with old | ⟨more, within, shape, at_⟩
  · rcases here with old' | ⟨more, _, _, at_⟩
    · exact branching first second now old old'
    · exact absurd old (grafts.fresh now (List.mem_of_getElem? at_) first)
  · rcases here with old | ⟨more', within', shape', at'⟩
    · exact absurd old (grafts.fresh now (List.mem_of_getElem? at_) second)
    · obtain ⟨inside, here⟩ := List.getElem?_eq_some_iff.mp at_
      obtain ⟨inside', here'⟩ := List.getElem?_eq_some_iff.mp at'
      have length := (List.Nodup.getElem_inj_iff grafts.distinct).mp (here.trans here'.symm)
      have same := (List.prefix_of_prefix_length_le within within' (Nat.le_of_eq length)).eq_of_length
        length
      rw [shape, shape', same]

end Grafts

end Trie
end DurableContext
