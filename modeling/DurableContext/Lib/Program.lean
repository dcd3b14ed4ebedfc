import Mathlib.Tactic.Common

/-! Sequential programs whose state survives the exceptions they raise, with rules for what a
program returns or raises and in which state it stops. -/

namespace DurableContext

/-- A program over a state `σ` that may raise an error `ε`; the state is kept when it raises. -/
abbrev Op (ε σ α : Type) := EStateM ε σ α

namespace Program

variable {ε σ α β : Type}

/-- Every way `program` can stop from `start`: a return satisfies `returns`, an error `raises`. -/
def Outcome (program : Op ε σ α) (start : σ) (returns : α → σ → Prop) (raises : ε → σ → Prop) :
    Prop :=
  match program start with
  | .ok value final => returns value final
  | .error error final => raises error final

def ofResult (result : Except ε α) : Op ε σ α :=
  match result with
  | .ok value => pure value
  | .error error => throw error

/-- The state a run stops in, however it stops. -/
def finalState : EStateM.Result ε σ α → σ
  | .ok _ final => final
  | .error _ final => final

def returned : EStateM.Result ε σ α → Bool
  | .ok _ _ => true
  | .error _ _ => false

theorem of_returned {result : EStateM.Result ε σ α} (held : returned result = true) :
    ∃ value, result = .ok value (finalState result) := by
  cases result with
  | ok value final => exact ⟨value, rfl⟩
  | error error final => cases held

theorem eq_ok_of_toOption {result : Except ε α} {value : α} (held : result.toOption = some value) :
    result = .ok value := by
  cases result with
  | error error => cases held
  | ok other => exact congrArg Except.ok (Option.some.inj held)

theorem ok_bind {result : Except ε α} {value : α} (held : result = .ok value)
    (next : α → Except ε β) : (result >>= next) = next value := by
  rw [held]
  rfl

theorem of_bind_ok {result : Except ε α} {next : α → Except ε β} {value : β}
    (ran : (result >>= next) = .ok value) :
    ∃ middle, result = .ok middle ∧ next middle = .ok value := by
  cases result with
  | error error => cases ran
  | ok middle => exact ⟨middle, rfl, ran⟩

theorem pure_run (value : α) (start : σ) : (pure value : Op ε σ α) start = .ok value start := rfl

theorem throw_run (error : ε) (start : σ) : (throw error : Op ε σ α) start = .error error start :=
  rfl

theorem get_run (start : σ) : (get : Op ε σ σ) start = .ok start start := rfl

theorem set_run (final start : σ) : (set final : Op ε σ PUnit) start = .ok ⟨⟩ final := rfl

theorem modify_run (change : σ → σ) (start : σ) :
    (modify change : Op ε σ PUnit) start = .ok ⟨⟩ (change start) := rfl

theorem bind_of_ok {program : Op ε σ α} {next : α → Op ε σ β} {start middle : σ} {value : α}
    (run : program start = .ok value middle) : (program >>= next) start = next value middle := by
  simp only [bind, EStateM.bind, run]

theorem bind_of_error {program : Op ε σ α} {next : α → Op ε σ β} {start middle : σ} {error : ε}
    (run : program start = .error error middle) :
    (program >>= next) start = .error error middle := by
  simp only [bind, EStateM.bind, run]

theorem tryCatch_of_ok {program : Op ε σ α} {handler : ε → Op ε σ α} {start final : σ} {value : α}
    (run : program start = .ok value final) :
    (tryCatch program handler) start = .ok value final := by
  simp only [tryCatch, tryCatchThe, MonadExceptOf.tryCatch, EStateM.tryCatch, run]

theorem tryCatch_of_error {program : Op ε σ α} {handler : ε → Op ε σ α} {start final : σ}
    {error : ε} (run : program start = .error error final) :
    (tryCatch program handler) start = handler error final := by
  simp only [tryCatch, tryCatchThe, MonadExceptOf.tryCatch, EStateM.tryCatch, run]
  rfl

@[simp] theorem ofResult_ok (value : α) (start : σ) :
    (ofResult (.ok value) : Op ε σ α) start = .ok value start := rfl

@[simp] theorem ofResult_error (error : ε) (start : σ) :
    (ofResult (.error error) : Op ε σ α) start = .error error start := rfl

theorem Outcome.of_ok {program : Op ε σ α} {start final : σ} {value : α}
    {returns : α → σ → Prop} {raises : ε → σ → Prop} (run : program start = .ok value final)
    (holds : returns value final) : Outcome program start returns raises := by
  simpa only [Outcome, run] using holds

theorem Outcome.of_error {program : Op ε σ α} {start final : σ} {error : ε}
    {returns : α → σ → Prop} {raises : ε → σ → Prop} (run : program start = .error error final)
    (holds : raises error final) : Outcome program start returns raises := by
  simpa only [Outcome, run] using holds

theorem Outcome.mono {program : Op ε σ α} {start : σ} {returns returns' : α → σ → Prop}
    {raises raises' : ε → σ → Prop} (outcome : Outcome program start returns raises)
    (onReturn : ∀ value final, returns value final → returns' value final)
    (onRaise : ∀ error final, raises error final → raises' error final) :
    Outcome program start returns' raises' := by
  unfold Outcome at outcome ⊢
  cases run : program start with
  | ok value final => exact onReturn _ _ (by simpa only [run] using outcome)
  | error error final => exact onRaise _ _ (by simpa only [run] using outcome)

theorem Outcome.total {program : Op ε σ α} {start : σ} {returns : α → σ → Prop}
    (outcome : Outcome program start returns fun _ _ => False) :
    ∃ value final, program start = .ok value final ∧ returns value final := by
  unfold Outcome at outcome
  cases run : program start with
  | ok value final => exact ⟨value, final, rfl, by simpa only [run] using outcome⟩
  | error error final => exact absurd outcome (by simp only [run, not_false_eq_true])

theorem Outcome.stops {program : Op ε σ α} {start : σ} {keeps : σ → Prop}
    (outcome : Outcome program start (fun _ final => keeps final) fun _ final => keeps final) :
    keeps (finalState (program start)) := by
  unfold Outcome at outcome
  cases run : program start with
  | ok value final => simpa only [run, finalState] using outcome
  | error error final => simpa only [run, finalState] using outcome

theorem Outcome.bind {program : Op ε σ α} {next : α → Op ε σ β} {start : σ}
    {between : α → σ → Prop} {returns : β → σ → Prop} {raises : ε → σ → Prop}
    (first : Outcome program start between raises)
    (second : ∀ value middle, between value middle → Outcome (next value) middle returns raises) :
    Outcome (program >>= next) start returns raises := by
  unfold Outcome at first
  cases run : program start with
  | ok value middle =>
      have reached : between value middle := by simpa only [run] using first
      have later := second value middle reached
      simpa only [Outcome, bind_of_ok run] using later
  | error error middle =>
      have raised : raises error middle := by simpa only [run] using first
      exact Outcome.of_error (bind_of_error run) raised

theorem Outcome.and {program : Op ε σ α} {start : σ} {returns returns' : α → σ → Prop}
    {raises raises' : ε → σ → Prop} (outcome : Outcome program start returns raises)
    (other : Outcome program start returns' raises') :
    Outcome program start (fun value final => returns value final ∧ returns' value final)
      fun error final => raises error final ∧ raises' error final := by
  unfold Outcome at outcome other ⊢
  cases run : program start with
  | ok value final =>
      rw [run] at outcome other
      exact ⟨outcome, other⟩
  | error error final =>
      rw [run] at outcome other
      exact ⟨outcome, other⟩

theorem Outcome.get_bind {next : σ → Op ε σ β} {start : σ} {returns : β → σ → Prop}
    {raises : ε → σ → Prop} (outcome : Outcome (next start) start returns raises) :
    Outcome (get >>= next) start returns raises := by
  unfold Outcome at outcome ⊢
  rwa [bind_of_ok (get_run start)]

theorem Outcome.ofResult_bind {result : Except ε α} {value : α} {next : α → Op ε σ β} {start : σ}
    {returns : β → σ → Prop} {raises : ε → σ → Prop} (held : result = .ok value)
    (outcome : Outcome (next value) start returns raises) :
    Outcome (ofResult result >>= next) start returns raises := by
  unfold Outcome at outcome ⊢
  rwa [held, bind_of_ok (ofResult_ok value start)]

theorem Outcome.ok_bind {program : Op ε σ α} {value : α} {next : α → Op ε σ β} {start middle : σ}
    {returns : β → σ → Prop} {raises : ε → σ → Prop} (run : program start = .ok value middle)
    (outcome : Outcome (next value) middle returns raises) :
    Outcome (program >>= next) start returns raises := by
  unfold Outcome at outcome ⊢
  rwa [bind_of_ok run]

theorem Outcome.if_pos {condition : Prop} [Decidable condition] {program other : Op ε σ α}
    {start : σ} {returns : α → σ → Prop} {raises : ε → σ → Prop} (holds : condition)
    (outcome : Outcome program start returns raises) :
    Outcome (if condition then program else other) start returns raises := by
  unfold Outcome at outcome ⊢
  rwa [ite_cond_eq_true _ _ (eq_true holds)]

theorem Outcome.if_neg {condition : Prop} [Decidable condition] {program other : Op ε σ α}
    {start : σ} {returns : α → σ → Prop} {raises : ε → σ → Prop} (fails : ¬ condition)
    (outcome : Outcome program start returns raises) :
    Outcome (if condition then other else program) start returns raises := by
  unfold Outcome at outcome ⊢
  rwa [ite_cond_eq_false _ _ (eq_false fails)]

/-- A loop over a list keeps an invariant that every body keeps for its element. -/
theorem Outcome.forM {body : α → Op ε σ PUnit} {raises : ε → σ → Prop}
    (invariant : List α → σ → Prop) (items : List α) (start : σ) (holds : invariant items start)
    (step : ∀ item rest state, invariant (item :: rest) state →
      Outcome (body item) state (fun _ final => invariant rest final) raises) :
    Outcome (forM items body) start (fun _ final => invariant [] final) raises := by
  induction items generalizing start with
  | nil => exact Outcome.of_ok (pure_run _ _) holds
  | cons item rest ih =>
      rw [List.forM_cons]
      exact Outcome.bind (step item rest start holds) fun _ middle kept => ih middle kept

end Program
end DurableContext
