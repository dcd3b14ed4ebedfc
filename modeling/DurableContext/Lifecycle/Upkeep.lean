import DurableContext.Lifecycle.NewStore
import DurableContext.Lifecycle.Steps

/-! Runs of the steps that give retired storage back. -/

namespace DurableContext.Lifecycle

open Program RadixMap

inductive Upkeep where
  | reclaim (failpoint : String → Bool) (budget : Nat)
  | shrink (failpoint : String → Bool)

namespace Upkeep

def run : Upkeep → Op StoreError World Unit
  | reclaim failpoint budget => do
      let _ ← reclaimStep failpoint budget
      pure ()
  | shrink failpoint => do
      let _ ← shrinkRetirementArenaTailStep failpoint
      pure ()

def reclaims : Upkeep → Bool
  | reclaim _ _ => true
  | shrink _ => false

def failpoint : Upkeep → String → Bool
  | reclaim failpoint _ | shrink failpoint => failpoint

/-- Why a step stops in a sound state: it has no budget, or it meets a limit. -/
inductive Stops (start : World) (epoch : Nat) (info : Info) (ledger : Ledger) :
    Upkeep → StoreError → Prop
  | budget (failpoint : String → Bool) : Stops start epoch info ledger (.reclaim failpoint 0)
      (.valueError "reclaim budget must be positive")
  | limit {step : Upkeep} {error : StoreError}
      (limit : Limit step.failpoint start epoch info ledger error) :
      Stops start epoch info ledger step error

end Upkeep

/-- A run has come to a sound state, where the next step has stopped. -/
structure StoppedIn (steps : List Upkeep) (start : World) (epoch : Nat) (ledger : Ledger)
    (error : StoreError) (after : World) (done : List Upkeep) (step : Upkeep) (middle : World)
    (epoch' : Nat) (info' : Info) (ledger' : Ledger) : Prop where
  prefix_ : done ++ [step] <+: steps
  ran : forM done Upkeep.run start = .ok ⟨⟩ middle
  sound : Stored middle epoch' info' ledger'
  keeps : Keeps start epoch ledger middle epoch' ledger'
  raised : step.run middle = .error error after
  why : step.Stops middle epoch' info' ledger' error
  left : Left middle epoch' ledger' after

section Runs

variable {start after : World} {epoch : Nat} {info : Info} {ledger : Ledger}

theorem Upkeep.run_outcome (sound : Stored start epoch info ledger) (current : start.Current)
    (step : Upkeep) : Outcome step.run start
      (fun _ after => Maintained start epoch ledger step.reclaims.toNat after)
      (fun error after => step.Stops start epoch info ledger error ∧
        Left start epoch ledger after) := by
  cases step with
  | reclaim failpoint budget =>
      by_cases none_ : budget = 0
      · subst none_
        exact Outcome.of_error (bind_of_error (reclaimStep_zero failpoint start))
          ⟨.budget failpoint, Or.inl (Traced.refl start _)⟩
      · refine Outcome.bind (Outcome.mono (reclaimStep_outcome sound none_)
          (fun _ _ maintained => maintained) fun _ _ halted => ⟨.limit halted.1, halted.2⟩) ?_
        exact fun _ after maintained => Outcome.of_ok (pure_run _ after) maintained
  | shrink failpoint =>
      refine Outcome.bind (Outcome.mono (shrinkRetirementArenaTailStep_outcome sound current)
        (fun _ _ maintained => maintained) fun _ _ halted => ⟨.limit halted.1, halted.2⟩) ?_
      exact fun _ after maintained => Outcome.of_ok (pure_run _ after) maintained

theorem upkeep_outcome (steps : List Upkeep) (sound : Stored start epoch info ledger)
    (current : start.Current) : Outcome (forM steps Upkeep.run) start
      (fun _ after => Maintained start epoch ledger (steps.countP Upkeep.reclaims) after)
      (fun error after => ∃ done step middle epoch' info' ledger',
        StoppedIn steps start epoch ledger error after done step middle epoch' info' ledger') := by
  induction steps generalizing start epoch info ledger with
  | nil => exact Outcome.of_ok (pure_run _ _) (sound.unchanged current)
  | cons step steps ih =>
      have first := Upkeep.run_outcome sound current step
      rw [List.forM_cons]
      unfold Outcome at first ⊢
      cases ran : step.run start with
      | error error after =>
          rw [ran] at first
          rw [bind_of_error ran]
          exact ⟨[], step, start, epoch, info, ledger, List.prefix_append [step] steps, rfl, sound,
            Keeps.of_same rfl epoch ledger, ran, first.1, first.2⟩
      | ok _ middle =>
          rw [ran] at first
          rw [bind_of_ok ran]
          obtain ⟨epoch', info', ledger', sound', current', keeps, count⟩ := first
          refine Outcome.mono (ih sound' current') (fun _ after maintained => ?_)
            fun error after stopped => ?_
          · have both := Maintained.trans keeps count maintained
            have total : (step :: steps).countP Upkeep.reclaims =
                step.reclaims.toNat + steps.countP Upkeep.reclaims := by
              rw [List.countP_cons, Nat.add_comm]
              cases step.reclaims <;> rfl
            rwa [total]
          · obtain ⟨done, last, before, epoch'', info'', ledger'', inside⟩ := stopped
            refine ⟨step :: done, last, before, epoch'', info'', ledger'', ?_, ?_, inside.sound,
              keeps.trans inside.keeps, inside.raised, inside.why, inside.left⟩
            · exact (List.prefix_cons_inj step).mpr inside.prefix_
            · rw [List.forM_cons, bind_of_ok ran]
              exact inside.ran

theorem Stored.drained (sound : Stored start epoch info ledger) (none_ : ledger.waiting = 0) :
    start.arena.size = 0 := by
  have queue : ledger.queue = [] := by
    refine List.eq_nil_iff_forall_not_mem.mpr fun retired member => sound.waits retired member ?_
    refine List.eq_nil_of_length_eq_zero (Nat.le_zero.mp (none_ ▸ ?_))
    exact (List.sublist_flatten_of_mem (List.mem_map_of_mem member)).length_le
  have rows : ledger.rows = [] := by rw [Ledger.rows, queue]; rfl
  have rolls := sound.rolls
  rw [rolls.idle rows, rows] at rolls
  rw [sound.arenaSize]
  by_contra some_
  exact List.not_mem_nil ((rolls.pages 0).mpr ⟨rfl, Nat.pos_of_ne_zero some_⟩)

theorem StoppedIn.readable {steps done : List Upkeep} {step : Upkeep} {error : StoreError}
    {middle : World} {epoch' : Nat} {info' : Info} {ledger' : Ledger}
    (stopped : StoppedIn steps start epoch ledger error after done step middle epoch' info' ledger')
    (sound : Stored start epoch info ledger) : Readable start epoch ledger after :=
  (stopped.left.readable stopped.sound).trans stopped.keeps sound stopped.sound

theorem retired_kept (readable : Readable retiredWorld 1 retiredLedger after) :
    ∃ epoch info slot, readSuper after.primary = .ok (epoch, info, slot) ∧
      readLogicalPage after.primary 16 epoch 1 = .ok [some "kept"] := by
  obtain ⟨epoch, info, slot, super, same⟩ := readable
  refine ⟨epoch, info, slot, super, (same 16 1 ?_).trans (by rfl)⟩
  exact ⟨(52, liveHeader), List.mem_singleton.mpr rfl, rfl⟩

end Runs

end DurableContext.Lifecycle
