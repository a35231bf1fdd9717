import DeferredJit.Proofs.Async.Accounts
import DeferredJit.Proofs.Async.ScriptSteps
import Mathlib.Data.List.Induction

/-! What holds of cells and continuations in every run of a script: between its steps, and for the
cells also in the middle of them. -/

set_option autoImplicit false

namespace DeferredJit.Async.Script

variable {α : Type}

/-- Where a script leads, whatever its steps reply. -/
def worldAfter (valueText : α → String) (script : List (Op α)) : Scene α :=
  script.foldl (fun world op => (step valueText op world).2) { outer := [] }

theorem tidy_start : Tidy ({ outer := [] } : Scene α) where
  named _ member := absurd member List.not_mem_nil
  untold _ member := absurd member List.not_mem_nil
  announced := .empty

theorem ready_start : Ready [] ({ outer := [] } : Scene α) where
  toTidy := tidy_start
  unasked _ _ := List.not_mem_nil
  orderly := .start _
  calm := .nil

/-- A script is made of the strides of its steps. -/
theorem steps_worldAfter (valueText : α → String) (script : List (Op α)) :
    Ready [] (worldAfter valueText script) ∧
      Steps regime.Step ⟨[], { outer := [] }⟩ ⟨[], worldAfter valueText script⟩ := by
  induction script using List.reverseRecOn with
  | nil => exact ⟨ready_start, .refl⟩
  | append_singleton script op ih =>
    obtain ⟨ready, steps⟩ := ih
    have further := (step_does valueText op ready).2
    have later := ready_step valueText op ready
    unfold worldAfter at steps further later ⊢
    rw [List.foldl_append]
    exact ⟨later, steps.trans further⟩

theorem worldAfter_append (valueText : α → String) (script more : List (Op α)) :
    worldAfter valueText (script ++ more) =
      more.foldl (fun world op => (step valueText op world).2) (worldAfter valueText script) := List.foldl_append

/-- More of a script is more steps. -/
theorem steps_append (valueText : α → String) (script more : List (Op α)) :
    Steps regime.Step ⟨[], worldAfter valueText script⟩ ⟨[], worldAfter valueText (script ++ more)⟩ := by
  induction more using List.reverseRecOn with
  | nil =>
    rw [List.append_nil]
  | append_singleton more op ih =>
    have ready := (steps_worldAfter valueText (script ++ more)).1
    have further := (step_does valueText op ready).2
    rw [← List.append_assoc, worldAfter_append]
    exact ih.trans further

theorem strides_append (valueText : α → String) (script more : List (Op α)) :
    Steps (Stride anyCell) ⟨[], worldAfter valueText script⟩ ⟨[], worldAfter valueText (script ++ more)⟩ :=
  strides_of_steps (steps_append valueText script more)

/-- Any script is a run from nothing. -/
theorem strides_worldAfter (valueText : α → String) (script : List (Op α)) :
    Steps (Stride anyCell) ⟨[], { outer := [] }⟩ ⟨[], worldAfter valueText script⟩ :=
  strides_append valueText [] script

theorem moves_of_steps {before after : Instant α} (steps : Steps regime.Step before after) :
    Steps Move before after := moves_of_strides (strides_of_steps steps)

theorem orderly_worldAfter (valueText : α → String) (script : List (Op α)) :
    Moment.Orderly ⟨[], worldAfter valueText script⟩ :=
  (moves_of_steps (steps_worldAfter valueText script).2).keep
    (fun move orderly => orderly.move move) (.start _)

theorem accounted_worldAfter (valueText : α → String) (script : List (Op α)) :
    Moment.Accounted ⟨[], worldAfter valueText script⟩ :=
  (moves_of_steps (steps_worldAfter valueText script).2).keep
    (fun move accounted => accounted.move move) (.start _)

/-- Cells are sound and following their links ends at every moment: after a script, and throughout
any further operation, which is made of small steps whether it returns or panics. -/
theorem sound_throughout (valueText : α → String) (script : List (Op α)) (op : Op α) :
    Steps Move ⟨[], worldAfter valueText script⟩
      ⟨[], (step valueText op (worldAfter valueText script)).2⟩ ∧
    ∀ moment, Steps Move ⟨[], worldAfter valueText script⟩ moment →
      moment.world.store.Sound ∧
      ∀ id, ¬ Relation.TransGen (fun cell target => moment.world.store.link? cell = some target) id id ∧
        Store.Path moment.world.store id (moment.world.store.chain id) ∧
        moment.world.store.link? (moment.world.store.last id) = none := by
  refine ⟨moves_of_steps (step_does valueText op (steps_worldAfter valueText script).1).2, ?_⟩
  intro moment moves
  have orderly : moment.Orderly := moves.keep (fun move orderly => orderly.move move)
    (orderly_worldAfter valueText script)
  refine ⟨orderly.sound, fun id => ⟨orderly.sound.grounded.acyclic id, ?_,
    orderly.sound.grounded.link?_last id⟩⟩
  obtain ⟨path, walk⟩ := orderly.sound.grounded id
  exact walk.chain_eq.symm ▸ walk

/-- Continuations run when their cell is available and see what it shows for good; each of them runs
once or waits once, at the end of the chain of its cell. No run is cut short. -/
theorem continuations_run_once (valueText : α → String) (script : List (Op α)) :
    let world := worldAfter valueText script
    (∀ op, (step valueText op world).1 ≠ .error .exhausted) ∧
    (∀ serial home seen, .ran serial home seen ∈ world.history →
      seen.isSome ∧ world.store.state home = seen ∧ .registered serial home ∈ world.history) ∧
    (∀ tag seen older, .noted (.announced tag seen) :: older <:+ world.history →
      ∃ serial home oldest, older = .ran serial home seen :: oldest) ∧
    ∀ serial home, .registered serial home ∈ world.history →
      (world.timesRun serial = 1 ∧ (world.store.state home).isSome ∧
        serial ∉ world.store.waiters.map Waiter.serial) ∨
      (world.timesRun serial = 0 ∧ world.store.state home = none ∧
        world.store.WaitsOnce serial home (world.store.last home)) := by
  have tidy := (steps_worldAfter valueText script).1
  have orderly := orderly_worldAfter valueText script
  have accounted := accounted_worldAfter valueText script
  refine ⟨fun op => (step_does valueText op tidy).1, fun serial home seen ran => ?_,
    fun tag seen older suffix => tidy.announced suffix,
    fun serial home registered => runs_or_waits orderly accounted registered⟩
  obtain ⟨shown, same⟩ := orderly.history _ ran
  exact ⟨shown, same, accounted.registered_of_ran ran⟩

end DeferredJit.Async.Script
