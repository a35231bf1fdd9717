import DeferredJit.Proofs.Engine.Additions

/-! What is on record, and what is on record of a call: the runs of its kernel, and how many of its stages
have still to have their turn. -/

set_option autoImplicit false

namespace DeferredJit.Engine

open Async (CellId Routine)

def noticeOf : Async.Event Payload Notice → Option Notice
  | .noted notice => some notice
  | .registered .. | .ran .. | .opened _ | .converted _ => none

/-- All notices, newest first. -/
def World.notices (world : EngineWorld) : List Notice := world.history.filterMap noticeOf

theorem World.notices_log (world : EngineWorld) (event : Async.Event Payload Notice) :
    World.notices (world.log event) = (noticeOf event).toList ++ World.notices world := by
  unfold World.notices Async.World.log
  rw [List.filterMap_cons]
  cases noticeOf event <;> rfl

theorem notices_routine {mayPanic : Prop} {before after : EngineMoment} (step : Routine mayPanic before after) :
    World.notices after.world = World.notices before.world := by
  cases step <;> rfl

theorem notices_makeMany (world : EngineWorld) (cell : Async.Cell Payload Stage) (count : Nat) :
    World.notices (world.makeMany cell count) = World.notices world := by
  unfold World.notices
  rw [world.history_makeMany]

theorem notices_waits {world next : EngineWorld} {id : CellId} {continuation : Async.Continuation Payload Stage}
    (waits : world.Waits id continuation next) : World.notices next = World.notices world := by
  unfold World.notices
  rw [waits.history]
  rfl

theorem notices_waitsEach {world next : EngineWorld} {ids : List CellId}
    {continuation : Async.Continuation Payload Stage} (waits : Async.World.WaitsEach continuation ids world next) :
    World.notices next = World.notices world := by
  induction waits with
  | nil => rfl
  | cons _ waits _ ih => exact ih.trans (notices_waits waits)

/-! ## Runs of kernels -/

def Notice.executed? (number : Nat) : Notice → Option (String × List Memref)
  | executed call kernel views => if call = number then some (kernel, views) else none
  | compiled .. | fetched _ | specialized .. => none

/-- The runs of kernels on behalf of the call with a number, newest first: the kernel, and what it ran on. -/
def World.executions (world : EngineWorld) (number : Nat) : List (String × List Memref) :=
  (World.notices world).filterMap (·.executed? number)

theorem World.executions_congr {world next : EngineWorld} (same : World.notices next = World.notices world)
    (number : Nat) : World.executions next number = World.executions world number := by
  unfold executions
  rw [same]

theorem World.executions_log (world : EngineWorld) (event : Async.Event Payload Notice) (number : Nat) :
    World.executions (world.log event) number =
      ((noticeOf event).bind (·.executed? number)).toList ++ World.executions world number := by
  unfold executions
  rw [notices_log, List.filterMap_append]
  cases noticeOf event with
  | none => rfl
  | some notice => cases notice.executed? number <;> rfl

/-! ## Stages ahead -/

/-- One for a stage of the call with this number. -/
def Stage.turns (number : Nat) (stage : Stage) : Nat := if stage.call?.map (·.number) = some number then 1 else 0

theorem Stage.turns_of_call {stage : Stage} {call : Call} (called : stage.call? = some call) :
    stage.turns call.number = 1 := by
  unfold turns
  rw [called]
  exact if_pos rfl

theorem Stage.turns_of_other {stage : Stage} {call : Call} (called : stage.call? = some call) {number : Nat}
    (different : number ≠ call.number) : stage.turns number = 0 := by
  unfold turns
  rw [called]
  exact if_neg fun same => different (Option.some.inj same).symm

/-- How many stages of the call with a number have still to have their turn. -/
def stages (number : Nat) : Async.Measure Payload Stage where
  waiter waiting :=
    match waiting.continuation with
    | .call stage => stage.turns number
    | .arrive _ | .derive .. => 0
  body stage := stage.turns number
  duty
    | .hand _ waiting | .fire waiting =>
      match waiting.continuation with
      | .call stage => stage.turns number
      | .arrive _ | .derive .. => 0
    | .answer stage _ => stage.turns number
    | .give .. | .link .. => 0
  call kind := by rw [kind]
  hand _ _ := rfl
  fire _ := rfl

/-- No kernel has been run, no call has been made, and none has come to wait. -/
structure Silent (world next : EngineWorld) : Prop where
  calls : next.outer.calls = world.outer.calls
  executions : ∀ number, World.executions next number = World.executions world number
  ahead : ∀ number, (stages number).store next.store = (stages number).store world.store

/-- The kernel of a call has been run, or the call has come to wait, and no other call has got on. -/
structure Turned (number : Nat) (world : EngineWorld) (more : List (String × List Memref)) (waiting : Nat)
    (next : EngineWorld) : Prop where
  calls : next.outer.calls = world.outer.calls
  executions : World.executions next number = more ++ World.executions world number
  ahead : (stages number).store next.store = waiting + (stages number).store world.store
  others : ∀ {other}, other ≠ number → World.executions next other = World.executions world other ∧
    (stages other).store next.store = (stages other).store world.store

namespace Silent

variable {world between next : EngineWorld}

theorem refl (world : EngineWorld) : Silent world world := ⟨rfl, fun _ => rfl, fun _ => rfl⟩

theorem trans (first : Silent world between) (second : Silent between next) : Silent world next where
  calls := second.calls.trans first.calls
  executions number := (second.executions number).trans (first.executions number)
  ahead number := (second.ahead number).trans (first.ahead number)

theorem turned (silent : Silent world next) (number : Nat) : Turned number world [] 0 next where
  calls := silent.calls
  executions := silent.executions number
  ahead := (silent.ahead number).trans (Nat.zero_add _).symm
  others _ := ⟨silent.executions _, silent.ahead _⟩

theorem make (world : EngineWorld) {cell : Async.Cell Payload Stage} (nobody : cell.waiters = []) :
    Silent world (world.make cell) where
  calls := rfl
  executions _ := rfl
  ahead number := (stages number).store_make nobody

/-- Only what is outstanding, what is on record, and the number of calls matter. -/
theorem congr {other : EngineWorld} (silent : Silent world next) (calls : other.outer.calls = next.outer.calls)
    (notices : World.notices other = World.notices next) (store : other.store = next.store) : Silent world other where
  calls := calls.trans silent.calls
  executions number := (World.executions_congr notices number).trans (silent.executions number)
  ahead number := (congrArg (stages number).store store).trans (silent.ahead number)

/-- Whatever goes on record besides runs of kernels. -/
theorem log (world : EngineWorld) {event : Async.Event Payload Notice}
    (other : ∀ number, (noticeOf event).bind (·.executed? number) = none) : Silent world (world.log event) where
  calls := rfl
  executions number := by rw [World.executions_log, other]; rfl
  ahead _ := rfl

end Silent

namespace Turned

variable {number waiting : Nat} {world between next : EngineWorld} {more : List (String × List Memref)}

theorem before (silent : Silent world between) (turned : Turned number between more waiting next) :
    Turned number world more waiting next where
  calls := turned.calls.trans silent.calls
  executions := by rw [turned.executions, silent.executions]
  ahead := by rw [turned.ahead, silent.ahead]
  others different := by
    obtain ⟨executions, ahead⟩ := turned.others different
    exact ⟨executions.trans (silent.executions _), ahead.trans (silent.ahead _)⟩

theorem after (turned : Turned number world more waiting between) (silent : Silent between next) :
    Turned number world more waiting next where
  calls := silent.calls.trans turned.calls
  executions := (silent.executions _).trans turned.executions
  ahead := (silent.ahead _).trans turned.ahead
  others different := by
    obtain ⟨executions, ahead⟩ := turned.others different
    exact ⟨(silent.executions _).trans executions, (silent.ahead _).trans ahead⟩

/-- A kernel is run. -/
theorem note (world : EngineWorld) (number : Nat) (kernel : String) (views : List Memref) :
    Turned number world [(kernel, views)] 0 (world.log (.noted (.executed number kernel views))) where
  calls := rfl
  executions := by
    rw [World.executions_log]
    simp [noticeOf, Notice.executed?]
  ahead := (Nat.zero_add _).symm
  others different := by
    rw [World.executions_log]
    simp [noticeOf, Notice.executed?, Ne.symm different]

end Turned

/-! ## Additions that are silent -/

theorem Addition.silent {scope : Scope} {world next : EngineWorld} {cost : Nat} (step : Addition scope world cost next)
    (plain : ¬ scope.acts) : Silent world next := by
  cases step with
  | make _ nobody => exact .make world nobody
  | note acts | putOff acts | gather acts => exact absurd acts plain
  | converted => exact .log world fun _ => rfl
  | own _ _ _ calls => exact ⟨calls.resolve_left plain, fun _ => rfl, fun _ => rfl⟩
  | addHandle => exact ⟨rfl, fun _ => rfl, fun _ => rfl⟩
  | specialize | enqueue =>
    have made : Silent world (world.make {}) := .make world rfl
    exact made.congr rfl rfl rfl
  | @specializeNow id handle specializer key =>
    let cell : Async.Cell Payload Stage := { outcome := some (specialized handle.generic specializer key) }
    have made : Silent world (world.make cell) := .make world rfl
    have fitted : Silent world (World.fitted world id handle key cell) := made.congr rfl rfl rfl
    exact fitted.trans (.log _ fun _ => rfl)
  | derive _ _ waits =>
    have made : Silent world (world.make {}) := .make world rfl
    refine made.trans ⟨congrArg State.calls waits.outer, World.executions_congr (notices_waits waits), fun number => ?_⟩
    exact (waits.measure (stages number)).trans (Nat.zero_add _)

theorem Adds.silent {world next : EngineWorld} {budget : Nat} (adds : Adds .plain world budget next) :
    Silent world next := by
  induction adds with
  | refl => exact .refl world
  | tail _ step _ ih => exact ih.trans (step.silent id)

end DeferredJit.Engine
