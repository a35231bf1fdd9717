import DeferredJit.Proofs.Engine.Calls

/-! Runs of an engine, step by step: what the engine does, what its callers do, and what outside
parties do as far as rules allow it. -/

set_option autoImplicit false

namespace DeferredJit.Engine

open Async (CellId Moment Continuation Routine)

/-! ## Stages -/

/-- The result cells that a stage comes to. -/
def proceed (setup : Setup) (later : Later) : Stage → Option (Outcome Payload) → Run (List CellId)
  | .operands call _, _ => withOperands setup later call
  | .handle call views _, seen => withHandle setup later call views (look Payload.handle? seen)
  | .executable call views _, seen => withExecutable setup later call views (look Payload.executable? seen)
  | .observer none, _ => return []
  | .observer (some cause), _ => Act.panic cause

/-- Continuations link what they owe to what their stage comes to. -/
theorem react_eq (setup : Setup) (later : Later) (stage : Stage) (seen : Option (Outcome Payload)) :
    react setup later stage seen =
      proceed setup later stage seen >>= fun produced => forwardAll later stage.results produced := by
  cases stage with
  | observer panic => cases panic <;> rfl
  | _ => rfl

/-- What a stage may add. -/
def Stage.scope : Stage → Scope
  | .operands .. => .call
  | .handle .. => .choice
  | .executable .. | .observer _ => .kernel

/-- Whatever a stage finds, it comes to as many new cells as it owes. If it finds what it relies on,
its call is in a phase of the pipeline. -/
structure Proceeds (world : EngineWorld) (stage : Stage) (seen : Option (Outcome Payload))
    (produced : List CellId) (next : EngineWorld) : Prop where
  adds : Adds stage.scope world (stage.weight - 1) next
  length : produced.length = stage.results.length
  fresh : ∀ cell ∈ produced, Fresh world.store.cells.size next cell
  phase : ∀ {call}, stage.call? = some call → Told world stage seen →
    ∀ duties, Reaches ⟨duties, next⟩ call produced
  spends : ∀ {call}, stage.call? = some call → Spends (Told world stage seen) world call next
  silent : stage.call? = none → Silent world next
  chosen : ∀ {call views results}, stage = .handle call views results →
    HandlesStay (chosen world.outer.handles views world.store.cells.size (look Payload.handle? seen))
      next.outer.handles

theorem proceed_ends (setup : Setup) (depth : Nat) {world : EngineWorld} (ready : Ready world)
    {stage : Stage} (fits : stage.Fits world.store) (seen : Option (Outcome Payload)) :
    (proceed setup (within setup (depth + 1)) stage seen).Ends world
      (Proceeds world stage seen) (fun _ next => next = world) := by
  have proceeds {call : Call} {budget : Nat} {produced : List CellId} {next : EngineWorld}
      {holds : EngineMoment → List CellId → Prop} (called : stage.call? = some call)
      (weight : budget = stage.weight - 1) (comes : Comes stage.scope world budget call.count holds produced next)
      (goes : ∀ duties, holds ⟨duties, next⟩ produced → Goes (Told world stage seen) world call ⟨duties, next⟩ produced)
      (settled : ∀ {call views results}, stage = .handle call views results → HandlesStay
        (chosen world.outer.handles views world.store.cells.size (look Payload.handle? seen)) next.outer.handles) :
      Proceeds world stage seen produced next := by
    refine ⟨weight ▸ comes.adds, comes.length.trans (fits.call called).2.symm, comes.fresh, ?_, ?_, ?_, settled⟩
    · intro other same told duties
      rw [called] at same
      cases same
      exact (goes duties (comes.holds duties)).reaches told
    · intro other same
      rw [called] at same
      cases same
      exact (goes [] (comes.holds [])).spends
    · intro none
      rw [called] at none
      cases none
  cases stage with
  | operands call results =>
    exact (withOperands_ends setup depth ready (fits.call rfl).1 results seen).mono
      (fun _ _ comes => proceeds rfl rfl comes (fun _ came => came.1) fun same => by cases same)
      (fun _ _ panicked => panicked.1)
  | handle call views results =>
    refine (withHandle_ends setup depth ready (fits.call rfl).1 views seen results).mono
      (fun cells next comes => proceeds rfl rfl comes (fun _ came => came.1) fun same => ?_) (fun _ _ => False.elim)
    cases same
    exact (comes.holds []).2
  | executable call views results =>
    exact (withExecutable_ends setup depth ready (fits.call rfl).1 views seen results).mono
      (fun _ _ comes => proceeds rfl rfl comes (fun _ came => came) fun same => by cases same) (fun _ _ => False.elim)
  | observer panic =>
    cases panic with
    | none =>
      exact .pure [] ⟨.refl, rfl, by simp, (fun same => by cases same), (fun same => by cases same),
        fun _ => .refl world, fun same => by cases same⟩
    | some cause => exact .of_panic rfl rfl

/-! ## Tasks -/

/-- What a task is about to give its cell. -/
def prepared (setup : Setup) : Job → Run (Outcome Payload)
  | .compile key _ compilation => do
    let outcome ← compile setup key compilation
    if outcome.toOption.isNone then
      alter fun state => { state with cache := state.cache.recordFailure }
    return outcome
  | .specialize handle generic specializer key _ => do
    Async.note (.specialized handle generic.name key)
    return (contained "specializer" (specializer generic key)).map .executable
  | .settle _ _ payload => return .ok payload

theorem runJob_eq (setup : Setup) (later : Later) (job : Job) :
    runJob setup later job = prepared setup job >>= fun outcome =>
      discard (Async.resolve later.fire job.target outcome) := by
  cases job with
  | compile key target compilation =>
    change (compile setup key compilation >>= _) = (compile setup key compilation >>= _) >>= _
    rw [bind_assoc]
    congr 1
    funext outcome
    cases outcome <;> rfl
  | _ => rfl

/-- What a task notes before it does anything else. -/
def Job.notice? (setup : Setup) : Job → Option Notice
  | compile key _ (.request request) => some (.compiled key request setup.workers)
  | compile key _ (.given _) => some (.fetched key)
  | specialize handle generic _ key _ => some (.specialized handle generic.name key)
  | settle .. => none

def World.noted (world : EngineWorld) : Option Notice → EngineWorld
  | some notice => world.log (.noted notice)
  | none => world

theorem World.store_noted (world : EngineWorld) (notice : Option Notice) :
    (World.noted world notice).store = world.store := by
  cases notice <;> rfl

theorem World.outer_noted (world : EngineWorld) (notice : Option Notice) :
    (World.noted world notice).outer = world.outer := by
  cases notice <;> rfl

section Tasks

variable (setup : Setup) {world : EngineWorld}

theorem makeHandle_ends (artifact : Artifact) (mode : SpecializationMode) (limit : Nat) :
    (makeHandle artifact mode limit).Ends world
      (fun id next => Adds .plain world 0 next ∧ id < next.outer.handles.length) never := by
  have valid : Outcome.Valid world.outer.handles.length (.ok (.executable artifact.kernel)) := by
    intro payload same
    cases same
    trivial
  refine (makeSettled_ends valid).bind fun cell next came => ?_
  obtain ⟨adds, fresh, holds⟩ := came
  let handle : Handle := { generic := artifact.kernel, genericCell := cell,
                           specializer := artifact.specializer, mode, limit }
  have added : Addition .plain next 0 (World.addHandle next handle) := .addHandle fresh.inside holds rfl
  refine .of_ok rfl ⟨.tail adds added (Nat.le_refl 0), ?_⟩
  simp

theorem wrap_ends (mode : SpecializationMode) (limit : Nat) (made : Outcome Artifact) :
    (wrap mode limit made).Ends world
      (fun outcome next => Adds .plain world 0 next ∧ Outcome.Valid next.outer.handles.length outcome) never := by
  cases made with
  | error failure => exact .pure _ ⟨.refl, .error _ failure⟩
  | ok artifact =>
    refine (makeHandle_ends artifact mode limit).bind fun id next came => .pure _ ⟨came.1, ?_⟩
    intro payload same
    cases same
    exact came.2

theorem prepared_ends {job : Job} (fits : job.Fits world) :
    (prepared setup job).Ends world
      (fun outcome next => Adds .plain (World.noted world (job.notice? setup)) 0 next ∧
        Outcome.Valid next.outer.handles.length outcome) never := by
  cases job with
  | compile key target compilation =>
    have compiled : (compile setup key compilation).Ends world
        (fun outcome next =>
          Adds .plain (World.noted world ((Job.compile key target compilation).notice? setup)) 0 next ∧
            Outcome.Valid next.outer.handles.length outcome) never := by
      cases compilation with
      | request request => exact .after rfl (wrap_ends _ _ _)
      | given artifact => exact .after rfl (wrap_ends _ _ _)
    refine compiled.bind fun outcome next came => ?_
    obtain ⟨adds, valid⟩ := came
    split
    · exact .of_ok rfl ⟨.tail adds (.own rfl rfl rfl (.inr rfl)) (Nat.le_refl 0), valid⟩
    · exact .of_ok rfl ⟨adds, valid⟩
  | specialize handle generic specializer key target =>
    refine .of_ok rfl ⟨.refl, fun payload same => ?_⟩
    cases made : contained "specializer" (specializer generic key) with
    | error =>
      rw [made] at same
      cases same
    | ok kernel =>
      rw [made] at same
      cases same
      trivial
  | settle name target payload =>
    refine .of_ok rfl ⟨.refl, fun result same => ?_⟩
    cases same
    exact fits.payload rfl

end Tasks

/-! ## Steps -/

/-- What may happen besides what the engine does on its own. -/
structure Rules where
  /-- Continuations of callers, marshalers and conversions may panic. -/
  panics : Prop
  /-- Outside parties may settle or link this cell. -/
  touches : EngineWorld → CellId → Prop
  /-- The request may be the one that an entry of the cache is made for. -/
  asks : CacheKey → Request → Prop
  /-- Outside parties may also make entries of the cache themselves. -/
  caches : Prop
  /-- Outside parties may also call executables and choose them. -/
  calls : Prop

/-- Outside parties may add this much. -/
def Rules.Grants (rules : Rules) (scope : Scope) (budget : Nat) : Prop :=
  rules.calls ∨ (budget = 0 ∧ ¬ scope.chooses)

/-- New cells and handles may always be made. -/
theorem Rules.grants_plain (rules : Rules) : rules.Grants .plain 0 := .inr ⟨rfl, id⟩

/-- What an addition from outside does for calls: nothing, or it is a new call, which may wait once or have its
kernel run once. -/
inductive Begun (world next : EngineWorld) : Prop where
  | silent : Silent world next → Begun world next
  | call {more waiting} : Turned world.outer.calls
        { world with outer := { world.outer with calls := world.outer.calls + 1 } } more waiting next →
      more.length + waiting ≤ 1 → Begun world next

theorem Spends.begun {given : Prop} {world next : EngineWorld} {call : Call} (spends : Spends given
    { world with outer := { world.outer with calls := world.outer.calls + 1 } } call next)
    (numbered : call.number = world.outer.calls) : Begun world next := by
  cases spends with
  | waits turned => exact .call (numbered ▸ turned) (Nat.le_refl 1)
  | fails silent => exact .call (silent.turned _) (Nat.zero_le 1)
  | runs turned => exact .call (numbered ▸ turned) (Nat.le_refl 1)

def linkAll (sources targets : List CellId) : List EngineDuty :=
  (sources.zip targets).map fun pair => .link pair.1 pair.2

theorem mem_of_give_linkAll {sources targets : List CellId} {duties : List EngineDuty} {cell : CellId}
    {outcome : Outcome Payload} (member : .give cell outcome ∈ linkAll sources targets ++ duties) :
    .give cell outcome ∈ duties := by
  refine (List.mem_append.1 member).resolve_left fun link => ?_
  obtain ⟨pair, -, same⟩ := List.mem_map.1 link
  cases same

theorem duties_linkAll {measure : Async.Measure Payload Stage} (sources targets : List CellId)
    (free : ∀ source target, measure.duty (.link source target) = 0) :
    measure.duties (linkAll sources targets) = 0 := by
  unfold linkAll
  induction sources.zip targets with
  | nil => rfl
  | cons pair _ ih => rw [List.map_cons, Async.Measure.duties_cons, free, ih]

/-- The world without the task at a place of the queue. -/
def World.withdraw (world : EngineWorld) (place : Nat) : EngineWorld :=
  { world with outer := { world.outer with queue := world.outer.queue.eraseIdx place } }

/-- The world without the task at a place of the queue, and with what the task notes before anything else. -/
def World.taken (setup : Setup) (world : EngineWorld) (place : Nat) (job : Job) : EngineWorld :=
  World.noted (World.withdraw world place) (job.notice? setup)

theorem World.store_taken (setup : Setup) (world : EngineWorld) (place : Nat) (job : Job) :
    (World.taken setup world place job).store = world.store := World.store_noted ..

theorem World.outer_taken (setup : Setup) (world : EngineWorld) (place : Nat) (job : Job) :
    (World.taken setup world place job).outer =
      { world.outer with queue := world.outer.queue.eraseIdx place } := World.outer_noted ..

/-- The world with a new entry of the cache, and with the task that compiles it if it has one. -/
def World.enter (world : EngineWorld) (key : CacheKey) (compilation : Option Compilation) : EngineWorld :=
  { world.make {} with outer := { world.outer with
      cache := world.outer.cache.insert key world.store.cells.size
      queue := world.outer.queue ++ (compilation.map (.compile key world.store.cells.size)).toList } }

def World.observe (world : EngineWorld) (id : CellId) (panic : Option Panic) : EngineWorld :=
  world.enroll id (.call (.observer panic))

inductive Step (setup : Setup) (rules : Rules) : EngineMoment → EngineMoment → Prop where
  | routine {before after} : Routine rules.panics before after → Step setup rules before after
  | stage {stage seen rest world depth produced next} :
      proceed setup (within setup (depth + 1)) stage seen world = (.ok produced, next) →
      Step setup rules ⟨.answer stage seen :: rest, world⟩ ⟨linkAll stage.results produced ++ rest, next⟩
  | falter {stage seen rest world} : rules.panics →
      Step setup rules ⟨.answer stage seen :: rest, world⟩ ⟨rest, world⟩
  | settle {id outcome world} : rules.touches world id → id < world.store.cells.size →
      Outcome.Valid world.outer.handles.length outcome →
      Step setup rules ⟨[], world⟩ ⟨[.give id outcome], world⟩
  | link {source target world} : rules.touches world source → placeable world.store source →
      world.store.Blank source → target < world.store.cells.size →
      Step setup rules ⟨[], world⟩ ⟨[.link source target], world⟩
  | observe {id panic world} : id < world.store.cells.size → Step setup rules ⟨[], world⟩
      ⟨[.hand id (world.store.enroll id (.call (.observer panic))).1], World.observe world id panic⟩
  | grow {scope budget world next} : Adds scope world budget next → rules.Grants scope budget →
      Begun world next → Step setup rules ⟨[], world⟩ ⟨[], next⟩
  | enter {key compilation world} : world.outer.cache.lookup key = none →
      (rules.caches ∨ ∃ request, compilation = some (.request request) ∧ rules.asks key request) →
      Step setup rules ⟨[], world⟩ ⟨[], World.enter world key compilation⟩
  | take {place job outcome world next} : world.outer.queue[place]? = some job →
      prepared setup job (World.withdraw world place) = (.ok outcome, next) →
      Step setup rules ⟨[], world⟩ ⟨[.give job.target outcome], next⟩

/-- What concerns no call may always be added. -/
theorem Step.plain {setup : Setup} {rules : Rules} {world next : EngineWorld} (added : Addition .plain world 0 next) :
    Step setup rules ⟨[], world⟩ ⟨[], next⟩ :=
  .grow (.single added) rules.grants_plain (.silent (added.silent id))

end DeferredJit.Engine
