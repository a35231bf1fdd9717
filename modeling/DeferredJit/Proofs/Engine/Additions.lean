import DeferredJit.Engine.Job
import DeferredJit.Proofs.Async.Growth
import DeferredJit.Proofs.Async.Regime
import DeferredJit.Proofs.Engine.Fitness
import DeferredJit.Proofs.Engine.Pipeline

/-! What calls add to an engine before anything that waits is run, and that it leaves everything in
order. -/

set_option autoImplicit false

namespace DeferredJit.Engine

open Async (CellId Moment Continuation World)

abbrev EngineDuty := Async.Duty Payload Stage

def World.enqueue (world : EngineWorld) (job : Job) : EngineWorld :=
  { world with outer := { world.outer with queue := world.outer.queue ++ [job] } }

def World.setHandle (world : EngineWorld) (id : HandleId) (handle : Handle) : EngineWorld :=
  { world with outer := { world.outer with handles := world.outer.handles.set id handle } }

/-- The world with a new cell, which a handle has for operands of certain shapes. -/
def World.fitted (world : EngineWorld) (id : HandleId) (handle : Handle) (key : ShapeKey)
    (cell : Async.Cell Payload Stage) : EngineWorld :=
  World.setHandle (world.make cell) id (handle.specialized key world.store.cells.size)

def World.addHandle (world : EngineWorld) (handle : Handle) : EngineWorld :=
  { world with outer := { world.outer with handles := world.outer.handles ++ [handle] } }

/-- The task that a cache entry waits for. -/
def Job.entry? : Job → Option (CacheKey × CellId)
  | compile key target _ => some (key, target)
  | specialize .. | settle .. => none

/-- The key that the compiler is called for, and the request. -/
def Notice.compiled? : Notice → Option (CacheKey × Request)
  | compiled key request _ => some (key, request)
  | fetched _ | specialized .. | executed .. => none

def places (world : EngineWorld) (count : Nat) : List CellId :=
  List.range' world.store.cells.size count

def indirect : Async.Cell Payload Stage := { kind := .indirect }

/-- What a specializer makes of an executable. -/
def specialized (generic : Kernel) (specializer : Specializer) (key : ShapeKey) : Outcome Payload :=
  (contained "specializer" (specializer generic key)).map .executable

theorem specialized_valid (generic : Kernel) (specializer : Specializer) (key : ShapeKey) (handles : Nat) :
    Outcome.Valid handles (specialized generic specializer key) := by
  intro payload same
  unfold specialized at same
  cases made : contained "specializer" (specializer generic key) with
  | error =>
    rw [made] at same
    cases same
  | ok kernel =>
    rw [made] at same
    cases same
    trivial

/-- A task gives its cell no handle that does not exist. -/
def Job.Payable (handles : Nat) : Job → Prop
  | settle _ _ payload => payload.Valid handles
  | compile .. | specialize .. => True

/-- What additions may do besides making cells that are seen to. -/
structure Scope where
  /-- New executables may be asked for. -/
  chooses : Prop
  /-- Calls may wait for their operands or their handle. -/
  defers : Prop
  /-- Kernels may be run, and calls may wait for anything. -/
  acts : Prop

/-- Whatever a call adds. -/
def Scope.call : Scope := ⟨True, True, True⟩

/-- What is left once the handle is there. -/
def Scope.choice : Scope := ⟨True, False, True⟩

/-- What is left once the executable is there. -/
def Scope.kernel : Scope := ⟨False, False, True⟩

/-- What is left once the kernel has been started. -/
def Scope.plain : Scope := ⟨False, False, False⟩

/-- Whatever the one allows the other does. -/
structure Scope.Within (scope wider : Scope) : Prop where
  chooses : scope.chooses → wider.chooses
  defers : scope.defers → wider.defers
  acts : scope.acts → wider.acts

theorem Scope.within_call (scope : Scope) : scope.Within .call :=
  ⟨fun _ => trivial, fun _ => trivial, fun _ => trivial⟩

theorem Scope.kernel_within {scope : Scope} (acts : scope.acts) : Scope.kernel.Within scope :=
  ⟨False.elim, False.elim, fun _ => acts⟩

theorem Scope.plain_within (scope : Scope) : Scope.plain.Within scope := ⟨False.elim, False.elim, False.elim⟩

/-- A stage may be put off until this cell is there. -/
inductive Stage.Awaits (scope : Scope) : Stage → CellId → Prop where
  | handle {call views results} : scope.defers → Awaits scope (.handle call views results) call.handle
  | executable {call views results cell} : Awaits scope (.executable call views results) cell

/-- One addition, with what the waiters that it adds weigh. -/
inductive Addition (scope : Scope) (world : EngineWorld) : (cost : Nat) → EngineWorld → Prop where
  | make {cell} : cell.link = none → cell.waiters = [] →
      (∀ outcome, cell.outcome = some outcome → Outcome.Valid world.outer.handles.length outcome) →
      Addition scope world 0 (world.make cell)
  | note {number kernel views} : scope.acts →
      Addition scope world 0 (world.log (.noted (.executed number kernel views)))
  | converted {input} : Addition scope world 0 (world.log (.converted input))
  | own {outer} : outer.handles = world.outer.handles → outer.queue = world.outer.queue →
      outer.cache.entries = world.outer.cache.entries → (scope.acts ∨ outer.calls = world.outer.calls) →
      Addition scope world 0 { world with outer }
  | addHandle {handle} : handle.genericCell < world.store.cells.size →
      world.store.Holds handle.genericCell (.ok (.executable handle.generic)) →
      handle.specializations = [] → Addition scope world 0 (World.addHandle world handle)
  /-- A new executable is asked for, by a task. -/
  | specialize {id handle specializer key} : scope.chooses → world.outer.handles[id]? = some handle →
      handle.choose key = .fresh → handle.specializer = some specializer →
      Addition scope world 0 (World.enqueue (World.fitted world id handle key {})
        (.specialize id handle.generic specializer key world.store.cells.size))
  /-- A new executable is asked for and made. -/
  | specializeNow {id handle specializer key} : scope.chooses → world.outer.handles[id]? = some handle →
      handle.choose key = .fresh → handle.specializer = some specializer →
      Addition scope world 0 ((World.fitted world id handle key
        { outcome := some (specialized handle.generic specializer key) }).log
          (.noted (.specialized id handle.generic.name key)))
  /-- A task that gives a new cell its value. -/
  | enqueue {name payload} : payload.Valid world.outer.handles.length → Addition scope world 0
      (World.enqueue (world.make {}) (.settle name world.store.cells.size payload))
  | derive {id convert next} : id < world.store.cells.size → Converts convert →
      (world.make {}).Waits id (.derive world.store.cells.size convert) next → Addition scope world 1 next
  /-- The next stage of a call waits, with new placeholders. -/
  | putOff {id call stage next} : scope.acts → id < world.store.cells.size → call.Fits world.store.cells.size →
      stage.Awaits scope id → stage.call? = some call → stage.results = places world call.count →
      (world.makeMany indirect call.count).Waits id (.call stage) next →
      Addition scope world stage.weight next
  /-- A call waits for operands, with new placeholders. -/
  | gather {ids call next} : scope.acts → scope.defers → ids ≠ [] → call.Fits world.store.cells.size →
      World.WaitsEach (.arrive world.store.latches.length) ids
        ((world.makeMany indirect call.count).latch
          ⟨ids.length, .operands call (places world call.count)⟩) next →
      Addition scope world (ids.length + (call.count + 3)) next

/-- Any number of additions within a budget. -/
inductive Adds (scope : Scope) (world : EngineWorld) : (budget : Nat) → EngineWorld → Prop where
  | refl {budget} : Adds scope world budget world
  | tail {budget cost more between next} : Adds scope world budget between →
      Addition scope between cost next → budget + cost ≤ more → Adds scope world more next

namespace Adds

variable {scope : Scope} {world between next : EngineWorld} {budget more : Nat}

theorem mono (adds : Adds scope world budget next) (enough : budget ≤ more) : Adds scope world more next := by
  cases adds with
  | refl => exact .refl
  | tail before step cost => exact .tail before step (Nat.le_trans cost enough)

theorem trans (first : Adds scope world budget between) (second : Adds scope between more next) :
    Adds scope world (budget + more) next := by
  induction second with
  | refl => exact first.mono (Nat.le_add_right _ _)
  | tail _ step cost ih => exact .tail ih step (by omega)

theorem single {cost : Nat} (step : Addition scope world cost next) : Adds scope world cost next :=
  .tail (.refl : Adds scope world 0 world) step (by omega)

end Adds

/-- A new cell that is pending may always be made. -/
theorem Addition.pending (world : EngineWorld) : Addition .plain world 0 (world.make {}) :=
  .make rfl rfl fun _ same => by cases same

theorem Addition.grows {scope : Scope} {world next : EngineWorld} {cost : Nat} (step : Addition scope world cost next) :
    Async.Grows world next := by
  cases step with
  | make free nobody => exact .single (.make free nobody)
  | note => exact .single .note
  | converted => exact .single .converted
  | own | addHandle => exact .single .own
  | specialize | enqueue => exact .tail (.single (.make rfl rfl)) .own
  | specializeNow => exact .tail (.tail (.single (.make rfl rfl)) .own) .note
  | derive bound _ waits =>
    exact .tail (.single (.make rfl rfl)) (.waits (Async.World.lt_size_make bound {}) waits)
  | putOff _ bound _ _ _ _ waits =>
    refine .tail (world.grows_makeMany rfl rfl _) (.waits ?_ waits)
    rw [World.size_makeMany]
    exact Nat.lt_of_lt_of_le bound (Nat.le_add_right _ _)
  | gather _ _ _ _ waits => exact ((world.grows_makeMany rfl rfl _).tail .latch).trans waits.grows

theorem Stage.Awaits.widen {scope wider : Scope} (within : scope.Within wider) {stage : Stage} {id : CellId}
    (awaits : stage.Awaits scope id) : stage.Awaits wider id := by
  cases awaits with
  | handle defers => exact .handle (within.defers defers)
  | executable => exact .executable

theorem Addition.widen {scope wider : Scope} (within : scope.Within wider) {world next : EngineWorld} {cost : Nat}
    (step : Addition scope world cost next) : Addition wider world cost next := by
  cases step with
  | make free nobody valid => exact .make free nobody valid
  | note acts => exact .note (within.acts acts)
  | converted => exact .converted
  | own handles queue entries calls => exact .own handles queue entries (calls.imp_left within.acts)
  | addHandle inside holds empty => exact .addHandle inside holds empty
  | specialize chooses found fresh made => exact .specialize (within.chooses chooses) found fresh made
  | specializeNow chooses found fresh made => exact .specializeNow (within.chooses chooses) found fresh made
  | enqueue valid => exact .enqueue valid
  | derive bound converts waits => exact .derive bound converts waits
  | putOff acts bound fits awaits called placed waits =>
    exact .putOff (within.acts acts) bound fits (awaits.widen within) called placed waits
  | gather acts defers some fits waits => exact .gather (within.acts acts) (within.defers defers) some fits waits

theorem Adds.widen {scope wider : Scope} (within : scope.Within wider) {world next : EngineWorld} {budget : Nat}
    (adds : Adds scope world budget next) : Adds wider world budget next := by
  induction adds with
  | refl => exact .refl
  | tail _ step cost ih => exact .tail ih (step.widen within) cost

/-- What new placeholders are like. -/
theorem places_makeMany (world : EngineWorld) (count : Nat) :
    ∀ cell ∈ places world count, placeable (world.makeMany indirect count).store cell :=
  fun _ member => ⟨indirect, world.cell?_makeMany indirect count member, rfl⟩

theorem handles_length_set (world : EngineWorld) (id : HandleId) (handle : Handle) :
    (World.setHandle world id handle).outer.handles.length = world.outer.handles.length :=
  List.length_set

namespace Addition

variable {scope : Scope} {duties : List EngineDuty} {world next : EngineWorld} {cost : Nat}

theorem weight (step : Addition scope world cost next) :
    next.store.weight Stage.weight = cost + world.store.weight Stage.weight := by
  let tariff := Async.tariff (α := Payload) Stage.weight
  have same (store : EngineStore) : store.weight Stage.weight = tariff.store store :=
    (Async.tariff_store Stage.weight store).symm
  simp only [same]
  cases step with
  | make _ nobody => exact (tariff.store_make nobody).trans (Nat.zero_add _).symm
  | enqueue | specialize =>
    exact Eq.trans (tariff.store_make rfl : tariff.store (world.make {}).store = _) (Nat.zero_add _).symm
  | @specializeNow _ handle specializer key =>
    let cell : Async.Cell Payload Stage := { outcome := some (specialized handle.generic specializer key) }
    exact Eq.trans (tariff.store_make rfl : tariff.store (world.make cell).store = _) (Nat.zero_add _).symm
  | derive _ _ waits =>
    rw [waits.measure tariff]
    exact congrArg (1 + ·) (tariff.store_make rfl : tariff.store (world.make {}).store = _)
  | @putOff _ call _ _ _ _ _ _ _ _ waits =>
    rw [waits.measure tariff, world.measure_makeMany tariff rfl]
    rfl
  | @gather ids call _ _ _ some _ waits =>
    have latched := tariff.store_makeLatch (world.makeMany indirect call.count).store
      ⟨ids.length, .operands call (places world call.count)⟩
    have closed : ids.length ≠ 0 := fun empty => some (List.length_eq_zero_iff.1 empty)
    rw [Async.Measure.latch, if_neg closed, world.measure_makeMany tariff rfl] at latched
    have each (serial : Nat) (home : CellId) :
        tariff.waiter ⟨serial, home, .arrive world.store.latches.length⟩ = 1 := rfl
    rw [waits.measure tariff each, Async.World.latch, latched, Nat.mul_one, Nat.add_assoc]
    rfl
  | _ => exact (Nat.zero_add _).symm

/-- Handles are only added to. -/
theorem handles_le (step : Addition scope world cost next) :
    world.outer.handles.length ≤ next.outer.handles.length := by
  cases step with
  | own handles => exact Nat.le_of_eq (congrArg List.length handles.symm)
  | addHandle => simp [World.addHandle]
  | specialize | specializeNow => exact Nat.le_of_eq (handles_length_set ..).symm
  | derive _ _ waits => exact Nat.le_of_eq (congrArg (·.handles.length) waits.outer.symm)
  | putOff _ _ _ _ _ _ waits =>
    have same := waits.outer.trans (world.outer_makeMany ..)
    exact Nat.le_of_eq (congrArg (·.handles.length) same.symm)
  | gather _ _ _ _ waits =>
    have same := waits.outer.trans (world.outer_makeMany ..)
    exact Nat.le_of_eq (congrArg (·.handles.length) same.symm)
  | _ => exact Nat.le_refl _

/-- Only a cell that is made with an outcome shows more than before. -/
theorem shown (step : Addition scope world cost next) (sound : world.store.Sound) {id : CellId}
    {outcome : Outcome Payload} (held : next.store.state id = some outcome) :
    world.store.state id = some outcome ∨ Outcome.Valid world.outer.handles.length outcome := by
  have made : (world.make {}).store.state id = world.store.state id :=
    Async.World.state_make sound rfl rfl id
  have placed (count : Nat) : (world.makeMany indirect count).store.state id = world.store.state id :=
    Async.World.state_makeMany sound rfl rfl rfl count id
  have settled {cell : Async.Cell Payload Stage} (free : cell.link = none)
      (valid : ∀ given, cell.outcome = some given → Outcome.Valid world.outer.handles.length given)
      (held : (world.make cell).store.state id = some outcome) :
      world.store.state id = some outcome ∨ Outcome.Valid world.outer.handles.length outcome := by
    rw [Async.World.make, Async.Store.state_make sound free] at held
    split at held
    · exact .inr (valid outcome held)
    · exact .inl held
  have soundPlaced (count : Nat) : (world.makeMany indirect count).store.Sound :=
    (world.grows_makeMany rfl rfl count).sound sound
  cases step with
  | make free _ valid => exact settled free valid held
  | specializeNow =>
    refine settled rfl (fun given same => ?_) held
    cases same
    exact specialized_valid _ _ _ _
  | enqueue | specialize => exact .inl (made.symm.trans held)
  | derive _ _ waits =>
    rw [waits.state (sound.make rfl rfl) id, made] at held
    exact .inl held
  | putOff _ _ _ _ _ _ waits =>
    rw [waits.state (soundPlaced _) id, placed] at held
    exact .inl held
  | gather _ _ _ _ waits =>
    rw [waits.state ((soundPlaced _).of_cells_eq rfl) id, Async.World.state_latch, placed] at held
    exact .inl held
  | _ => exact .inl held

/-- The queue gets tasks that resolve new cells. -/
theorem queue (step : Addition scope world cost next) :
    ∃ more, next.outer.queue = world.outer.queue ++ more ∧
      ∀ job ∈ more, job.entry? = none ∧ job.target = world.store.cells.size ∧ job.Fits next := by
  have none (same : next.outer.queue = world.outer.queue) :
      ∃ more, next.outer.queue = world.outer.queue ++ more ∧
        ∀ job ∈ more, job.entry? = none ∧ job.target = world.store.cells.size ∧ job.Fits next :=
    ⟨[], by rw [same, List.append_nil], by simp⟩
  -- A task for the new cell, which is no placeholder.
  have one {job : Job} (same : next.outer.queue = world.outer.queue ++ [job])
      (cells : next.store = (world.make {}).store) (target : job.target = world.store.cells.size)
      (handles : world.outer.handles.length ≤ next.outer.handles.length) (apart : job.entry? = .none)
      (valid : job.Payable world.outer.handles.length) :
      ∃ more, next.outer.queue = world.outer.queue ++ more ∧
        ∀ job ∈ more, job.entry? = .none ∧ job.target = world.store.cells.size ∧ job.Fits next := by
    refine ⟨[job], same, fun other member => ?_⟩
    rw [List.mem_singleton.1 member]
    have here : next.store.cell? job.target = some {} := by
      rw [target, cells]
      exact (Async.Store.cell?_make world.store {} _).trans (if_pos rfl)
    refine ⟨apart, target, Async.Store.lt_size_of_cell? here, ?_, fun settles => ?_⟩
    · rintro ⟨found, there, kind⟩
      rw [here] at there
      cases there
      cases kind
    · subst settles
      exact Payload.Valid.later valid handles
  cases step with
  | own _ queue => exact none queue
  | specialize => exact one rfl rfl rfl (Nat.le_of_eq (handles_length_set ..).symm) rfl trivial
  | enqueue valid => exact one rfl rfl rfl (Nat.le_refl _) rfl valid
  | derive _ _ waits => exact none (by rw [waits.outer]; rfl)
  | putOff _ _ _ _ _ _ waits => exact none (by rw [waits.outer.trans (world.outer_makeMany ..)])
  | gather _ _ _ _ waits => exact none (by rw [waits.outer.trans (world.outer_makeMany ..)])
  | _ => exact none rfl

/-- Whatever new waiters see to is new. -/
theorem owners (step : Addition scope world cost next) {cell : CellId} (old : cell < world.store.cells.size) :
    Moment.owners Stage.results ⟨duties, next⟩ cell =
      Moment.owners Stage.results ⟨duties, world⟩ cell := by
  let owners := Async.owners (α := Payload) Stage.results cell
  -- The placeholders are new cells, and this one is old.
  have apart (count : Nat) : (List.range' world.store.cells.size count).count cell = 0 :=
    List.count_eq_zero.2 fun member => absurd (List.mem_range'_1.1 member).1 (Nat.not_le.2 old)
  have placed (count : Nat) : owners.store (world.makeMany indirect count).store = owners.store world.store :=
    world.measure_makeMany owners rfl count
  have same : owners.store next.store = owners.store world.store := by
    cases step with
    | make _ nobody => exact owners.store_make nobody
    | enqueue | specialize => exact (owners.store_make rfl : owners.store (world.make {}).store = _)
    | @specializeNow _ handle specializer key =>
      let cell : Async.Cell Payload Stage := { outcome := some (specialized handle.generic specializer key) }
      exact (owners.store_make rfl : owners.store (world.make cell).store = _)
    | derive _ _ waits =>
      rw [waits.measure owners]
      have made : owners.store (world.make {}).store = owners.store world.store := owners.store_make rfl
      rw [made]
      change [world.store.cells.size].count cell + _ = _
      rw [List.count_eq_zero.2 fun member => Nat.ne_of_lt old (List.mem_singleton.1 member), Nat.zero_add]
    | @putOff _ call stage _ _ _ _ _ _ results waits =>
      rw [waits.measure owners, placed]
      change stage.results.count cell + _ = _
      rw [results, places, apart, Nat.zero_add]
    | @gather ids call _ _ _ some _ waits =>
      have latched := owners.store_makeLatch (world.makeMany indirect call.count).store
        ⟨ids.length, .operands call (places world call.count)⟩
      have closed : ids.length ≠ 0 := fun empty => some (List.length_eq_zero_iff.1 empty)
      rw [Async.Measure.latch, if_neg closed, placed] at latched
      have each (serial : Nat) (home : CellId) :
          owners.waiter ⟨serial, home, .arrive world.store.latches.length⟩ = 0 := rfl
      rw [waits.measure owners each, Async.World.latch, latched]
      change _ + ((places world call.count).count cell + _) = _
      rw [places, apart, Nat.mul_zero, Nat.zero_add, Nat.zero_add]
    | _ => rfl
  exact congrArg _ same

/-- Nobody sees to the cells of new tasks. -/
theorem unowned (step : Addition scope world cost next) (exclusive : Moment.Exclusive Stage.results ⟨duties, world⟩)
    (jobs : ∀ job ∈ world.outer.queue, job.target < world.store.cells.size ∧
      Moment.owners Stage.results ⟨duties, world⟩ job.target = 0) :
    ∀ job ∈ next.outer.queue, Moment.owners Stage.results ⟨duties, next⟩ job.target = 0 := by
  have old {job : Job} (member : job ∈ world.outer.queue) :
      Moment.owners Stage.results ⟨duties, next⟩ job.target = 0 := by
    obtain ⟨inside, unowned⟩ := jobs job member
    exact (step.owners inside).trans unowned
  intro job member
  cases step with
  | own _ queue => exact old (queue ▸ member)
  | enqueue | specialize =>
    rcases List.mem_append.1 member with before | new
    · exact old before
    · rw [List.mem_singleton.1 new]
      exact (exclusive.unclaimed_make rfl rfl rfl).unowned
  | derive _ _ waits => exact old (waits.outer ▸ member)
  | putOff _ _ _ _ _ _ waits =>
    rw [waits.outer.trans (world.outer_makeMany ..)] at member
    exact old member
  | gather _ _ _ _ waits =>
    rw [waits.outer.trans (world.outer_makeMany ..)] at member
    exact old member
  | _ => exact old member

theorem entries (step : Addition scope world cost next) :
    next.outer.cache.entries = world.outer.cache.entries := by
  cases step with
  | own _ _ entries _ => exact entries
  | derive _ _ waits => rw [waits.outer]; rfl
  | putOff _ _ _ _ _ _ waits => rw [waits.outer.trans (world.outer_makeMany ..)]
  | gather _ _ _ _ waits => rw [waits.outer.trans (world.outer_makeMany ..)]
  | _ => rfl

theorem handles (step : Addition scope world cost next) (tidy : Tidy world) :
    ∀ handle ∈ next.outer.handles, handle.Fits next.store.cells.size := by
  have grown := step.grows.size_le
  have old {handle : Handle} (member : handle ∈ world.outer.handles) : handle.Fits next.store.cells.size :=
    (tidy.handles handle member).later grown
  -- A handle gets the new cell.
  have fitted {id : HandleId} {handle : Handle} {key : ShapeKey} {cell : Async.Cell Payload Stage}
      (found : world.outer.handles[id]? = some handle) (size : next.store.cells = (world.make cell).store.cells)
      {other : Handle} (member : other ∈ (World.fitted world id handle key cell).outer.handles) :
      other.Fits next.store.cells.size := by
    rcases List.mem_or_eq_of_mem_set member with before | rfl
    · exact old before
    · refine (old (List.mem_of_getElem? found)).specialize ?_
      rw [size, Async.World.make, Async.Store.size_make]
      exact Nat.lt_succ_self _
  intro handle member
  cases step with
  | own same => exact old (same ▸ member)
  | addHandle inside _ empty =>
    rcases List.mem_append.1 member with before | new
    · exact old before
    · rw [List.mem_singleton.1 new]
      exact ⟨inside, fun entry among => by rw [empty] at among; cases among⟩
  | specialize _ found => exact fitted found rfl member
  | specializeNow _ found => exact fitted found rfl member
  | derive _ _ waits => exact old (waits.outer ▸ member)
  | putOff _ _ _ _ _ _ waits =>
    rw [waits.outer.trans (world.outer_makeMany ..)] at member
    exact old member
  | gather _ _ _ _ waits =>
    rw [waits.outer.trans (world.outer_makeMany ..)] at member
    exact old member
  | _ => exact old member

theorem tidy (step : Addition scope world cost next) (sound : world.store.Sound) (tidy : Tidy world) :
    Tidy next where
  handles := step.handles tidy
  shown held := by
    rcases step.shown sound held with old | valid
    · exact (tidy.shown old).later step.handles_le
    · exact valid.later step.handles_le
  jobs job member := by
    obtain ⟨more, same, fits⟩ := step.queue
    rw [same] at member
    rcases List.mem_append.1 member with old | new
    · exact (tidy.jobs job old).later (step.grows.keeps sound) step.handles_le
    · exact (fits job new).2.2
  entries entry member :=
    Nat.lt_of_lt_of_le (tidy.entries entry (step.entries ▸ member)) step.grows.size_le

/-- A stage with new placeholders is in order. -/
theorem stage_fits {stage : Stage} {call : Call} (fits : call.Fits world.store.cells.size)
    (called : stage.call? = some call) (placed : stage.results = places world call.count)
    (keeps : (world.makeMany indirect call.count).store.Keeps next.store) : stage.Fits next.store where
  call same := by
    rw [called] at same
    cases same
    have grown := keeps.size_le
    rw [World.size_makeMany] at grown
    exact ⟨fits.later (by omega), by rw [placed, places, List.length_range']⟩
  results cell member := (places_makeMany world call.count cell (placed ▸ member)).later keeps

/-- What an addition that costs anything leaves to be run later. -/
inductive Brings (scope : Scope) (world next : EngineWorld) : Continuation Payload Stage → Prop where
  | arrive {latch} : Brings scope world next (.arrive latch)
  | derive {convert} : Converts convert → world.store.cells.size < next.store.cells.size →
      Brings scope world next (.derive world.store.cells.size convert)
  | operands {call results} : scope.defers → Stage.Fits next.store (.operands call results) →
      Brings scope world next (.call (.operands call results))
  | stage {stage : Stage} {id} : stage.Awaits scope id → stage.Fits next.store →
      Brings scope world next (.call stage)

/-- What holds of all continuations goes on to do so if it holds of those that an addition brings. -/
theorem carries_new {holds : Continuation Payload Stage → Prop} (step : Addition scope world cost next)
    (sound : world.store.Sound) (carries : Moment.Carries ⟨duties, world⟩ holds)
    (new : ∀ continuation, cost ≠ 0 → Brings scope world next continuation → holds continuation) :
    Moment.Carries ⟨duties, next⟩ holds := by
  have made (cell : Async.Cell Payload Stage) (nobody : cell.waiters = []) :
      Moment.Carries ⟨duties, world.make cell⟩ holds := carries.make nobody
  have placed (count : Nat) : Moment.Carries ⟨duties, world.makeMany indirect count⟩ holds :=
    carries.makeMany rfl count
  have soundPlaced (count : Nat) : (world.makeMany indirect count).store.Sound :=
    (world.grows_makeMany rfl rfl count).sound sound
  cases step with
  | make _ nobody => exact made _ nobody
  | enqueue | specialize => exact (made {} rfl).of_cells_eq rfl rfl
  | @specializeNow _ handle specializer key =>
    exact (made { outcome := some (specialized handle.generic specializer key) } rfl).of_cells_eq rfl rfl
  | derive _ converts waits =>
    have there : world.store.cells.size < next.store.cells.size := waits.size ▸ world.new_lt_size_make {}
    exact (made {} rfl).waits (new _ Nat.one_ne_zero (.derive converts there)) waits
  | @putOff id call stage _ _ bound fits awaits called results waits =>
    have inside : id < (world.makeMany indirect call.count).store.cells.size := by
      rw [World.size_makeMany]
      exact Nat.lt_of_lt_of_le bound (Nat.le_add_right _ _)
    have after : (world.makeMany indirect call.count).store.Keeps next.store :=
      Async.Grows.keeps (.single (.waits inside waits)) (soundPlaced _)
    have dear : stage.weight ≠ 0 := by cases stage <;> exact Nat.succ_ne_zero _
    exact (placed _).waits (new _ dear (.stage awaits (stage_fits fits called results after))) waits
  | @gather ids call _ _ defers _ fits waits =>
    have after : (world.makeMany indirect call.count).store.Keeps next.store :=
      Async.Grows.keeps (waits.grows.head .latch) (soundPlaced _)
    have dear : ids.length + (call.count + 3) ≠ 0 := Nat.succ_ne_zero _
    have body : holds (.call (.operands call (places world call.count))) :=
      new _ dear (.operands defers (stage_fits fits rfl rfl after))
    exact Moment.Carries.waitsEach ((placed call.count).latch body) (new _ dear .arrive) waits
  | _ => exact carries.of_cells_eq rfl rfl

theorem carries (step : Addition scope world cost next) (sound : world.store.Sound)
    (carries : Moment.Carries ⟨duties, world⟩ (ContinuationFits world.store)) :
    Moment.Carries ⟨duties, next⟩ (ContinuationFits next.store) := by
  refine step.carries_new sound (carries.mono (ContinuationFits.later (step.grows.keeps sound))) ?_
  rintro continuation - (_ | ⟨converts, there⟩ | ⟨-, fits⟩ | ⟨-, fits⟩)
  · trivial
  · exact ⟨there, converts⟩
  · exact fits
  · exact fits

theorem fit (step : Addition scope world cost next) (fit : Fit ⟨duties, world⟩) : Fit ⟨duties, next⟩ where
  orderly := (step.grows.moves duties).keep (fun move orderly => orderly.move move) fit.orderly
  tidy := step.tidy fit.orderly.sound fit.tidy
  carried := step.carries fit.orderly.sound fit.carried
  links source target member := by
    obtain ⟨inside, placed⟩ := fit.links source target member
    have keeps := step.grows.keeps fit.orderly.sound
    exact ⟨Nat.lt_of_lt_of_le inside keeps.size_le, placed.later keeps⟩
  gives target outcome member := by
    obtain ⟨inside, valid⟩ := fit.gives target outcome member
    exact ⟨Nat.lt_of_lt_of_le inside step.grows.size_le, valid.later step.handles_le⟩

theorem latched (step : Addition scope world cost next) (latched : Moment.Latched ⟨duties, world⟩) :
    Moment.Latched ⟨duties, next⟩ := by
  have made (cell : Async.Cell Payload Stage) (nobody : cell.waiters = []) :
      Moment.Latched ⟨duties, world.make cell⟩ := latched.makeMany nobody 1
  cases step with
  | make _ nobody => exact made _ nobody
  | enqueue | specialize => exact (made {} rfl).of_perm (.refl _) rfl
  | @specializeNow _ handle specializer key =>
    exact (made { outcome := some (specialized handle.generic specializer key) } rfl).of_perm (.refl _) rfl
  | derive _ _ waits => exact (made {} rfl).waits rfl waits
  | putOff _ _ _ _ _ _ waits => exact (latched.makeMany rfl _).waits rfl waits
  | @gather ids call _ _ _ _ _ waits =>
    have placed : Moment.Latched ⟨duties, world.makeMany indirect call.count⟩ := latched.makeMany rfl _
    rw [← World.latches_makeMany world indirect call.count] at waits
    exact placed.gather waits
  | _ => exact latched.of_perm (.refl _) rfl

theorem exclusive (step : Addition scope world cost next)
    (exclusive : Moment.Exclusive Stage.results ⟨duties, world⟩) :
    Moment.Exclusive Stage.results ⟨duties, next⟩ := by
  have fresh (count : Nat) : ∀ id ∈ List.range' world.store.cells.size count,
      Moment.Exclusive.Unclaimed Stage.results ⟨duties, world.makeMany indirect count⟩ id :=
    exclusive.unclaimed_makeMany rfl rfl rfl count
  have placed (count : Nat) : Moment.Exclusive Stage.results
      ⟨duties, world.makeMany indirect count⟩ := exclusive.makeMany rfl count
  have made : Moment.Exclusive Stage.results ⟨duties, world.make {}⟩ := exclusive.make rfl
  -- Whoever comes to wait owns cells that are new, each of them once.
  cases step with
  | make _ nobody => exact exclusive.make nobody
  | enqueue | specialize => exact made.same_cells _ rfl
  | @specializeNow _ handle specializer key =>
    let cell : Async.Cell Payload Stage := { outcome := some (specialized handle.generic specializer key) }
    have made : Moment.Exclusive Stage.results ⟨duties, world.make cell⟩ := exclusive.make rfl
    exact made.same_cells _ rfl
  | derive _ _ waits =>
    refine made.waits waits (List.nodup_singleton _) ?_
    intro cell member
    rw [List.mem_singleton.1 member]
    exact exclusive.unclaimed_make rfl rfl rfl
  | @putOff _ call stage _ _ _ _ _ _ results waits =>
    have owned : (Continuation.call stage : Continuation Payload Stage).owned Stage.results =
        List.range' world.store.cells.size call.count := results
    refine (placed call.count).waits waits ?_ ?_
    · rw [owned]
      exact List.nodup_range'
    · rw [owned]
      exact fresh call.count
  | @gather ids call _ _ _ some _ waits =>
    refine ((placed call.count).latch ?_ ?_ ?_).waitsEach rfl waits
    · exact fun empty => some (List.length_eq_zero_iff.1 empty)
    · exact List.nodup_range'
    · exact fresh call.count
  | _ => exact exclusive.same_cells _ rfl

/-- Handles keep what they chose. -/
theorem handlesKeep (step : Addition scope world cost next) :
    Pipeline.HandlesKeep world.outer.handles next.outer.handles := by
  intro id handle found
  have same (outer : next.outer.handles = world.outer.handles) :
      ∃ after, next.outer.handles[id]? = some after ∧ handle.Keeps after :=
    ⟨handle, outer ▸ found, .refl handle⟩
  have fitted {other : HandleId} {selected : Handle} {key : ShapeKey}
      (here : world.outer.handles[other]? = some selected) (fresh : selected.choose key = .fresh) :
      ∃ after, (world.outer.handles.set other (selected.specialized key world.store.cells.size))[id]? =
        some after ∧ handle.Keeps after := by
    by_cases chosen : id = other
    · subst chosen
      rw [found] at here
      cases here
      exact ⟨_, List.getElem?_set_self (List.getElem?_eq_some_iff.1 found).1,
        Handle.keeps_specialized fresh _⟩
    · exact ⟨handle, (List.getElem?_set_ne (Ne.symm chosen)).trans found, .refl handle⟩
  cases step with
  | own handles => exact same handles
  | addHandle =>
    have bound := (List.getElem?_eq_some_iff.1 found).1
    exact ⟨handle, (List.getElem?_append_left bound).trans found, .refl handle⟩
  | specialize _ here fresh => exact fitted here fresh
  | specializeNow _ here fresh => exact fitted here fresh
  | derive _ _ waits => exact same (congrArg State.handles waits.outer)
  | putOff _ _ _ _ _ _ waits =>
    exact same (congrArg State.handles (waits.outer.trans (world.outer_makeMany ..)))
  | gather _ _ _ _ waits =>
    exact same (congrArg State.handles (waits.outer.trans (world.outer_makeMany ..)))
  | _ => exact same rfl

/-- Where no executable is chosen, no handle changes. -/
theorem handle_same (step : Addition scope world cost next) (settled : ¬ scope.chooses) {id : HandleId}
    {handle : Handle} (found : world.outer.handles[id]? = some handle) : next.outer.handles[id]? = some handle := by
  cases step with
  | own handles => exact handles ▸ found
  | addHandle => exact (List.getElem?_append_left (List.getElem?_eq_some_iff.1 found).1).trans found
  | specialize chooses => exact absurd chooses settled
  | specializeNow chooses => exact absurd chooses settled
  | derive _ _ waits => exact waits.outer ▸ found
  | putOff _ _ _ _ _ _ waits => rw [waits.outer.trans (world.outer_makeMany ..), found]
  | gather _ _ _ _ waits => rw [waits.outer.trans (world.outer_makeMany ..), found]
  | _ => exact found

end Addition

/-! ## All additions of an action -/

/-- What calls rely on in the world they find. -/
structure Ready (world : EngineWorld) : Prop where
  sound : world.store.Sound
  tidy : Tidy world

theorem Fit.ready {moment : EngineMoment} (fit : Fit moment) : Ready moment.world :=
  ⟨fit.orderly.sound, fit.tidy⟩

namespace Adds

variable {scope : Scope} {duties : List EngineDuty} {world next : EngineWorld} {budget : Nat}

theorem grows (adds : Adds scope world budget next) : Async.Grows world next := by
  induction adds with
  | refl => exact .refl
  | tail _ step _ ih => exact ih.trans step.grows

theorem ready (adds : Adds scope world budget next) (ready : Ready world) : Ready next := by
  induction adds with
  | refl => exact ready
  | tail _ step _ ih => exact ⟨step.grows.sound ih.sound, step.tidy ih.sound ih.tidy⟩

theorem size_le (adds : Adds scope world budget next) : world.store.cells.size ≤ next.store.cells.size :=
  adds.grows.size_le

theorem weight_le (adds : Adds scope world budget next) :
    next.store.weight Stage.weight ≤ budget + world.store.weight Stage.weight := by
  induction adds with
  | refl => exact Nat.le_add_left _ _
  | tail _ step _ ih =>
    rw [step.weight]
    omega

theorem handlesKeep (adds : Adds scope world budget next) :
    Pipeline.HandlesKeep world.outer.handles next.outer.handles := by
  induction adds with
  | refl => exact .refl _
  | tail _ step _ ih => exact ih.trans step.handlesKeep

theorem handle_same (adds : Adds scope world budget next) (settled : ¬ scope.chooses) {id : HandleId}
    {handle : Handle} (found : world.outer.handles[id]? = some handle) : next.outer.handles[id]? = some handle := by
  induction adds with
  | refl => exact found
  | tail _ step _ ih => exact step.handle_same settled ih

theorem shows (adds : Adds scope world budget next) (ready : Ready world) :
    Pipeline.Extends world.store.state next.store.state :=
  fun _ _ shown => (adds.grows.keeps ready.sound).state shown

theorem fit (adds : Adds scope world budget next) (fit : Fit ⟨duties, world⟩) : Fit ⟨duties, next⟩ := by
  induction adds with
  | refl => exact fit
  | tail _ step _ ih => exact step.fit ih

theorem latched (adds : Adds scope world budget next) (latched : Moment.Latched ⟨duties, world⟩) :
    Moment.Latched ⟨duties, next⟩ := by
  induction adds with
  | refl => exact latched
  | tail _ step _ ih => exact step.latched ih

theorem entries (adds : Adds scope world budget next) :
    next.outer.cache.entries = world.outer.cache.entries := by
  induction adds with
  | refl => rfl
  | tail _ step _ ih => exact step.entries.trans ih

theorem owners (adds : Adds scope world budget next) {cell : CellId} (old : cell < world.store.cells.size) :
    Moment.owners Stage.results ⟨duties, next⟩ cell =
      Moment.owners Stage.results ⟨duties, world⟩ cell := by
  induction adds with
  | refl => rfl
  | tail before step _ ih => exact (step.owners (Nat.lt_of_lt_of_le old (size_le before))).trans ih

theorem queue (adds : Adds scope world budget next) :
    ∃ more, next.outer.queue = world.outer.queue ++ more ∧ ∀ job ∈ more,
      job.entry? = none ∧ world.store.cells.size ≤ job.target ∧ job.target < next.store.cells.size := by
  induction adds with
  | refl => exact ⟨[], (List.append_nil _).symm, by simp⟩
  | tail before step _ ih =>
    obtain ⟨more, same, new⟩ := ih
    obtain ⟨others, further, newer⟩ := step.queue
    refine ⟨more ++ others, by rw [further, same, List.append_assoc], fun job member => ?_⟩
    rcases List.mem_append.1 member with early | late
    · obtain ⟨apart, young, inside⟩ := new job early
      exact ⟨apart, young, Nat.lt_of_lt_of_le inside step.grows.size_le⟩
    · obtain ⟨apart, target, fits⟩ := newer job late
      exact ⟨apart, target ▸ size_le before, fits.target⟩

/-- Tasks that come up are for new cells. -/
theorem serving (adds : Adds scope world budget next) {cell : CellId} (old : cell < world.store.cells.size) :
    next.outer.serving cell = world.outer.serving cell := by
  obtain ⟨more, queue, new⟩ := adds.queue
  refine State.serving_append queue fun job member same => ?_
  exact absurd old (Nat.not_lt.2 (same ▸ (new job member).2.1))

end Adds

end DeferredJit.Engine
