import DeferredJit.Proofs.Engine.Upkeep

/-! Cells that tasks resolve: while one is pending there is exactly one task for it, in the queue or
just taken from it, and afterwards there is none. -/

set_option autoImplicit false

namespace DeferredJit.Engine

open Async (CellId Moment Continuation Routine Steps)

/-- One task less. -/
theorem World.queue_withdraw {world : EngineWorld} {place : Nat} {job : Job}
    (found : world.outer.queue[place]? = some job) :
    ∃ before after, world.outer.queue = before ++ job :: after ∧
      (World.withdraw world place).outer.queue = before ++ after := by
  obtain ⟨bound, here⟩ := List.getElem?_eq_some_iff.1 found
  refine ⟨_, _, ?_, List.eraseIdx_eq_take_drop_succ ..⟩
  rw [← here, List.getElem_cons_drop, List.take_append_drop]

theorem World.serving_taken (setup : Setup) {world : EngineWorld} {place : Nat} {job : Job}
    (found : world.outer.queue[place]? = some job) (cell : CellId) :
    if job.target = cell then
      ∃ before after, world.outer.serving cell = before ++ job :: after ∧
        (World.taken setup world place job).outer.serving cell = before ++ after
    else (World.taken setup world place job).outer.serving cell = world.outer.serving cell := by
  obtain ⟨before, after, whole, left⟩ := World.queue_withdraw found
  have queue : (World.taken setup world place job).outer.queue = before ++ after := by
    rw [World.outer_taken]
    exact left
  unfold State.serving
  rw [whole, queue]
  split
  · rename_i target
    exact ⟨before.filter (·.target == cell), after.filter (·.target == cell), by simp [target], List.filter_append ..⟩
  · rename_i other
    simp [other]

/-- The task of a new entry is for the cell of the entry. -/
theorem World.serving_enter {world : EngineWorld} {cell : CellId} (old : cell < world.store.cells.size) (key : CacheKey)
    (compilation : Option Compilation) :
    (World.enter world key compilation).outer.serving cell = world.outer.serving cell := by
  refine State.serving_append rfl fun job member same => ?_
  obtain ⟨given, -, rfl⟩ := Option.map_eq_some_iff.1 (Option.mem_toList.1 member)
  exact absurd old (Nat.not_lt.2 (Nat.le_of_eq same))

/-- What a cell is to get: the tasks that may resolve it, and what they may come to, for good. -/
structure Errand where
  task : Job → Prop
  result : List Handle → Outcome Payload → Prop
  keeps : ∀ {handles later outcome}, Pipeline.HandlesKeep handles later → result handles outcome →
    result later outcome

/-- The tasks do come to that. -/
def Errand.Sound (setup : Setup) (errand : Errand) : Prop :=
  ∀ ⦃job world outcome next⦄, errand.task job → prepared setup job world = (.ok outcome, next) →
    errand.result next.outer.handles outcome

/-- Any task. -/
def Errand.any : Errand := ⟨fun _ => True, fun _ _ => True, fun _ _ => trivial⟩

theorem Errand.sound_any (setup : Setup) : Errand.any.Sound setup := fun _ _ _ _ _ _ => trivial

/-- How far a cell is that a task resolves. -/
inductive Flight (errand : Errand) (moment : EngineMoment) (cell : CellId) : Prop where
  | queued {job} : moment.world.store.Blank cell → moment.world.outer.serving cell = [job] → errand.task job →
      (∀ outcome, .give cell outcome ∉ moment.duties) → Flight errand moment cell
  /-- The task is about to give the cell its outcome. -/
  | landing {outcome} : moment.world.store.Blank cell → moment.world.outer.serving cell = [] →
      errand.result moment.world.outer.handles outcome →
      moment.duties.head? = some (.give cell outcome) → Flight errand moment cell
  | landed {outcome} : moment.world.store.Holds cell outcome → moment.world.outer.serving cell = [] →
      errand.result moment.world.outer.handles outcome → Flight errand moment cell

/-- Nobody but tasks sees to the cell. -/
structure Served (errand : Errand) (moment : EngineMoment) (cell : CellId) : Prop where
  flight : Flight errand moment cell
  unowned : moment.owners Stage.results cell = 0
  concrete : ¬ placeable moment.world.store cell

theorem Flight.lt_size {errand : Errand} {moment : EngineMoment} {cell : CellId}
    (flight : Flight errand moment cell) :
    cell < moment.world.store.cells.size := by
  cases flight with
  | queued blank => exact blank.lt_size
  | landing blank => exact blank.lt_size
  | landed holds =>
    obtain ⟨found, here, -⟩ := holds
    exact Async.Store.lt_size_of_cell? here

/-- With nothing in progress, the cell is pending and has one task, or has an outcome and no task. -/
theorem Served.settled_or_queued {errand : Errand} {world : EngineWorld} {cell : CellId}
    (served : Served errand ⟨[], world⟩ cell) (sound : world.store.Sound) :
    (world.store.state cell = none ∧ ∃ job, world.outer.serving cell = [job] ∧ errand.task job) ∨
      ∃ outcome, world.store.state cell = some outcome ∧ world.outer.serving cell = [] ∧
        errand.result world.outer.handles outcome := by
  cases served.flight with
  | queued blank serving task => exact .inl ⟨blank.state_eq_none, _, serving, task⟩
  | landing _ _ _ due => cases due
  | landed holds serving result => exact .inr ⟨_, holds.state_eq sound, serving, result⟩

/-! ## Steps -/

/-- Nobody sees to a cell that does not exist. -/
theorem Fit.unborn {moment : EngineMoment} (fit : Fit moment) {cell : CellId}
    (missing : moment.world.store.cells.size ≤ cell) : moment.owners Stage.results cell = 0 := by
  have placed {placeholder : CellId} (indirect : placeable moment.world.store placeholder) :
      placeholder ≠ cell := by
    rintro rfl
    obtain ⟨found, here, -⟩ := indirect
    exact absurd (Async.Store.lt_size_of_cell? here) (Nat.not_lt.2 missing)
  refine Moment.Carries.unowned (fit.carried.mono ?_) fun target member =>
    placed (fit.links cell target member).2 rfl
  rintro (stage | latch | ⟨target, convert⟩) fits member
  · exact placed (Stage.Fits.results fits cell member) rfl
  · cases member
  · rw [List.mem_singleton.1 member] at missing
    exact absurd fits.1 (Nat.not_lt.2 missing)

namespace Flight

variable {errand : Errand} {duties : List EngineDuty} {world next : EngineWorld} {cell : CellId}

/-- Nothing that concerns the cell is done. -/
theorem congr {before after : EngineMoment} (flight : Flight errand before cell)
    (blank : before.world.store.Blank cell → after.world.store.Blank cell)
    (holds : ∀ outcome, before.world.store.Holds cell outcome → after.world.store.Holds cell outcome)
    (serving : after.world.outer.serving cell = before.world.outer.serving cell)
    (results : ∀ outcome, errand.result before.world.outer.handles outcome →
      errand.result after.world.outer.handles outcome)
    (gives : ∀ outcome, .give cell outcome ∈ after.duties → .give cell outcome ∈ before.duties)
    (due : ∀ outcome, before.duties.head? = some (.give cell outcome) →
      after.duties.head? = some (.give cell outcome)) : Flight errand after cell := by
  cases flight with
  | queued clean one task away =>
    exact .queued (blank clean) (serving.trans one) task fun outcome member => away outcome (gives outcome member)
  | landing clean none result head => exact .landing (blank clean) (serving.trans none) (results _ result) (due _ head)
  | landed held none result => exact .landed (holds _ held) (serving.trans none) (results _ result)

theorem adds {scope : Scope} {budget : Nat} (flight : Flight errand ⟨duties, world⟩ cell)
    (ready : Ready world) (adds : Adds scope world budget next) : Flight errand ⟨duties, next⟩ cell := by
  exact flight.congr (fun blank => adds.grows.blank blank)
    (fun _ holds => holds.later (adds.grows.keeps ready.sound)) (adds.serving flight.lt_size)
    (fun _ => errand.keeps adds.handlesKeep) (fun _ member => member) (fun _ head => head)

/-- The task that a pending cell waits for is taken, or one for another cell. -/
theorem take {setup : Setup} {place : Nat} {job : Job} {outcome : Outcome Payload}
    (flight : Flight errand ⟨[], world⟩ cell) (sound : errand.Sound setup) (fit : Fit ⟨[], world⟩)
    (found : world.outer.queue[place]? = some job)
    (ran : prepared setup job (World.withdraw world place) = (.ok outcome, next)) :
    Flight errand ⟨[.give job.target outcome], next⟩ cell := by
  obtain ⟨adds, -⟩ := fit.prepares found ran
  have store := World.store_taken setup world place job
  have left := World.serving_taken setup found cell
  split at left
  · rename_i target
    obtain ⟨before, after, whole, rest⟩ := left
    cases flight with
    | queued blank one task =>
      rcases List.append_eq_singleton_iff.1 (whole.symm.trans one) with ⟨rfl, same⟩ | ⟨-, none⟩
      · cases same
        have taken : (World.taken setup world place job).store.Blank cell := store ▸ blank
        refine .landing (adds.grows.blank taken) ((adds.serving taken.lt_size).trans rest) (sound task ran) ?_
        rw [target]
        rfl
      · cases none
    | landing _ _ _ due => cases due
    | landed _ none =>
      rw [none] at whole
      simp at whole
  · rename_i other
    have still : Flight errand ⟨[], World.taken setup world place job⟩ cell :=
      flight.congr (fun blank => store ▸ blank) (fun _ held => store ▸ held) left
        (fun _ result => World.outer_taken setup world place job ▸ result) (fun _ => id) (fun _ => id)
    refine (still.adds (fit.taken place job).ready adds).congr id (fun _ => id) rfl (fun _ => id) (fun given member => ?_)
      fun _ head => by cases head
    cases List.mem_singleton.1 member
    exact absurd rfl other

end Flight

namespace Served

variable {setup : Setup} {errand : Errand} {rules : Rules} {duties rest : List EngineDuty} {world next : EngineWorld}
  {before after : EngineMoment} {cell : CellId}

theorem lt_size (served : Served errand before cell) : cell < before.world.store.cells.size :=
  served.flight.lt_size

theorem adds {scope : Scope} {budget : Nat} (served : Served errand ⟨duties, world⟩ cell)
    (ready : Ready world) (adds : Adds scope world budget next) : Served errand ⟨duties, next⟩ cell where
  flight := served.flight.adds ready adds
  unowned := (adds.owners served.lt_size).trans served.unowned
  concrete indirect := served.concrete (indirect.earlier (adds.grows.keeps ready.sound) served.lt_size)

/-- The step of an operation in progress: it may be the one that resolves the cell. -/
theorem routine {mayPanic : Prop} (served : Served errand before cell) (fit : Fit before)
    (step : Routine mayPanic before after) : Served errand after cell := by
  have keeps := step.keeps fit.orderly.sound
  have unowned : after.owners Stage.results cell = 0 :=
    Nat.le_zero.1 (served.unowned ▸ Moment.Exclusive.less_routine step cell)
  have concrete : ¬ placeable after.world.store cell := fun indirect =>
    served.concrete (indirect.earlier keeps served.lt_size)
  refine ⟨?_, unowned, concrete⟩
  have gives (outcome : Outcome Payload) : .give cell outcome ∈ after.duties → .give cell outcome ∈ before.duties :=
    step.gives_of_unowned Stage.results served.unowned
  have flight := served.flight
  have kept (outcome : Outcome Payload) (holds : before.world.store.Holds cell outcome) :
      after.world.store.Holds cell outcome := holds.later keeps
  have outer := Fit.outer_routine step
  have serving : after.world.outer.serving cell = before.world.outer.serving cell := by rw [outer]
  have results (outcome : Outcome Payload) (result : errand.result before.world.outer.handles outcome) :
      errand.result after.world.outer.handles outcome := outer ▸ result
  cases step with
  | @give target outcome waiters rest world store settled =>
    by_cases same : target = cell
    · subst same
      have held := Async.Store.holds_settle settled
      cases flight with
      | queued _ _ _ away => exact absurd List.mem_cons_self (away outcome)
      | landing _ none result head =>
        cases head
        exact .landed held none result
      | landed before none result => exact .landed (kept _ before) none result
    · refine flight.congr (fun blank => blank.settle (Ne.symm same) settled) kept serving results gives ?_
      intro other head
      cases head
      exact absurd rfl same
  | @refuse target outcome rest world refused =>
    cases flight with
    | queued blank one task away =>
      exact .queued blank one task fun other member => away other (List.mem_cons_of_mem _ member)
    | landing blank none _ head =>
      -- A cell that is pending takes the outcome.
      cases head
      obtain ⟨waiters, store, settled⟩ := blank.settles outcome
      rw [refused] at settled
      cases settled
    | landed held none result => exact .landed held none result
  | @link source target waiters rest world store inside linked =>
    have apart : cell ≠ source := by
      rintro rfl
      exact served.concrete (fit.links _ _ List.mem_cons_self).2
    exact flight.congr (fun blank => blank.linkTo apart linked) kept serving results gives fun _ head => by cases head
  | park parked =>
    exact flight.congr (fun blank => blank.park parked) kept serving results gives fun _ head => by cases head
  | arrive _ arrived | opens _ arrived =>
    have same := Async.Store.cells_of_arriveAt arrived
    exact flight.congr (fun blank => blank.of_cells_eq same) kept serving results gives fun _ head => by cases head
  | _ => exact flight.congr id kept serving results gives fun _ head => by cases head

theorem take {place : Nat} {job : Job} {outcome : Outcome Payload} (served : Served errand ⟨[], world⟩ cell)
    (sound : errand.Sound setup) (fit : Fit ⟨[], world⟩) (found : world.outer.queue[place]? = some job)
    (ran : prepared setup job (World.withdraw world place) = (.ok outcome, next)) :
    Served errand ⟨[.give job.target outcome], next⟩ cell := by
  obtain ⟨adds, -⟩ := fit.prepares found ran
  have store := World.store_taken setup world place job
  have inside : cell < (World.taken setup world place job).store.cells.size := store ▸ served.lt_size
  refine ⟨served.flight.take sound fit found ran, ?_, fun indirect => ?_⟩
  · have unowned := served.unowned
    rw [owners_give, adds.owners inside]
    simp only [Moment.owners, Async.Measure.moment, store] at unowned ⊢
    exact unowned
  · have before : placeable (World.taken setup world place job).store cell :=
      indirect.earlier (adds.grows.keeps (fit.taken place job).orderly.sound) inside
    exact served.concrete (store ▸ before)

/-- A stage is taken; it links what it owes to what it came to. -/
theorem proceed {stage : Stage} {seen : Option (Outcome Payload)} {produced : List CellId}
    (served : Served errand ⟨.answer stage seen :: rest, world⟩ cell)
    (length : produced.length = stage.results.length) :
    Served errand ⟨linkAll stage.results produced ++ rest, world⟩ cell := by
  refine ⟨served.flight.congr id (fun _ => id) rfl (fun _ => id) (fun outcome member => ?_) (fun _ head => by cases head),
    (owners_proceed _ _ length seen cell).trans served.unowned, served.concrete⟩
  exact List.mem_cons_of_mem _ (mem_of_give_linkAll member)

theorem step (served : Served errand before cell) (sound : errand.Sound setup) (fit : Fit before)
    (untouched : ¬ rules.touches before.world cell) (step : Step setup rules before after) :
    Served errand after cell := by
  cases step with
  | routine step => exact served.routine fit step
  | @stage stage seen rest world depth produced next ran =>
    have proceeds := fit.proceeds ran
    exact (served.adds fit.ready proceeds.adds).proceed proceeds.length
  | falter =>
    refine ⟨served.flight.congr id (fun _ => id) rfl (fun _ => id) (fun _ member => List.mem_cons_of_mem _ member)
      (fun _ head => by cases head), Nat.le_zero.1 (served.unowned ▸ owners_drop _ _ _ cell), served.concrete⟩
  | @settle other outcome world allowed inside valid =>
    refine ⟨served.flight.congr id (fun _ => id) rfl (fun _ => id) (fun given member => ?_) (fun _ head => by cases head),
      (owners_give _ _ other outcome cell).trans served.unowned, served.concrete⟩
    cases List.mem_singleton.1 member
    exact absurd allowed untouched
  | @link source target world allowed =>
    have apart : source ≠ cell := fun same => untouched (same ▸ allowed)
    refine ⟨served.flight.congr id (fun _ => id) rfl (fun _ => id) (fun given member => ?_) (fun _ head => by cases head),
      ?_, served.concrete⟩
    · cases List.mem_singleton.1 member
    · rw [owners_link, if_neg apart, Nat.zero_add]
      exact served.unowned
  | @observe id panic world inside =>
    have cells := world.enroll_cells id (.call (.observer panic))
    have same : world.store.Keeps (World.observe world id panic).store := .of_cells_eq cells
    refine ⟨served.flight.congr (fun blank => blank.of_cells_eq cells) (fun _ holds => holds.later same) rfl
      (fun _ result => result)
      (fun given member => ?_) (fun _ head => by cases head), (owners_observe _ id panic cell).trans served.unowned,
      fun indirect => served.concrete (indirect.earlier same served.lt_size)⟩
    cases List.mem_singleton.1 member
  | grow adds => exact served.adds fit.ready adds
  | @enter key compilation world =>
    obtain ⟨flight, unowned, concrete⟩ := served.adds fit.ready (.single (.pending world))
    exact ⟨flight.congr (fun blank => blank.of_cells_eq rfl) (fun _ holds => holds)
      (World.serving_enter served.lt_size key compilation) (fun _ => id) (fun _ member => member) fun _ head => head,
      unowned, concrete⟩
  | take found ran => exact served.take sound fit found ran

end Served

/-! ## New cells -/

section New

variable {errand : Errand} {duties : List EngineDuty} {world next : EngineWorld} {job : Job}

/-- Nobody sees to a new cell, and it is no placeholder. -/
theorem Fit.newborn (fit : Fit ⟨duties, world⟩) (cell : Async.Cell Payload Stage) (nobody : cell.waiters = [])
    (concrete : cell.kind = .concrete) (store : next.store = (world.make cell).store) :
    Moment.owners Stage.results ⟨duties, next⟩ world.store.cells.size = 0 ∧
      ¬ placeable next.store world.store.cells.size := by
  constructor
  · have unowned := fit.unborn (Nat.le_refl world.store.cells.size)
    have same : Moment.owners Stage.results ⟨duties, next⟩ world.store.cells.size =
        Moment.owners Stage.results ⟨duties, world.make cell⟩ world.store.cells.size := by
      simp only [Moment.owners, Async.Measure.moment, store]
    exact same.trans ((Moment.Exclusive.owners_make Stage.results duties world nobody _).trans unowned)
  · rw [store]
    exact concrete_make world concrete

/-- A new cell has one task. -/
theorem served_queued (fit : Fit ⟨duties, world⟩) (store : next.store = (world.make {}).store)
    (queue : next.outer.queue = world.outer.queue ++ [job]) (target : job.target = world.store.cells.size)
    (task : errand.task job) : Served errand ⟨duties, next⟩ world.store.cells.size := by
  obtain ⟨unowned, concrete⟩ := fit.newborn {} rfl rfl store
  have found : next.store.cell? world.store.cells.size = some {} := by
    rw [store]
    exact (Async.Store.cell?_make world.store {} _).trans (if_pos rfl)
  refine ⟨.queued ⟨{}, found, rfl, rfl⟩ (serving_new fit.tidy queue target) task fun outcome member => ?_,
    unowned, concrete⟩
  exact absurd (fit.gives _ _ member).1 (Nat.lt_irrefl _)

/-- A new cell has an outcome already. -/
theorem served_settled {outcome : Outcome Payload} (fit : Fit ⟨duties, world⟩)
    (store : next.store = (world.make { outcome := some outcome }).store)
    (queue : next.outer.queue = world.outer.queue) (result : errand.result next.outer.handles outcome) :
    Served errand ⟨duties, next⟩ world.store.cells.size := by
  obtain ⟨unowned, concrete⟩ := fit.newborn { outcome := some outcome } rfl rfl store
  have found : next.store.cell? world.store.cells.size = some { outcome := some outcome } := by
    rw [store]
    exact (Async.Store.cell?_make world.store _ _).trans (if_pos rfl)
  have idle : next.outer.serving world.store.cells.size = [] := by
    unfold State.serving
    rw [queue]
    exact fit.tidy.serving_unborn
  exact ⟨.landed ⟨_, found, rfl⟩ idle result, unowned, concrete⟩

/-- The cell of a new entry has one task, which compiles it. -/
theorem served_enter (fit : Fit ⟨[], world⟩) (key : CacheKey) (compilation : Compilation)
    (task : errand.task (.compile key world.store.cells.size compilation)) :
    Served errand ⟨[], World.enter world key (some compilation)⟩ world.store.cells.size ∧
      (World.enter world key (some compilation)).outer.serving world.store.cells.size =
        [.compile key world.store.cells.size compilation] :=
  ⟨served_queued fit rfl rfl rfl task, serving_new fit.tidy rfl rfl⟩

end New

end DeferredJit.Engine
