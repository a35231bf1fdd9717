import DeferredJit.Proofs.Engine.Machine

/-! What every step of a run keeps: that everything fits, that latches miss what is on its way to
them, and that placeholders have one owner. -/

set_option autoImplicit false

namespace DeferredJit.Engine

open Async (CellId Moment Continuation Routine)

variable {setup : Setup} {rules : Rules}

/-! ## Fitness -/

/-- What a duty relies on, besides what all operations on cells rely on. -/
def DutyFits (world : EngineWorld) : EngineDuty → Prop
  | .hand _ waiter | .fire waiter => ContinuationFits world.store waiter.continuation
  | .answer stage _ => stage.Fits world.store
  | .give target outcome => target < world.store.cells.size ∧ Outcome.Valid world.outer.handles.length outcome
  | .link source target => target < world.store.cells.size ∧ placeable world.store source

namespace Fit

variable {duties rest : List EngineDuty} {duty : EngineDuty} {world : EngineWorld}

/-- A duty is dropped. -/
theorem drop (fit : Fit ⟨duty :: rest, world⟩) : Fit ⟨rest, world⟩ where
  orderly := fit.orderly.aside [duty] world.store world.outer rfl
  tidy := fit.tidy
  carried := fit.carried.drop
  links source target member := fit.links source target (List.mem_cons_of_mem _ member)
  gives target outcome member := fit.gives target outcome (List.mem_cons_of_mem _ member)

/-- A new duty that is in order itself. -/
theorem ask (fit : Fit ⟨duties, world⟩) (fair : duty.Fair world.store) (fits : DutyFits world duty) :
    Fit ⟨duty :: duties, world⟩ := by
  refine ⟨fit.orderly.ask fair, fit.tidy, fit.carried.ask ?_, ?_, ?_⟩
  · cases duty with
    | give | link => trivial
    | _ => exact fits
  · intro source target member
    rcases List.mem_cons.1 member with rfl | old
    · exact fits
    · exact fit.links source target old
  · intro target outcome member
    rcases List.mem_cons.1 member with rfl | old
    · exact fits
    · exact fit.gives target outcome old

/-- Links are to be made. -/
theorem link {sources targets : List CellId} (fit : Fit ⟨duties, world⟩)
    (placed : ∀ source ∈ sources, placeable world.store source)
    (inside : ∀ target ∈ targets, target < world.store.cells.size) :
    Fit ⟨linkAll sources targets ++ duties, world⟩ := by
  have fits : ∀ pair ∈ sources.zip targets, DutyFits world (.link pair.1 pair.2) := fun pair member =>
    ⟨inside pair.2 (List.of_mem_zip member).2, placed pair.1 (List.of_mem_zip member).1⟩
  unfold linkAll
  generalize sources.zip targets = pairs at fits
  induction pairs with
  | nil => exact fit
  | cons first others ih =>
    have after := ih fun pair member => fits pair (List.mem_cons_of_mem _ member)
    exact after.ask trivial (fits first List.mem_cons_self)

/-- What is not in cells changes. -/
theorem own (fit : Fit ⟨duties, world⟩) {outer : State} (handles : outer.handles = world.outer.handles)
    (jobs : ∀ job ∈ outer.queue, job.Fits world)
    (entries : ∀ entry ∈ outer.cache.entries, entry.2 < world.store.cells.size) :
    Fit ⟨duties, { world with outer }⟩ where
  orderly := fit.orderly.aside [] world.store outer rfl
  tidy := {
    handles := fun handle member => fit.tidy.handles handle (handles ▸ member)
    shown := fun held => handles ▸ fit.tidy.shown held
    jobs := fun job member => (jobs job member).later (.refl _) (Nat.le_of_eq (by rw [handles]))
    entries }
  carried := fit.carried.of_cells_eq rfl rfl
  links := fit.links
  gives target outcome member := handles ▸ fit.gives target outcome member

theorem noted (fit : Fit ⟨duties, world⟩) (notice : Option Notice) :
    Fit ⟨duties, World.noted world notice⟩ := by
  cases notice with
  | none => exact fit
  | some notice =>
    exact ⟨fit.orderly.log _ trivial, ⟨fit.tidy.handles, fit.tidy.shown,
      fun job member => (fit.tidy.jobs job member).later (.refl _) (Nat.le_refl _),
      fit.tidy.entries⟩, fit.carried.of_cells_eq rfl rfl, fit.links, fit.gives⟩

theorem withdraw (fit : Fit ⟨duties, world⟩) (place : Nat) : Fit ⟨duties, World.withdraw world place⟩ :=
  fit.own rfl (fun job member => fit.tidy.jobs job (List.mem_of_mem_eraseIdx member)) fit.tidy.entries

theorem enter (fit : Fit ⟨duties, world⟩) (key : CacheKey) (compilation : Option Compilation) :
    Fit ⟨duties, World.enter world key compilation⟩ := by
  have size : world.store.cells.size < (world.make {}).store.cells.size := by
    simp [Async.World.make]
  have fitMade := (Addition.pending world).fit fit
  refine fitMade.own rfl (fun job member => ?_) fun entry member => ?_
  · rcases List.mem_append.1 member with old | new
    · exact fitMade.tidy.jobs job old
    · obtain ⟨compilation, -, rfl⟩ := Option.map_eq_some_iff.1 (Option.mem_toList.1 new)
      refine ⟨size, ?_, fun same => by cases same⟩
      rintro ⟨found, there, kind⟩
      rw [Job.target, Async.World.make, Async.Store.cell?_make, if_pos rfl] at there
      cases there
      cases kind
  · rcases List.mem_append.1 member with old | new
    · exact fitMade.tidy.entries entry old
    · rw [List.mem_singleton.1 new]
      exact size

theorem observe (fit : Fit ⟨[], world⟩) {id : CellId} (inside : id < world.store.cells.size)
    (panic : Option Panic) :
    Fit ⟨[.hand id (world.store.enroll id (.call (.observer panic))).1], World.observe world id panic⟩ := by
  have cells := world.enroll_cells id (.call (.observer panic))
  have same : world.store.Keeps (World.observe world id panic).store := .of_cells_eq cells
  have fitWorld : Fit ⟨[], World.observe world id panic⟩ := by
    refine ⟨(fit.orderly.aside [] _ world.outer cells).log _ trivial, ?_, ?_, by simp, by simp⟩
    · exact fit.tidy.keeps same rfl fun held =>
        fit.tidy.shown ((Async.Store.state_of_cells_eq cells _).symm.trans held)
    · have carried := fit.carried.mono (ContinuationFits.later same)
      exact carried.of_cells_eq cells rfl
  have fits : Stage.Fits (World.observe world id panic).store (.observer panic) :=
    { call := fun called => by cases called
      results := fun cell member => by cases member }
  exact fitWorld.ask ⟨inside, inside, rfl⟩ fits

theorem taken (fit : Fit ⟨duties, world⟩) (place : Nat) (job : Job) :
    Fit ⟨duties, World.taken setup world place job⟩ := (fit.withdraw place).noted _

/-- What the stage that is next comes to. -/
theorem proceeds {stage : Stage} {seen : Option (Outcome Payload)} {depth : Nat} {produced : List CellId}
    {next : EngineWorld} (fit : Fit ⟨.answer stage seen :: rest, world⟩)
    (ran : proceed setup (within setup (depth + 1)) stage seen world = (.ok produced, next)) :
    Proceeds world stage seen produced next :=
  (proceed_ends setup depth fit.ready (fit.carried.asked _ _ List.mem_cons_self) seen).holds ran

/-- What a task adds before it gives its outcome. -/
theorem prepares {place : Nat} {job : Job} {outcome : Outcome Payload} {next : EngineWorld}
    (fit : Fit ⟨duties, world⟩) (found : world.outer.queue[place]? = some job)
    (ran : prepared setup job (World.withdraw world place) = (.ok outcome, next)) :
    Adds .plain (World.taken setup world place job) 0 next ∧
      Outcome.Valid next.outer.handles.length outcome := by
  have withdrawn : job.Fits (World.withdraw world place) :=
    (fit.tidy.jobs job (List.mem_of_getElem? found)).later (.refl _) (Nat.le_refl _)
  exact (prepared_ends setup withdrawn).holds ran

theorem step {before after : EngineMoment} (fit : Fit before) (step : Step setup rules before after) :
    Fit after := by
  cases step with
  | routine step => exact fit.routine step
  | stage ran =>
    have fits : Stage.Fits _ _ := fit.carried.asked _ _ List.mem_cons_self
    have proceeds := fit.proceeds ran
    have keeps := proceeds.adds.grows.keeps fit.orderly.sound
    exact (proceeds.adds.fit fit.drop).link (fun source member => (fits.results source member).later keeps)
      (fun target member => (proceeds.fresh target member).inside)
  | falter => exact fit.drop
  | settle _ inside valid => exact fit.ask trivial ⟨inside, valid⟩
  | link _ placed _ inside => exact fit.ask trivial ⟨inside, placed⟩
  | observe inside => exact fit.observe inside _
  | grow adds => exact adds.fit fit
  | enter => exact fit.enter _ _
  | @take place job _ _ _ found ran =>
    obtain ⟨adds, valid⟩ := fit.prepares found ran
    have inside := (fit.tidy.jobs job (List.mem_of_getElem? found)).target
    have grown := adds.size_le
    rw [World.store_taken] at grown
    exact (adds.fit (fit.taken place job)).ask trivial ⟨Nat.lt_of_lt_of_le inside grown, valid⟩

end Fit

/-! ## Cells -/

theorem Step.keeps {before after : EngineMoment} (step : Step setup rules before after) (fit : Fit before) :
    before.world.store.Keeps after.world.store := by
  have sound := fit.orderly.sound
  cases step with
  | routine step => exact step.keeps sound
  | stage ran =>
    have proceeds := fit.proceeds ran
    exact proceeds.adds.grows.keeps sound
  | falter | settle | link => exact .refl _
  | observe => exact .of_cells_eq rfl
  | grow adds => exact adds.grows.keeps sound
  | enter => exact .make sound rfl
  | @take place job _ world _ found ran =>
    obtain ⟨adds, -⟩ := fit.prepares found ran
    have keeps := adds.grows.keeps (fit.taken place job).orderly.sound
    rwa [World.store_taken] at keeps

theorem Fit.steps {before after : EngineMoment} (fit : Fit before)
    (steps : Async.Steps (Step setup rules) before after) :
    Fit after ∧ before.world.store.Keeps after.world.store := by
  induction steps with
  | refl => exact ⟨fit, .refl _⟩
  | tail _ step ih => exact ⟨ih.1.step step, ih.2.trans (step.keeps ih.1)⟩

/-- What single steps carry on from fit moments, all steps carry on. -/
theorem Fit.carry (holds : EngineMoment → Prop) {before after : EngineMoment} (fit : Fit before)
    (steps : Async.Steps (Step setup rules) before after) (start : holds before)
    (carried : ∀ {before after : EngineMoment}, Step setup rules before after → Fit before → holds before →
      holds after) : holds after := by
  have both : Fit after ∧ holds after := by
    induction steps with
    | refl => exact ⟨fit, start⟩
    | tail _ step ih => exact ⟨ih.1.step step, carried step ih.1 ih.2⟩
  exact both.2

/-! ## Latches -/

theorem waiters_linkAll (sources targets : List CellId) :
    (linkAll sources targets).filterMap Async.Duty.waiter? = [] := by
  refine List.filterMap_eq_nil_iff.2 fun duty member => ?_
  obtain ⟨pair, -, rfl⟩ := List.mem_map.1 member
  rfl

theorem Latched.step {before after : EngineMoment} (latched : before.Latched) (fit : Fit before)
    (step : Step setup rules before after) : after.Latched := by
  -- What does not change who waits and what for.
  have same {before after : EngineMoment} (latched : before.Latched)
      (outstanding : after.outstanding = before.outstanding)
      (latches : after.world.store.latches = before.world.store.latches) : after.Latched := by
    refine latched.of_perm (.of_eq ?_) latches
    unfold Moment.arrivals
    rw [outstanding]
  cases step with
  | routine step => exact latched.routine step
  | @stage _ _ rest _ _ _ next ran =>
    have proceeds := fit.proceeds ran
    refine same (proceeds.adds.latched latched) ?_ rfl
    simp only [Moment.outstanding, List.filterMap_append, waiters_linkAll, List.nil_append]
    rfl
  | falter => exact same latched rfl rfl
  | settle => exact same latched rfl rfl
  | link => exact same latched rfl rfl
  | @observe id panic world inside =>
    refine latched.of_perm ?_ rfl
    simp [Moment.arrivals, Moment.outstanding, Async.Duty.waiter?, Async.Store.enroll, Continuation.arrival?,
      World.observe, Async.World.enroll, Async.World.log, Async.Store.waiters]
  | grow adds => exact adds.latched latched
  | @enter _ _ world _ _ =>
    exact same ((Addition.pending world).latched latched) rfl rfl
  | @take place job outcome world next found ran =>
    obtain ⟨adds, -⟩ := fit.prepares found ran
    have taken : Moment.Latched ⟨[], World.taken setup world place job⟩ :=
      same latched (by rw [Moment.outstanding, World.store_taken]; rfl) (by rw [World.store_taken])
    exact same (adds.latched taken) rfl rfl

/-! ## Owners -/

/-- Placeholders have one owner, and cells that tasks resolve have none. -/
structure Apart (moment : EngineMoment) : Prop where
  exclusive : moment.Exclusive Stage.results
  jobs : ∀ job ∈ moment.world.outer.queue, moment.owners Stage.results job.target = 0

/-- Outside parties leave alone what waiters see to. -/
def Rules.Polite (rules : Rules) : Prop :=
  ∀ {world id}, rules.touches world id → Moment.owners Stage.results ⟨[], world⟩ id = 0

theorem owners_linkAll {sources targets : List CellId} (same : targets.length = sources.length)
    (cell : CellId) :
    (Async.owners (α := Payload) Stage.results cell).duties (linkAll sources targets) =
      sources.count cell := by
  induction sources generalizing targets with
  | nil => rfl
  | cons source sources ih =>
    cases targets with
    | nil => cases same
    | cons target targets =>
      have rest := ih (Nat.succ.inj same)
      change (if source = cell then 1 else 0) +
        (Async.owners Stage.results cell).duties (linkAll sources targets) = _
      rw [rest, List.count_cons]
      simp only [beq_iff_eq]
      omega

section Owners

variable (duties rest : List EngineDuty) (world : EngineWorld)

/-- The links that a stage makes are owed by whoever was to take the stage. -/
theorem owners_proceed {stage : Stage} {produced : List CellId}
    (length : produced.length = stage.results.length) (seen : Option (Outcome Payload)) (cell : CellId) :
    Moment.owners Stage.results ⟨linkAll stage.results produced ++ rest, world⟩ cell =
      Moment.owners Stage.results ⟨.answer stage seen :: rest, world⟩ cell := by
  simp only [Moment.owners, Async.Measure.moment, Async.Measure.duties_append, owners_linkAll length,
    Async.Measure.duties_cons]
  rfl

theorem owners_drop (duty : EngineDuty) (cell : CellId) : Moment.owners Stage.results ⟨rest, world⟩ cell ≤
    Moment.owners Stage.results ⟨duty :: rest, world⟩ cell := by
  simp only [Moment.owners, Async.Measure.moment, Async.Measure.duties_cons]
  omega

theorem owners_give (id : CellId) (outcome : Outcome Payload) (cell : CellId) :
    Moment.owners Stage.results ⟨.give id outcome :: duties, world⟩ cell =
      Moment.owners Stage.results ⟨duties, world⟩ cell := by
  simp only [Moment.owners, Async.Measure.moment, Async.Measure.duties_cons]
  exact Nat.add_right_cancel_iff.2 (Nat.zero_add _)

theorem owners_link (source target cell : CellId) :
    Moment.owners Stage.results ⟨.link source target :: duties, world⟩ cell =
      (if source = cell then 1 else 0) + Moment.owners Stage.results ⟨duties, world⟩ cell :=
  Nat.add_assoc ..

theorem owners_observe (id : CellId) (panic : Option Panic) (cell : CellId) :
    Moment.owners Stage.results
        ⟨[.hand id (world.store.enroll id (.call (.observer panic))).1], World.observe world id panic⟩ cell =
      Moment.owners Stage.results ⟨[], world⟩ cell := rfl

end Owners

namespace Apart

variable {duties rest : List EngineDuty} {world next : EngineWorld} {scope : Scope} {budget : Nat}

theorem addition {cost : Nat} (apart : Apart ⟨duties, world⟩) (tidy : Tidy world)
    (step : Addition scope world cost next) : Apart ⟨duties, next⟩ where
  exclusive := step.exclusive apart.exclusive
  jobs := step.unowned apart.exclusive fun job member => ⟨(tidy.jobs job member).target, apart.jobs job member⟩

theorem adds (apart : Apart ⟨duties, world⟩) (ready : Ready world) (adds : Adds scope world budget next) :
    Apart ⟨duties, next⟩ := by
  induction adds with
  | refl => exact apart
  | tail before step _ ih => exact ih.addition (before.ready ready).tidy step

/-- No cell gets another owner. -/
theorem fewer {before after : EngineMoment} (apart : Apart before)
    (exclusive : after.Exclusive Stage.results)
    (less : ∀ cell, after.owners Stage.results cell ≤ before.owners Stage.results cell)
    (queue : ∀ job ∈ after.world.outer.queue, job ∈ before.world.outer.queue) : Apart after where
  exclusive := exclusive
  jobs job member := Nat.le_zero.1 (Nat.le_trans (less _) (Nat.le_of_eq (apart.jobs job (queue job member))))

theorem proceed {stage : Stage} {seen : Option (Outcome Payload)} {produced : List CellId}
    (apart : Apart ⟨.answer stage seen :: rest, world⟩) (length : produced.length = stage.results.length) :
    Apart ⟨linkAll stage.results produced ++ rest, world⟩ := by
  have same := owners_proceed rest world length seen
  refine apart.fewer ?_ (fun cell => Nat.le_of_eq (same cell)) (fun _ member => member)
  refine apart.exclusive.fewer (fun cell => Nat.le_of_eq (same cell)) (Nat.le_refl _)
    (fun _ _ blank => blank) fun target outcome member => .inl ?_
  exact List.mem_cons_of_mem _ (mem_of_give_linkAll member)

theorem drop {duty : EngineDuty} (apart : Apart ⟨duty :: rest, world⟩) : Apart ⟨rest, world⟩ := by
  have less := owners_drop rest world duty
  exact apart.fewer (apart.exclusive.fewer less (Nat.le_refl _) (fun _ _ blank => blank)
    fun _ _ member => .inl (List.mem_cons_of_mem _ member)) less (fun _ member => member)

/-- An outcome for a cell that nobody sees to. -/
theorem give (apart : Apart ⟨duties, world⟩) {id : CellId} (inside : id < world.store.cells.size)
    (unowned : Moment.owners Stage.results ⟨duties, world⟩ id = 0) (outcome : Outcome Payload) :
    Apart ⟨.give id outcome :: duties, world⟩ := by
  have same := owners_give duties world id outcome
  refine apart.fewer ?_ (fun cell => Nat.le_of_eq (same cell)) (fun _ member => member)
  refine apart.exclusive.fewer (fun cell => Nat.le_of_eq (same cell)) (Nat.le_refl _)
    (fun _ _ blank => blank) fun target other member => ?_
  rcases List.mem_cons.1 member with new | old
  · cases new
    exact .inr ⟨inside, (same _).trans unowned⟩
  · exact .inl old

/-- What is not in cells changes, and the queue gets no new tasks. -/
theorem own (apart : Apart ⟨duties, world⟩) (store : next.store = world.store)
    (queue : ∀ job ∈ next.outer.queue, job ∈ world.outer.queue) : Apart ⟨duties, next⟩ := by
  refine apart.fewer (apart.exclusive.same_cells next store) (fun cell => ?_) queue
  simp only [Moment.owners, Async.Measure.moment, store, Nat.le_refl]

/-- A link of a blank cell that nobody sees to. -/
theorem link (apart : Apart ⟨[], world⟩) {source target : CellId} (blank : world.store.Blank source)
    (unowned : Moment.owners Stage.results ⟨[], world⟩ source = 0)
    (queue : ∀ job ∈ world.outer.queue, job.target ≠ source) :
    Apart ⟨[.link source target], world⟩ := by
  have owners := owners_link [] world source target
  refine ⟨⟨fun cell => ?_, fun cell owned => ?_, by simp⟩, fun job member => ?_⟩
  · have once := apart.exclusive.once cell
    rw [owners]
    split
    · rename_i same
      subst same
      omega
    · omega
  · rw [owners] at owned
    split at owned
    · rename_i same
      exact same ▸ blank
    · exact apart.exclusive.blank cell (by omega)
  · rw [owners, if_neg (Ne.symm (queue job member)), apart.jobs job member]

theorem observe (apart : Apart ⟨[], world⟩) (id : CellId) (panic : Option Panic) :
    Apart ⟨[.hand id (world.store.enroll id (.call (.observer panic))).1], World.observe world id panic⟩ := by
  have same := owners_observe world id panic
  refine apart.fewer ?_ (fun cell => Nat.le_of_eq (same cell)) (fun _ member => member)
  exact apart.exclusive.fewer (fun cell => Nat.le_of_eq (same cell)) (Nat.le_refl _)
    (fun _ _ blank => blank.of_cells_eq (world.enroll_cells ..)) (by simp)

theorem enter (apart : Apart ⟨duties, world⟩) (tidy : Tidy world) (key : CacheKey)
    (compilation : Option Compilation) : Apart ⟨duties, World.enter world key compilation⟩ := by
  have apartMade := apart.addition tidy (.pending world)
  have same (cell : CellId) : Moment.owners Stage.results ⟨duties, World.enter world key compilation⟩ cell =
      Moment.owners Stage.results ⟨duties, world.make {}⟩ cell := rfl
  refine ⟨apartMade.exclusive.same_cells _ rfl, fun job member => ?_⟩
  rw [same]
  rcases List.mem_append.1 member with old | new
  · exact apartMade.jobs job old
  · obtain ⟨compilation, -, rfl⟩ := Option.map_eq_some_iff.1 (Option.mem_toList.1 new)
    exact (apart.exclusive.unclaimed_make rfl rfl rfl).unowned

theorem step {before after : EngineMoment} (apart : Apart before) (fit : Fit before) (polite : rules.Polite)
    (step : Step setup rules before after) : Apart after := by
  cases step with
  | routine step =>
    refine apart.fewer (apart.exclusive.routine step) (Moment.Exclusive.less_routine step) ?_
    intro job member
    rwa [Fit.outer_routine step] at member
  | stage ran =>
    have proceeds := fit.proceeds ran
    exact (apart.adds fit.ready proceeds.adds).proceed proceeds.length
  | falter => exact apart.drop
  | settle allowed inside _ => exact apart.give inside (polite allowed) _
  | @link source target world allowed placed blank inside =>
    refine apart.link blank (polite allowed) fun job member same => ?_
    exact (fit.tidy.jobs job member).concrete (same ▸ placed)
  | observe => exact apart.observe _ _
  | grow adds => exact apart.adds fit.ready adds
  | enter => exact apart.enter fit.tidy _ _
  | @take place job outcome world next found ran =>
    obtain ⟨adds, -⟩ := fit.prepares found ran
    have member := List.mem_of_getElem? found
    have taken : Apart ⟨[], World.taken setup world place job⟩ :=
      apart.own (World.store_taken ..) (by rw [World.outer_taken]; exact fun _ among => List.mem_of_mem_eraseIdx among)
    have inside : job.target < (World.taken setup world place job).store.cells.size := by
      rw [World.store_taken]
      exact (fit.tidy.jobs job member).target
    refine (taken.adds (fit.taken place job).ready adds).give (Nat.lt_of_lt_of_le inside adds.size_le) ?_ outcome
    rw [adds.owners inside]
    have unowned := apart.jobs job member
    simp only [Moment.owners, Async.Measure.moment, World.store_taken] at unowned ⊢
    exact unowned

end Apart

end DeferredJit.Engine
