import DeferredJit.Proofs.Engine.Progress
import DeferredJit.Proofs.Engine.Specialization

/-! Which executable operands get, over whole runs. -/

set_option autoImplicit false

namespace DeferredJit

open Async (CellId)

namespace Handle

variable {handle : Handle} {key : ShapeKey}

theorem choose_eq_known {cell : CellId} (willing : handle.specializes = true)
    (found : handle.specializations.lookup key = some cell) : handle.choose key = .known cell := by
  unfold choose
  rw [if_pos willing, found]

theorem choose_eq_generic (willing : handle.specializes = true)
    (missing : handle.specializations.lookup key = none) (full : handle.limit ≤ handle.specializations.length) :
    handle.choose key = .generic := by
  unfold choose
  rw [if_pos willing, missing]
  exact if_pos full

theorem choose_eq_fresh (willing : handle.specializes = true)
    (missing : handle.specializations.lookup key = none) (room : handle.specializations.length < handle.limit) :
    handle.choose key = .fresh := by
  unfold choose
  rw [if_pos willing, missing]
  exact if_neg (Nat.not_le.2 room)

/-- The shapes that a handle has executables for are the first ones that were asked for, also after one
more choice. -/
theorem firsts_served {asked : List ShapeKey} {views : List Memref} {cell : CellId}
    (willing : handle.specializes = true) (checked : handle.generic.signature.check views = .ok ())
    (firsts : handle.specializations.map Prod.fst = asked.eraseDups.take handle.limit) :
    (handle.served views cell).specializations.map Prod.fst =
      (asked ++ [ShapeKey.ofMemrefs views]).eraseDups.take handle.limit := by
  have length := congrArg List.length firsts
  rw [List.length_map, List.length_take] at length
  rw [List.eraseDups_append]
  by_cases repeated : ShapeKey.ofMemrefs views ∈ asked
  · have nothing : [ShapeKey.ofMemrefs views].removeAll asked = [] := by
      simp [List.removeAll, repeated]
    rw [nothing, List.eraseDups_nil, List.append_nil, ← firsts]
    cases found : handle.specializations.lookup (ShapeKey.ofMemrefs views) with
    | some known => rw [served_settled (by rw [choose_eq_known willing found]; simp)]
    | none =>
      -- If there were room, the shapes would be among those that have an executable.
      have full : handle.limit ≤ handle.specializations.length := by
        by_contra room
        refine lookup_eq_none_iff.1 found ?_
        rw [firsts, List.take_of_length_le (by omega)]
        exact List.mem_eraseDups.2 repeated
      rw [served_settled (by rw [choose_eq_generic willing found full]; simp)]
  · have single : [ShapeKey.ofMemrefs views].removeAll asked = [ShapeKey.ofMemrefs views] := by
      simp [List.removeAll, repeated]
    have missing : handle.specializations.lookup (ShapeKey.ofMemrefs views) = none := by
      rw [lookup_eq_none_iff, firsts]
      exact fun member => repeated (List.mem_eraseDups.1 (List.mem_of_mem_take member))
    rw [single, show [ShapeKey.ofMemrefs views].eraseDups = [ShapeKey.ofMemrefs views] by simp [List.eraseDups_cons]]
    -- New shapes come last, and are cut off when there is no room.
    by_cases room : handle.specializations.length < handle.limit
    · rw [served_fresh checked (choose_eq_fresh willing missing room)]
      change (handle.specializations ++ [(ShapeKey.ofMemrefs views, cell)]).map Prod.fst = _
      rw [List.map_append, firsts, List.take_of_length_le (by omega), List.take_of_length_le (by simp; omega)]
      rfl
    · rw [served_settled (by rw [choose_eq_generic willing missing (by omega)]; simp), firsts,
        List.take_append_of_le_length (by omega)]

end Handle

namespace Engine

open Async (Moment Continuation Routine Steps)

/-! ## Runs without calls -/

/-- No call waits for anything. -/
def Uncalled (moment : EngineMoment) : Prop :=
  moment.Carries fun continuation => ∀ stage, continuation = .call stage → stage.call? = none

/-- What costs nothing brings no waiters. -/
theorem Adds.carries_free {scope : Scope} {world next : EngineWorld} {budget : Nat} {duties : List EngineDuty}
    {holds : Continuation Payload Stage → Prop} (adds : Adds scope world budget next) (sound : world.store.Sound)
    (free : budget = 0) (carries : Moment.Carries ⟨duties, world⟩ holds) : Moment.Carries ⟨duties, next⟩ holds := by
  induction adds with
  | refl => exact carries
  | tail before step enough ih =>
    exact step.carries_new (before.grows.sound sound) (ih (by omega)) fun _ dear => absurd (by omega) dear

theorem HandlesStay.refl (handles : List Handle) : HandlesStay handles handles := fun _ _ found => found

theorem HandlesStay.trans {handles others later : List Handle} (first : HandlesStay handles others)
    (second : HandlesStay others later) : HandlesStay handles later := fun _ _ found => second (first found)

section Uncalled

variable {setup : Setup} {rules : Rules} {before after : EngineMoment}

/-- Where there are no calls, no handle gets another executable. -/
theorem Uncalled.step (uncalled : Uncalled before) (fit : Fit before) (calm : ¬ rules.calls)
    (step : Step setup rules before after) :
    Uncalled after ∧ HandlesStay before.world.outer.handles after.world.outer.handles := by
  cases step with
  | routine step =>
    refine ⟨Moment.Carries.routine uncalled step, ?_⟩
    rw [Fit.outer_routine step]
    exact .refl _
  | @stage stage seen rest world depth produced next ran =>
    have proceeds := fit.proceeds ran
    have observes : stage.call? = none := uncalled.asked stage seen List.mem_cons_self stage rfl
    cases stage with
    | observer panic =>
      have adds : Adds .kernel world 0 next := proceeds.adds
      exact ⟨adds.carries_free fit.orderly.sound rfl uncalled.drop, adds.handlesStay id⟩
    | _ => cases observes
  | falter => exact ⟨uncalled.drop, .refl _⟩
  | settle => exact ⟨uncalled.ask trivial, .refl _⟩
  | link => exact ⟨uncalled.ask trivial, .refl _⟩
  | @observe id panic world inside =>
    have observed : Uncalled ⟨[], World.observe world id panic⟩ := uncalled.of_cells_eq rfl rfl
    refine ⟨observed.ask fun stage same => ?_, .refl _⟩
    cases same
    rfl
  | grow adds granted =>
    obtain ⟨rfl, settled⟩ := granted.resolve_left calm
    exact ⟨adds.carries_free fit.orderly.sound rfl uncalled, adds.handlesStay settled⟩
  | @enter key compilation world =>
    have made : Moment.Carries ⟨[], world.make {}⟩ _ := uncalled.make rfl
    exact ⟨made.of_cells_eq rfl rfl, .refl _⟩
  | @take place job outcome world next found ran =>
    obtain ⟨adds, -⟩ := fit.prepares found ran
    have store := World.store_taken setup world place job
    have taken : Uncalled ⟨[], World.taken setup world place job⟩ :=
      uncalled.of_cells_eq (congrArg _ store) (congrArg _ store)
    refine ⟨Moment.Carries.ask (adds.carries_free (fit.taken place job).orderly.sound rfl taken) trivial, ?_⟩
    have stay := adds.handlesStay id
    rwa [World.outer_taken] at stay

theorem Uncalled.steps (uncalled : Uncalled before) (fit : Fit before) (calm : ¬ rules.calls)
    (steps : Steps (Step setup rules) before after) :
    Uncalled after ∧ HandlesStay before.world.outer.handles after.world.outer.handles := by
  refine fit.carry (fun moment => Uncalled moment ∧ HandlesStay before.world.outer.handles moment.world.outer.handles)
    steps ⟨uncalled, .refl _⟩ fun step fit held => ?_
  obtain ⟨uncalled, stay⟩ := held
  obtain ⟨still, further⟩ := uncalled.step fit calm step
  exact ⟨still, stay.trans further⟩

end Uncalled

/-! ## Choices -/

namespace Selects

variable {world next : EngineWorld} {id : HandleId} {views : List Memref} {reply : Outcome CellId}

/-- A choice that was open to the handle before changes nothing. -/
theorem settled {outcome : Outcome CellId} (selects : Selects world id views reply next)
    (came : Pipeline.choice world.outer.handles id views = Pipeline.known outcome) :
    reply = outcome ∧ next = world := by
  have same := selects.choice
  cases selects with
  | queued found checked fresh made | made found checked fresh made =>
    unfold Pipeline.choice at came
    simp only [found, checked, fresh, made] at came
    cases came
  | _ =>
    rw [came] at same
    cases same
    exact ⟨rfl, rfl⟩

end Selects

theorem selectFor_selects (setup : Setup) (id : HandleId) (views : List Memref) (world : EngineWorld) :
    ∃ reply next, selectFor setup id views world = (.ok reply, next) ∧ Selects world id views reply next := by
  let depth := world.store.weight Stage.weight + 0
  have ends : (select setup (within setup (depth + 1)) id views).Ends world (Selects world id views) never :=
    select_ends setup depth id views
  rcases ran : select setup (within setup (depth + 1)) id views world with ⟨(cause | _) | reply, next⟩
  · exact (ends.fails ran).elim
  · exact absurd (by rw [ran]) ends.not_exhausted
  · exact ⟨reply, next, ran, ends.holds ran⟩

section Chosen

variable (setup : Setup) {world : EngineWorld} {id : HandleId} {handle : Handle} {views : List Memref}

theorem selectFor_settled {outcome : Outcome CellId}
    (came : Pipeline.choice world.outer.handles id views = Pipeline.known outcome) :
    selectFor setup id views world = (.ok outcome, world) := by
  obtain ⟨reply, after, chose, selects⟩ := selectFor_selects setup id views world
  obtain ⟨rfl, rfl⟩ := selects.settled came
  exact chose

/-- New shapes get a new cell. -/
theorem selectFor_fresh (found : world.outer.handles[id]? = some handle)
    (checked : handle.generic.signature.check views = .ok ())
    (fresh : handle.choose (ShapeKey.ofMemrefs views) = .fresh) :
    ∃ after, selectFor setup id views world = (.ok (.ok world.store.cells.size), after) ∧
      Selects world id views (.ok world.store.cells.size) after ∧
      after.outer.handles[id]? = some (handle.specialized (ShapeKey.ofMemrefs views) world.store.cells.size) := by
  obtain ⟨reply, after, chose, selects⟩ := selectFor_selects setup id views world
  have there : after.outer.handles[id]? =
      some (handle.specialized (ShapeKey.ofMemrefs views) world.store.cells.size) := by
    rw [selects.handles, List.getElem?_modify, found, ← Handle.served_fresh checked fresh]
    simp
  have choice : Pipeline.choice after.outer.handles id views = Pipeline.known (.ok world.store.cells.size) :=
    Pipeline.choice_of_known there checked (handle.choose_specialized _ _ fresh)
  rw [selects.choice] at choice
  cases choice
  exact ⟨after, chose, selects, there⟩

end Chosen

/-! ## Whole runs -/

/-- Whether the operation calls an executable. -/
def Operation.executes : Operation → Bool
  | call .. => true
  | _ => false

/-- The shapes of the operands that a handle accepts and is asked to choose an executable for. -/
def Operation.shapes? (signature : Signature) (id : HandleId) : Operation → Option ShapeKey
  | select other views =>
    match signature.check views with
    | .ok () => if other = id then some (ShapeKey.ofMemrefs views) else none
    | .error _ => none
  | _ => none

section Shapes

variable {signature : Signature} {id other : HandleId} {views : List Memref}

theorem Operation.shapes_rejected {mismatch : SignatureMismatch} (checked : signature.check views = .error mismatch) :
    (select other views).shapes? signature id = none := by
  simp only [shapes?, checked]

theorem Operation.shapes_accepted (checked : signature.check views = .ok ()) :
    (select id views).shapes? signature id = some (ShapeKey.ofMemrefs views) := by
  simp only [shapes?, checked, if_true]

theorem Operation.shapes_other (apart : other ≠ id) : (select other views).shapes? signature id = none := by
  simp only [shapes?, if_neg apart]
  cases signature.check views <;> rfl

end Shapes

/-- Outside parties leave the executables of handles alone. -/
def Rules.guarded : Rules where
  panics := True
  touches world cell := ∀ handle ∈ world.outer.handles, ∀ entry ∈ handle.specializations, entry.2 ≠ cell
  asks _ _ := True
  caches := True
  calls := True

theorem Rules.reserved_guarded (calls : Prop) : { Rules.guarded with calls }.Reserved := by
  intro world id entry member touched
  obtain ⟨handle, found, among⟩ := World.found_of_mem member
  exact touched handle (List.mem_of_getElem? found) entry among rfl

/-- The handle has executables for the first shapes that it was asked for, up to its limit. -/
def Provides (world : EngineWorld) (id : HandleId) (handle : Handle) (asked : List ShapeKey) : Prop :=
  ∃ table, world.outer.handles[id]? = some { handle with specializations := table } ∧
    table.map Prod.fst = asked.eraseDups.take handle.limit

/-- What holds between the operations of a run without calls. -/
structure Settled (world : EngineWorld) : Prop where
  fit : Fit ⟨[], world⟩
  fitted : Fitted ⟨[], world⟩
  uncalled : Uncalled ⟨[], world⟩

namespace Settled

variable {world next : EngineWorld} {setup : Setup}

theorem start : Settled initial where
  fit := fit_initial
  fitted := fitted_initial
  uncalled := {
    waiting := fun _ member => by cases member
    latched := fun _ member => by cases member
    asked := fun _ _ member => by cases member }

theorem selects {other : HandleId} {views : List Memref} {reply : Outcome CellId} (settled : Settled world)
    (selects : Selects world other views reply next) : Settled next where
  fit := selects.adds.fit settled.fit
  fitted := settled.fitted.adds settled.fit selects.adds
  uncalled := selects.adds.carries_free settled.fit.orderly.sound rfl settled.uncalled

theorem steps (settled : Settled world)
    (steps : Steps (Step setup { Rules.guarded with calls := False }) ⟨[], world⟩ ⟨[], next⟩) :
    Settled next ∧ HandlesStay world.outer.handles next.outer.handles := by
  obtain ⟨uncalled, stay⟩ := settled.uncalled.steps settled.fit id steps
  exact ⟨⟨(settled.fit.steps steps).1, settled.fitted.steps settled.fit (Rules.reserved_guarded False) steps, uncalled⟩,
    stay⟩

end Settled

/-- A handle may be asked for a choice. -/
theorem Provides.selects {world next : EngineWorld} {id other : HandleId} {handle : Handle} {asked : List ShapeKey}
    {views : List Memref} {reply : Outcome CellId}
    (provides : Provides world id handle asked) (selects : Selects world other views reply next)
    (willing : handle.specializes = true) :
    Provides next id handle (asked ++ ((Operation.select other views).shapes? handle.generic.signature id).toList) := by
  obtain ⟨table, found, firsts⟩ := provides
  let former : Handle := { handle with specializations := table }
  have after : next.outer.handles[id]? =
      some (if other = id then former.served views world.store.cells.size else former) := by
    rw [selects.handles, List.getElem?_modify, found]
    rfl
  by_cases same : other = id
  · subst same
    rw [if_pos rfl] at after
    cases checked : handle.generic.signature.check views with
    | error mismatch =>
      have rejected : former.served views world.store.cells.size = former := Handle.served_rejected checked
      rw [rejected] at after
      rw [Operation.shapes_rejected checked, Option.toList_none, List.append_nil]
      exact ⟨table, after, firsts⟩
    | ok =>
      rw [Operation.shapes_accepted checked, Option.toList_some]
      rw [Handle.served_eq] at after
      exact ⟨_, after, former.firsts_served willing checked firsts⟩
  · rw [if_neg same] at after
    rw [Operation.shapes_other same, Option.toList_none, List.append_nil]
    exact ⟨table, after, firsts⟩

namespace Settled

variable {setup : Setup} {world next : EngineWorld}

/-- One operation that is no call. -/
theorem operation {operation : Operation} {reply : Except Interrupt Unit} (settled : Settled world)
    (direct : operation.executes = false) (allowed : operation.Allowed .guarded world)
    (ran : operation.perform setup world = (reply, next)) :
    Settled next ∧ ∀ {id handle asked}, handle.specializes = true → Provides world id handle asked →
      Provides next id handle (asked ++ (operation.shapes? handle.generic.signature id).toList) := by
  by_cases choice : ∃ other views, operation = .select other views
  · obtain ⟨other, views, rfl⟩ := choice
    obtain ⟨reply, after, chose, selects⟩ := selectFor_selects setup other views world
    have performed : (Operation.select other views).perform setup world = (.ok (), after) := Act.bind_ok chose
    rw [ran] at performed
    cases performed
    exact ⟨settled.selects selects, fun willing provides => provides.selects selects willing⟩
  · have quiet : operation.chooses = true → False := by
      cases operation with
      | call => cases direct
      | select other views => exact absurd ⟨other, views, rfl⟩ choice
      | _ => exact fun chooses => by cases chooses
    have still : operation.Allowed { Rules.guarded with calls := False } world := by
      cases operation <;> exact allowed
    have steps := (Operation.steps settled.fit still quiet (fun _ _ => trivial) ran (.inl trivial)).2
    obtain ⟨after, stay⟩ := settled.steps steps
    refine ⟨after, fun {id handle asked} _ ⟨table, found, firsts⟩ => ?_⟩
    have none : operation.shapes? handle.generic.signature id = none := by
      cases operation with
      | select other views => exact absurd ⟨other, views, rfl⟩ choice
      | _ => rfl
    rw [none, Option.toList_none, List.append_nil]
    exact ⟨table, stay found, firsts⟩

theorem runs {operations : List Operation} (settled : Settled world)
    (direct : ∀ operation ∈ operations, operation.executes = false)
    (run : Runs setup .guarded world operations next) :
    Settled next ∧ ∀ {id handle asked}, handle.specializes = true → Provides world id handle asked →
      Provides next id handle (asked ++ operations.filterMap (·.shapes? handle.generic.signature id)) := by
  induction run with
  | nil => exact ⟨settled, fun _ provides => by simpa using provides⟩
  | @cons world operation reply between operations next allowed ran calm later ih =>
    obtain ⟨before, first⟩ := settled.operation (direct operation List.mem_cons_self) allowed ran
    obtain ⟨after, others⟩ := ih before fun operation member => direct operation (List.mem_cons_of_mem _ member)
    refine ⟨after, fun {id handle asked} willing provides => ?_⟩
    have whole := others willing (first willing provides)
    rw [List.append_assoc] at whole
    rw [List.filterMap_cons]
    cases shapes : operation.shapes? handle.generic.signature id with
    | none => simpa [shapes] using whole
    | some key => simpa [shapes] using whole

end Settled

/-! ## Every executable is made once -/

/-- The executable waits for its one task, or is what the specializer came to in its one call. -/
def Tailored (world : EngineWorld) (id : HandleId) (generic : Kernel) (specializer : Specializer)
    (entry : ShapeKey × CellId) : Prop :=
  (world.store.state entry.2 = none ∧ World.callsFor world id entry.1 = 0 ∧
    world.outer.serving entry.2 = [.specialize id generic specializer entry.1 entry.2]) ∨
  (world.store.state entry.2 = some (specialized generic specializer entry.1) ∧
    World.callsFor world id entry.1 = 1 ∧ world.outer.serving entry.2 = [])

theorem Fitted.tailored {world : EngineWorld} {id : HandleId} {handle : Handle} {specializer : Specializer}
    {entry : ShapeKey × CellId} (fitted : Fitted ⟨[], world⟩) (sound : world.store.Sound)
    (found : world.outer.handles[id]? = some handle) (made : handle.specializer = some specializer)
    (member : entry ∈ handle.specializations) : Tailored world id handle.generic specializer entry := by
  have table := World.table_of_found found
  have there : entry ∈ World.table world id := table ▸ member
  obtain ⟨same, maker, here, maked, served⟩ := fitted.served there
  rw [found] at here
  cases here
  rw [made] at maked
  cases maked
  -- There is one task or one call.
  have balance : (World.tasksFor world id entry.1).length + World.callsFor world id entry.1 =
      ((World.table world id).map Prod.fst).count entry.1 := fitted.balance id entry.1
  rw [List.count_eq_one_of_mem (fitted.keys id) (List.mem_map_of_mem there)] at balance
  rcases served.settled_or_queued sound with ⟨pending, job, one, rfl⟩ | ⟨outcome, shown, none, rfl⟩
  · have queued : Job.specialize id handle.generic specializer entry.1 entry.2 ∈ world.outer.serving entry.2 := by
      rw [one]
      exact List.mem_cons_self
    have due : Job.specialize id handle.generic specializer entry.1 entry.2 ∈ World.tasksFor world id entry.1 :=
      World.mem_tasksFor.2 ⟨(State.mem_serving.1 queued).1, rfl⟩
    have some := List.length_pos_of_mem due
    exact .inl ⟨pending, by omega, one⟩
  · have idle : World.tasksFor world id entry.1 = [] := by
      refine List.eq_nil_iff_forall_not_mem.2 fun job due => ?_
      have same := List.inj_on_of_nodup_map (fitted.keys id) (fitted.tasks due) there rfl
      have serving : job ∈ world.outer.serving entry.2 :=
        State.mem_serving.2 ⟨(World.mem_tasksFor.1 due).1, congrArg Prod.snd same⟩
      rw [none] at serving
      cases serving
    rw [idle, List.length_nil, Nat.zero_add] at balance
    exact .inr ⟨shown, balance, none⟩

/-- Handles go on choosing what they chose. -/
theorem Runs.handlesKeep {setup : Setup} {world next : EngineWorld} {operations : List Operation}
    (run : Runs setup .guarded world operations next) (fit : Fit ⟨[], world⟩) :
    Pipeline.HandlesKeep world.outer.handles next.outer.handles := by
  have steps := run.steps trivial (fun _ _ => trivial) fit
  have both {before after : EngineMoment} (fit : Fit before) (steps : Steps (Step setup .guarded) before after) :
      Fit after ∧ Pipeline.HandlesKeep before.world.outer.handles after.world.outer.handles := by
    induction steps with
    | refl => exact ⟨fit, .refl _⟩
    | tail _ step ih => exact ⟨ih.1.step step, ih.2.trans (step.onward ih.1).handles⟩
  exact (both fit steps).2

/-- Whatever a handle has chosen for some operands, it chooses for all of the same shapes from then on. -/
theorem Runs.chooses_again {setup : Setup} {world next : EngineWorld} {operations : List Operation} {id : HandleId}
    {handle : Handle} {views again : List Memref} {cell : CellId} (run : Runs setup .guarded world operations next)
    (fit : Fit ⟨[], world⟩) (found : world.outer.handles[id]? = some handle)
    (checked : handle.generic.signature.check views = .ok ())
    (came : Pipeline.choice world.outer.handles id views = Pipeline.known (.ok cell))
    (also : handle.generic.signature.check again = .ok ())
    (same : ShapeKey.ofMemrefs again = ShapeKey.ofMemrefs views) :
    selectFor setup id again next = (.ok (.ok cell), next) := by
  have keep := run.handlesKeep fit
  obtain ⟨kept, there, keeps⟩ := keep found
  have still := Pipeline.choice_later keep (List.getElem?_eq_some_iff.1 found).1 came
  rw [← Pipeline.choice_congr there (keeps.generic ▸ checked) (keeps.generic ▸ also) same] at still
  exact selectFor_settled setup still

/-- A handle that specializes and has no executables yet is asked for executables, while tasks run and
outside parties do anything but call executables and touch the cells of those that the handle has. Then it
has executables for the first distinct shapes of accepted operands, up to its limit, in the order of first
request. Each has a cell of its own, one task, and what the specializer makes in one call; for other shapes
there are no tasks and no calls. Operands that are not accepted change nothing. Those whose shapes have an
executable get it, those that come too late get the generic one, both without a trace, and new ones get a
new executable; from then on, whatever happens, operands of the same shapes get the same cell. -/
theorem specialized_for_first_shapes (setup : Setup) (first second : List Operation) (before world : EngineWorld)
    (id : HandleId) (handle : Handle) (specializer : Specializer)
    (direct : ∀ operation ∈ first ++ second, operation.executes = false)
    (prelude : Runs setup .guarded initial first before) (found : before.outer.handles[id]? = some handle)
    (unused : handle.specializations = []) (made : handle.specializer = some specializer)
    (willing : handle.specializes = true) (run : Runs setup .guarded before second world) :
    let signature := handle.generic.signature
    let asked := (second.filterMap (·.shapes? signature id)).eraseDups
    let firsts := asked.take handle.limit
    ∃ table, world.outer.handles[id]? = some { handle with specializations := table } ∧
      table.map Prod.fst = firsts ∧ table.length = min handle.limit asked.length ∧
      (handle.genericCell :: table.map Prod.snd).Nodup ∧
      (∀ entry ∈ table, Tailored world id handle.generic specializer entry) ∧
      (∀ key, (World.tasksFor world id key).length + World.callsFor world id key =
        if key ∈ firsts then 1 else 0) ∧
      (∀ views mismatch, signature.check views = .error mismatch → selectFor setup id views world =
        (.ok (.error (.selection (handle.generic.name ++ ": " ++ mismatch.message))), world)) ∧
      ∀ views, signature.check views = .ok () →
        let key := ShapeKey.ofMemrefs views
        ∃ cell after, selectFor setup id views world = (.ok (.ok cell), after) ∧
          (key ∈ firsts → (key, cell) ∈ table ∧ after = world) ∧
          (key ∉ firsts → handle.limit ≤ asked.length → cell = handle.genericCell ∧ after = world) ∧
          (key ∉ firsts → asked.length < handle.limit → World.table after id = table ++ [(key, cell)]) ∧
          ∀ more later, Runs setup .guarded after more later → ∀ again, signature.check again = .ok () →
            ShapeKey.ofMemrefs again = key → selectFor setup id again later = (.ok (.ok cell), later) := by
  intro signature asked firsts
  obtain ⟨settledBefore, -⟩ := Settled.start.runs (fun operation member =>
    direct operation (List.mem_append_left _ member)) prelude
  obtain ⟨settled, provides⟩ := settledBefore.runs (fun operation member =>
    direct operation (List.mem_append_right _ member)) run
  have none : Provides before id handle [] := by
    refine ⟨[], ?_, by simp⟩
    rw [found, ← unused]
  obtain ⟨table, here, provided⟩ := provides willing none
  rw [List.nil_append] at provided
  -- The table lists the first shapes, whatever was asked in between.
  have shapes : table.map Prod.fst = firsts := provided
  have length : table.length = min handle.limit asked.length := by
    rw [← List.length_map Prod.fst, shapes, List.length_take]
  let present : Handle := { handle with specializations := table }
  have presentHere : world.outer.handles[id]? = some present := here
  have tableHere : World.table world id = table := World.table_of_found presentHere
  have tailored {entry : ShapeKey × CellId} (member : entry ∈ present.specializations) :
      Tailored world id present.generic specializer entry :=
    settled.fitted.tailored settled.fit.orderly.sound presentHere made member
  refine ⟨table, here, shapes, length, settled.fitted.cells presentHere,
    fun entry member => tailored member, fun key => ?_,
    fun views mismatch rejected => ?_, fun views checked => ?_⟩
  · have balance := settled.fitted.balance id key
    have keys := settled.fitted.keys id
    rw [tableHere, shapes] at balance keys
    rw [balance]
    split
    · exact List.count_eq_one_of_mem keys ‹_›
    · exact List.count_eq_zero.2 ‹_›
  · exact selectFor_settled setup (Pipeline.choice_of_rejected presentHere rejected)
  · have accepted : present.generic.signature.check views = .ok () := checked
    -- What the handle chooses already.
    have settledChoice {cell : CellId}
        (came : Pipeline.choice world.outer.handles id views = Pipeline.known (.ok cell)) :
        selectFor setup id views world = (.ok (.ok cell), world) ∧
          ∀ more later, Runs setup .guarded world more later → ∀ again, signature.check again = .ok () →
            ShapeKey.ofMemrefs again = ShapeKey.ofMemrefs views →
              selectFor setup id again later = (.ok (.ok cell), later) :=
      ⟨selectFor_settled setup came, fun _ _ onward _ also same =>
        onward.chooses_again settled.fit presentHere accepted came also same⟩
    cases known : table.lookup (ShapeKey.ofMemrefs views) with
    | some cell =>
      have choice : present.choose (ShapeKey.ofMemrefs views) = .known cell := Handle.choose_eq_known willing known
      obtain ⟨chose, again⟩ := settledChoice (Pipeline.choice_of_known presentHere accepted choice)
      obtain ⟨former, others, split, -⟩ := List.lookup_eq_some_iff.1 known
      have member : (ShapeKey.ofMemrefs views, cell) ∈ table := by
        rw [split]
        exact List.mem_append_right _ List.mem_cons_self
      have first : ShapeKey.ofMemrefs views ∈ firsts := shapes ▸ List.mem_map_of_mem member
      exact ⟨cell, world, chose, fun _ => ⟨member, rfl⟩, fun late => absurd first late, fun late => absurd first late,
        again⟩
    | none =>
      have late : ShapeKey.ofMemrefs views ∉ firsts := shapes ▸ Handle.lookup_eq_none_iff.1 known
      by_cases full : handle.limit ≤ asked.length
      · have choice : present.choose (ShapeKey.ofMemrefs views) = .generic :=
          Handle.choose_eq_generic willing known (by change handle.limit ≤ table.length; omega)
        obtain ⟨chose, again⟩ := settledChoice (Pipeline.choice_of_generic presentHere accepted choice)
        exact ⟨_, world, chose, fun first => absurd first late, fun _ _ => ⟨rfl, rfl⟩,
          fun _ room => absurd full (Nat.not_le.2 room), again⟩
      · have fresh : present.choose (ShapeKey.ofMemrefs views) = .fresh :=
          Handle.choose_eq_fresh willing known (by change table.length < handle.limit; omega)
        obtain ⟨after, chose, selects, there⟩ := selectFor_fresh setup presentHere accepted fresh
        exact ⟨_, after, chose, fun first => absurd first late, fun _ room => absurd room full,
          fun _ _ => World.table_of_found there, fun _ _ onward _ also same =>
            onward.chooses_again (selects.adds.fit settled.fit) there accepted selects.choice also same⟩

/-- A new handle is asked twice, and its task has not run yet. -/
theorem specialized_for_first_shapes_idle :
    let specializer : Specializer := fun generic _ => .ok (.ok generic)
    ∃ before world, Runs failing .guarded initial [.wrap (.ok ⟨idle, some specializer⟩) .always 1] before ∧
      Runs failing .guarded before [.select 0 [], .select 0 []] world ∧
      ∃ table : List (ShapeKey × CellId), table.map Prod.fst = [[]] ∧ ∀ entry ∈ table, Tailored world 0 idle specializer entry := by
  intro specializer
  let handle : Handle := { generic := idle, genericCell := 0, specializer := some specializer, mode := .always, limit := 1 }
  let before := World.addHandle (initial.make { outcome := some (.ok (.executable idle)) }) handle
  have prelude : Runs failing .guarded initial [.wrap (.ok ⟨idle, some specializer⟩) .always 1] before :=
    .cons trivial rfl (.inl trivial) .nil
  have run : Runs failing .guarded before [.select 0 [], .select 0 []] _ :=
    .cons trivial rfl (.inl trivial) (.cons trivial rfl (.inl trivial) .nil)
  obtain ⟨table, -, firsts, -, -, tailored, -⟩ := specialized_for_first_shapes failing _ _ _ _ 0 handle specializer
    (by decide) prelude rfl rfl rfl rfl run
  exact ⟨_, _, prelude, run, table, firsts.trans rfl, tailored⟩

end Engine

end DeferredJit
