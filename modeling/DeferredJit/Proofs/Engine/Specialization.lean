import DeferredJit.Proofs.Engine.Record
import DeferredJit.Proofs.Engine.Runs
import DeferredJit.Proofs.Engine.Service

/-! The executables of a handle over whole runs: calls with new shapes have one made, by one task each,
until there are as many as the handle allows. Every later call with these shapes gets the same. -/

set_option autoImplicit false

namespace DeferredJit.Engine

open Async (CellId Moment Continuation Routine Steps)

/-- The executables that a handle has or is still to get, by shapes. -/
def World.table (world : EngineWorld) (id : HandleId) : List (ShapeKey × CellId) :=
  world.outer.handles[id]?.elim [] Handle.specializations

/-- The tasks that make an executable for these shapes. -/
def World.tasksFor (world : EngineWorld) (id : HandleId) (key : ShapeKey) : List Job :=
  world.outer.queue.filter (·.fitting? == some (id, key))

/-- How often the specializer was called for these shapes. -/
def World.callsFor (world : EngineWorld) (id : HandleId) (key : ShapeKey) : Nat :=
  (World.notices world).countP (·.fitting? == some (id, key))

/-- What the specializer makes of the executable of a handle. -/
def specializing (id : HandleId) (generic : Kernel) (specializer : Specializer) (key : ShapeKey)
    (cell : CellId) : Errand where
  task job := job = .specialize id generic specializer key cell
  result _ outcome := outcome = specialized generic specializer key
  keeps _ same := same

theorem specializing_sound (setup : Setup) (id : HandleId) (generic : Kernel) (specializer : Specializer)
    (key : ShapeKey) (cell : CellId) : (specializing id generic specializer key cell).Sound setup := by
  rintro job world outcome next rfl ran
  cases ran
  rfl

/-! ## Tables, tasks and calls -/

section Counts

variable {world next : EngineWorld} {id other : HandleId} {handle : Handle} {specializer : Specializer}
  {key shapes : ShapeKey}

theorem World.table_of_found (found : world.outer.handles[id]? = some handle) :
    World.table world id = handle.specializations := by
  unfold World.table
  rw [found]
  rfl

theorem World.found_of_mem {entry : ShapeKey × CellId} (member : entry ∈ World.table world id) :
    ∃ handle, world.outer.handles[id]? = some handle ∧ entry ∈ handle.specializations := by
  unfold World.table at member
  cases found : world.outer.handles[id]? with
  | none =>
    rw [found] at member
    cases member
  | some handle =>
    rw [found] at member
    exact ⟨handle, rfl, member⟩

theorem World.table_fitted (found : world.outer.handles[id]? = some handle) (key : ShapeKey)
    (cell : Async.Cell Payload Stage) (other : HandleId) :
    World.table (World.fitted world id handle key cell) other =
      World.table world other ++ if other = id then [(key, world.store.cells.size)] else [] := by
  have bound := (List.getElem?_eq_some_iff.1 found).1
  unfold World.table
  change Option.elim (world.outer.handles.set id (handle.specialized key world.store.cells.size))[other]? _ _ = _
  by_cases same : other = id
  · subst same
    rw [if_pos rfl, List.getElem?_set_self bound, found]
    rfl
  · rw [if_neg same, List.getElem?_set_ne (Ne.symm same), List.append_nil]

/-- Only executables for shapes that have none yet are asked for. -/
theorem World.keys_fitted (distinct : ∀ id, ((World.table world id).map Prod.fst).Nodup)
    (lacks : Lacks world id handle specializer key) (cell : Async.Cell Payload Stage) (other : HandleId) :
    ((World.table (World.fitted world id handle key cell) other).map Prod.fst).Nodup := by
  rw [World.table_fitted lacks.found, List.map_append]
  split
  · rename_i same
    subst same
    refine List.nodup_append.2 ⟨distinct other, List.nodup_singleton _, fun former member young among same => ?_⟩
    subst same
    rw [List.mem_singleton.1 among, World.table_of_found lacks.found] at member
    exact Handle.missing_of_fresh lacks.fresh member
  · rw [List.map_nil, List.append_nil]
    exact distinct other

/-- What is in the new table was there before, or it is the executable that is asked for. -/
theorem World.mem_table_fitted (found : world.outer.handles[id]? = some handle) {cell : Async.Cell Payload Stage}
    {entry : ShapeKey × CellId} (member : entry ∈ World.table (World.fitted world id handle key cell) other) :
    entry ∈ World.table world other ∨ other = id ∧ entry = (key, world.store.cells.size) := by
  rw [World.table_fitted found] at member
  refine (List.mem_append.1 member).imp_right fun new => ?_
  split at new
  · exact ⟨‹other = id›, List.mem_singleton.1 new⟩
  · cases new

theorem World.mem_tasksFor {job : Job} :
    job ∈ World.tasksFor world id key ↔ job ∈ world.outer.queue ∧ job.fitting? = some (id, key) := by
  simp [World.tasksFor]

theorem World.tasksFor_append {more : List Job} (queue : next.outer.queue = world.outer.queue ++ more) :
    World.tasksFor next id key = World.tasksFor world id key ++ more.filter (·.fitting? == some (id, key)) := by
  unfold World.tasksFor
  rw [queue, List.filter_append]

theorem World.callsFor_append {more : List Notice} (notices : World.notices next = more ++ World.notices world) :
    World.callsFor next id key = more.countP (·.fitting? == some (id, key)) + World.callsFor world id key := by
  unfold World.callsFor
  rw [notices, List.countP_append]

theorem Plain.table (plain : Plain world next) (id : HandleId) : World.table next id = World.table world id := by
  unfold World.table
  rcases plain.handles with same | ⟨handle, empty, same⟩
  · rw [same]
  · rw [same]
    by_cases old : id < world.outer.handles.length
    · rw [List.getElem?_append_left old]
    · rw [List.getElem?_eq_none (Nat.not_lt.1 old), List.getElem?_append_right (Nat.not_lt.1 old)]
      cases position : id - world.outer.handles.length with
      | zero => exact empty
      | succ => rfl

/-- No executable is asked for. Tasks that there were may have been done. -/
structure NoneAsked (world next : EngineWorld) : Prop where
  tables : ∀ id, World.table next id = World.table world id
  tasks : ∀ {id key job}, job ∈ World.tasksFor next id key → job ∈ World.tasksFor world id key
  balance : ∀ id key, (World.tasksFor next id key).length + World.callsFor next id key =
    (World.tasksFor world id key).length + World.callsFor world id key

namespace NoneAsked

theorem refl (world : EngineWorld) : NoneAsked world world := ⟨fun _ => rfl, fun member => member, fun _ _ => rfl⟩

theorem trans {between : EngineWorld} (first : NoneAsked world between) (second : NoneAsked between next) :
    NoneAsked world next where
  tables id := (second.tables id).trans (first.tables id)
  tasks member := first.tasks (second.tasks member)
  balance id key := (second.balance id key).trans (first.balance id key)

/-- Tasks and handles are the same, and nothing is taken note of. -/
theorem of_same (handles : next.outer.handles = world.outer.handles) (queue : next.outer.queue = world.outer.queue)
    (notices : World.notices next = World.notices world) : NoneAsked world next where
  tables id := by simp only [World.table, handles]
  tasks member := by simpa only [World.tasksFor, queue] using member
  balance id key := by simp only [World.tasksFor, World.callsFor, queue, notices]

end NoneAsked

theorem Plain.noneAsked (plain : Plain world next) : NoneAsked world next := by
  obtain ⟨more, queue, others⟩ := plain.queue
  obtain ⟨notes, notices, silent⟩ := plain.notices
  have tasks (id : HandleId) (key : ShapeKey) : World.tasksFor next id key = World.tasksFor world id key := by
    have none : more.filter (·.fitting? == some (id, key)) = [] :=
      List.filter_eq_nil_iff.2 fun job member => by simp [others job member]
    rw [World.tasksFor_append queue, none, List.append_nil]
  refine ⟨plain.table, fun {id key job} member => tasks id key ▸ member, fun id key => ?_⟩
  have none : notes.countP (·.fitting? == some (id, key)) = 0 :=
    List.countP_eq_zero.2 fun notice member => by simp [(silent notice member).2]
  rw [tasks, World.callsFor_append notices, none, Nat.zero_add]

theorem Adds.noneAsked {scope : Scope} {budget : Nat} (adds : Adds scope world budget next)
    (settled : ¬ scope.chooses) : NoneAsked world next := by
  induction adds with
  | refl => exact .refl _
  | tail _ step _ ih =>
    rcases step.kinds with plain | ⟨chooses, -⟩
    · exact ih.trans plain.noneAsked
    · exact absurd chooses settled

/-- A task that leaves the queue calls the specializer if it makes an executable. -/
theorem noneAsked_taken {setup : Setup} {place : Nat} {job : Job} (found : world.outer.queue[place]? = some job) :
    NoneAsked world (World.taken setup world place job) := by
  obtain ⟨before, after, whole, left⟩ := World.queue_withdraw found
  have outer : (World.taken setup world place job).outer = (World.withdraw world place).outer := World.outer_noted ..
  refine ⟨fun id => by rw [World.table, outer]; rfl, fun {id key other} member => ?_, fun id key => ?_⟩
  · rw [World.mem_tasksFor, outer, left] at member
    rw [World.mem_tasksFor, whole]
    exact ⟨List.mem_append.2 ((List.mem_append.1 member.1).imp_right (List.mem_cons_of_mem _)), member.2⟩
  · have notices : World.notices (World.taken setup world place job) =
        (job.notice? setup).toList ++ World.notices world := World.notices_noted ..
    rw [World.callsFor_append notices]
    simp only [World.tasksFor, outer, left, whole, ← List.countP_eq_length_filter, List.countP_append,
      List.countP_cons]
    have same : (job.notice? setup).toList.countP (·.fitting? == some (id, key)) =
        if job.fitting? == some (id, key) then 1 else 0 := by
      cases job with
      | compile _ _ compilation => cases compilation <;> rfl
      | specialize => exact List.countP_singleton ..
      | settle => rfl
    rw [same]
    omega

end Counts

/-! ## The invariant -/

/-- The tables of handles, the tasks and the calls of specializers on record belong together. -/
structure Fitted (moment : EngineMoment) : Prop where
  keys : ∀ id, ((World.table moment.world id).map Prod.fst).Nodup
  cells : ∀ {id : HandleId} {handle : Handle}, moment.world.outer.handles[id]? = some handle →
    (handle.genericCell :: handle.specializations.map Prod.snd).Nodup
  tasks : ∀ {id : HandleId} {key : ShapeKey} {job : Job}, job ∈ World.tasksFor moment.world id key →
    (key, job.target) ∈ World.table moment.world id
  balance : ∀ id key, (World.tasksFor moment.world id key).length + World.callsFor moment.world id key =
    ((World.table moment.world id).map Prod.fst).count key
  served : ∀ {id : HandleId} {entry : ShapeKey × CellId}, entry ∈ World.table moment.world id → ∃ handle specializer,
    moment.world.outer.handles[id]? = some handle ∧ handle.specializer = some specializer ∧
    Served (specializing id handle.generic specializer entry.1 entry.2) moment entry.2

/-- Outside parties leave the executables of handles alone. -/
def Rules.Reserved (rules : Rules) : Prop :=
  ∀ ⦃world id entry⦄, entry ∈ World.table world id → ¬ rules.touches world entry.2

namespace Fitted

variable {setup : Setup} {rules : Rules} {before after : EngineMoment} {duties : List EngineDuty}
  {world next : EngineWorld} {scope : Scope}

theorem congr (fitted : Fitted before)
    (keep : Pipeline.HandlesKeep before.world.outer.handles after.world.outer.handles)
    (none : NoneAsked before.world after.world)
    (served : ∀ {id generic specializer entry}, entry ∈ World.table before.world id →
      Served (specializing id generic specializer entry.1 entry.2) before entry.2 →
      Served (specializing id generic specializer entry.1 entry.2) after entry.2) : Fitted after where
  keys id := none.tables id ▸ fitted.keys id
  cells {id handle} found := by
    have table := none.tables id
    rw [World.table_of_found found] at table
    cases former : before.world.outer.handles[id]? with
    | none =>
      have empty : World.table before.world id = [] := by
        unfold World.table
        rw [former]
        rfl
      rw [table, empty]
      exact List.nodup_singleton _
    | some old =>
      obtain ⟨kept, there, keeps⟩ := keep former
      rw [found] at there
      cases there
      rw [table, World.table_of_found former, keeps.genericCell]
      exact fitted.cells former
  tasks {id key job} member := by
    rw [none.tables]
    exact fitted.tasks (none.tasks member)
  balance id key := by
    rw [none.balance, none.tables]
    exact fitted.balance id key
  served {id entry} member := by
    rw [none.tables] at member
    obtain ⟨handle, specializer, found, made, flown⟩ := fitted.served member
    obtain ⟨kept, there, keeps⟩ := keep found
    refine ⟨kept, specializer, there, keeps.specializer.trans made, ?_⟩
    rw [keeps.generic]
    exact served member flown

/-- An executable is asked for: the handle gets its cell, and there is one task or one call for it. -/
theorem ask {id : HandleId} {handle : Handle} {specializer : Specializer} {key : ShapeKey}
    (fitted : Fitted ⟨duties, world⟩) (cell : Async.Cell Payload Stage) (tidy : Tidy world)
    (lacks : Lacks world id handle specializer key)
    (handles : next.outer.handles = (World.fitted world id handle key cell).outer.handles)
    (tasks : ∀ other shapes, World.tasksFor next other shapes = World.tasksFor world other shapes ∨
      (other, shapes) = (id, key) ∧ ∃ job, job.target = world.store.cells.size ∧
        World.tasksFor next other shapes = World.tasksFor world other shapes ++ [job])
    (balance : ∀ other shapes, (World.tasksFor next other shapes).length + World.callsFor next other shapes =
      (World.tasksFor world other shapes).length + World.callsFor world other shapes +
        if (other, shapes) = (id, key) then 1 else 0)
    (kept : ∀ {errand : Errand} {cell}, Served errand ⟨duties, world⟩ cell → Served errand ⟨duties, next⟩ cell)
    (new : Served (specializing id handle.generic specializer key world.store.cells.size) ⟨duties, next⟩
      world.store.cells.size) : Fitted ⟨duties, next⟩ := by
  have bound := (List.getElem?_eq_some_iff.1 lacks.found).1
  have asked (other : HandleId) : World.table next other = World.table (World.fitted world id handle key cell) other := by
    unfold World.table
    rw [handles]
  have table (other : HandleId) : World.table next other =
      World.table world other ++ if other = id then [(key, world.store.cells.size)] else [] :=
    (asked other).trans (World.table_fitted lacks.found key cell other)
  have here : next.outer.handles[id]? = some (handle.specialized key world.store.cells.size) := by
    rw [handles]
    exact List.getElem?_set_self bound
  have there {other : HandleId} (apart : other ≠ id) : next.outer.handles[other]? = world.outer.handles[other]? := by
    rw [handles]
    exact List.getElem?_set_ne (Ne.symm apart)
  refine ⟨fun other => ?_, fun {other found} holds => ?_, fun {other shapes job} member => ?_, fun other shapes => ?_,
    fun {other entry} member => ?_⟩
  · rw [asked]
    exact World.keys_fitted fitted.keys lacks cell other
  · by_cases same : other = id
    · subst same
      rw [here] at holds
      cases holds
      exact (tidy.handles handle (List.mem_of_getElem? lacks.found)).distinct_specialized (fitted.cells lacks.found) key
    · rw [there same] at holds
      exact fitted.cells holds
  · rw [table]
    rcases tasks other shapes with same | ⟨same, maker, target, added⟩
    · rw [same] at member
      exact List.mem_append_left _ (fitted.tasks member)
    · rw [added] at member
      rcases List.mem_append.1 member with old | late
      · exact List.mem_append_left _ (fitted.tasks old)
      · cases same
        rw [List.mem_singleton.1 late, target, if_pos rfl]
        exact List.mem_append_right _ List.mem_cons_self
  · rw [balance, table, fitted.balance other shapes, List.map_append, List.count_append]
    congr 1
    by_cases same : other = id
    · rw [if_pos same]
      simp only [List.map_cons, List.map_nil, List.count_singleton, Prod.mk.injEq, same, true_and, beq_iff_eq]
      simp only [eq_comm]
    · rw [if_neg same, if_neg fun both => same (Prod.mk.inj both).1]
      rfl
  · rw [asked] at member
    rcases World.mem_table_fitted lacks.found member with old | ⟨rfl, rfl⟩
    · obtain ⟨former, maker, found, made, served⟩ := fitted.served old
      by_cases same : other = id
      · subst same
        rw [lacks.found] at found
        cases found
        exact ⟨_, maker, here, made, kept served⟩
      · exact ⟨former, maker, (there same).trans found, made, kept served⟩
    · exact ⟨_, specializer, here, lacks.made, new⟩

theorem addition {cost : Nat} (fitted : Fitted ⟨duties, world⟩) (fit : Fit ⟨duties, world⟩)
    (step : Addition scope world cost next) : Fitted ⟨duties, next⟩ := by
  rcases step.kinds with plain | ⟨-, id, handle, specializer, key, lacks, rfl | rfl⟩
  · exact fitted.congr step.handlesKeep plain.noneAsked fun _ served => served.adds fit.ready (.single step)
  · -- There is a task for the new cell.
    let job : Job := .specialize id handle.generic specializer key world.store.cells.size
    let asked := World.enqueue (World.fitted world id handle key {}) job
    have added (other : HandleId) (shapes : ShapeKey) : World.tasksFor asked other shapes =
        World.tasksFor world other shapes ++ if (other, shapes) = (id, key) then [job] else [] := by
      have queue : asked.outer.queue = world.outer.queue ++ [job] := rfl
      rw [World.tasksFor_append queue]
      by_cases same : (other, shapes) = (id, key)
      · simp [same, job, Job.fitting?]
      · simp [same, job, Job.fitting?, Ne.symm same]
    refine fitted.ask {} fit.tidy lacks rfl (fun other shapes => ?_) (fun other shapes => ?_)
      (fun served => served.adds fit.ready (.single step)) (served_queued fit rfl rfl rfl rfl)
    · rw [added]
      split
      · rename_i same
        exact .inr ⟨same, job, rfl, rfl⟩
      · exact .inl (List.append_nil _)
    · have calls : World.callsFor asked other shapes = World.callsFor world other shapes := rfl
      rw [added, calls, List.length_append]
      split
      · simp only [List.length_singleton]
        omega
      · rfl
  · -- The specializer is called, and no task is left.
    let outcome := specialized handle.generic specializer key
    let notice : Notice := .specialized id handle.generic.name key
    let asked := (World.fitted world id handle key { outcome := some outcome }).log (.noted notice)
    have tasks (other : HandleId) (shapes : ShapeKey) :
        World.tasksFor asked other shapes = World.tasksFor world other shapes := rfl
    refine fitted.ask { outcome := some outcome } fit.tidy lacks rfl (fun other shapes => .inl (tasks other shapes))
      (fun other shapes => ?_) (fun served => served.adds fit.ready (.single step)) (served_settled fit rfl rfl rfl)
    have notices : World.notices asked = [notice] ++ World.notices world := World.notices_log ..
    rw [tasks, World.callsFor_append notices, Nat.add_comm _ (World.callsFor world other shapes), Nat.add_assoc]
    congr 2
    by_cases same : (other, shapes) = (id, key)
    · simp [same, notice, Notice.fitting?]
    · simp [same, notice, Notice.fitting?, Ne.symm same]

theorem adds {budget : Nat} (fitted : Fitted ⟨duties, world⟩) (fit : Fit ⟨duties, world⟩)
    (adds : Adds scope world budget next) : Fitted ⟨duties, next⟩ := by
  induction adds with
  | refl => exact fitted
  | tail before step _ ih => exact ih.addition (before.fit fit) step

theorem take {place : Nat} {job : Job} {outcome : Outcome Payload} (fitted : Fitted ⟨[], world⟩)
    (fit : Fit ⟨[], world⟩) (found : world.outer.queue[place]? = some job)
    (ran : prepared setup job (World.withdraw world place) = (.ok outcome, next)) :
    Fitted ⟨[.give job.target outcome], next⟩ := by
  obtain ⟨adds, -⟩ := fit.prepares found ran
  have keep := adds.handlesKeep
  rw [World.outer_taken] at keep
  refine fitted.congr keep ((noneAsked_taken found).trans (adds.noneAsked id)) fun _ served => ?_
  exact served.take (specializing_sound setup ..) fit found ran

theorem step (fitted : Fitted before) (fit : Fit before) (reserved : rules.Reserved)
    (step : Step setup rules before after) : Fitted after := by
  have served {id generic specializer entry} (member : entry ∈ World.table before.world id)
      (served : Served (specializing id generic specializer entry.1 entry.2) before entry.2) :
      Served (specializing id generic specializer entry.1 entry.2) after entry.2 :=
    served.step (specializing_sound setup ..) fit (reserved member) step
  cases step with
  | routine step =>
    have outer := Fit.outer_routine step
    exact fitted.congr (by rw [outer]; exact .refl _)
      (.of_same (by rw [outer]) (by rw [outer]) (notices_routine step)) served
  | stage ran =>
    have proceeds := fit.proceeds ran
    exact (fitted.adds fit proceeds.adds).congr (.refl _) (.refl _)
      fun _ served => served.proceed proceeds.length
  | falter => exact fitted.congr (.refl _) (.refl _) served
  | settle => exact fitted.congr (.refl _) (.refl _) served
  | link => exact fitted.congr (.refl _) (.refl _) served
  | observe =>
    exact fitted.congr (.refl _) (.of_same rfl rfl rfl) served
  | grow adds => exact fitted.adds fit adds
  | @enter key compilation world =>
    have plain : Plain world (World.enter world key compilation) := by
      refine ⟨.inl rfl, ⟨_, rfl, fun job member => ?_⟩, [], rfl, by simp⟩
      obtain ⟨compilation, -, rfl⟩ := Option.map_eq_some_iff.1 (Option.mem_toList.1 member)
      rfl
    exact fitted.congr (.refl _) plain.noneAsked served
  | take found ran => exact fitted.take fit found ran

theorem steps (fitted : Fitted before) (fit : Fit before) (reserved : rules.Reserved)
    (steps : Steps (Step setup rules) before after) : Fitted after :=
  fit.carry Fitted steps fitted fun step fit fitted => fitted.step fit reserved step

end Fitted

theorem fitted_initial : Fitted ⟨[], initial⟩ where
  keys _ := List.nodup_nil
  cells found := by cases found
  tasks member := by cases member
  balance _ _ := rfl
  served member := by cases member

end DeferredJit.Engine
