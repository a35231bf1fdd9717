import DeferredJit.Proofs.Async.Lines
import DeferredJit.Proofs.Async.ScriptRuns

/-! Continuations of a cell run in the order of their registration. Wherever links take them, those that have
run, those that wait at the end of the chain, and those on the way are in that order. -/

set_option autoImplicit false

namespace DeferredJit.Async

variable {α β ε ω : Type}

/-- By number, the continuations of a cell that have run, in their order. -/
def World.runsOn (world : World α β ε ω) (cell : CellId) : List Nat :=
  (world.runs.reverse.filter (·.2 == cell)).map Prod.fst

/-- By number, the continuations that were registered on a cell, in their order. -/
def World.registrationsOn (world : World α β ε ω) (cell : CellId) : List Nat :=
  (world.registrations.reverse.filter (·.2 == cell)).map Prod.fst

/-- The waiters for a cell, by number. -/
def serialsFor (cell : CellId) (waiters : List (Waiter α β)) : List Nat :=
  (waiters.filter (·.home == cell)).map Waiter.serial

/-- Those who wait at the end of the chain of a cell for this cell. -/
def Store.queueFor (store : Store α β) (cell : CellId) : List Nat :=
  serialsFor cell (store.waitersAt (store.last cell))

/-- Those on the way who were registered on a cell. -/
def dueFor (duties : List (Duty α β)) (cell : CellId) : List Nat :=
  serialsFor cell (duties.filterMap Duty.waiter?)

/-- Who has run, who is next, and so on. -/
def Moment.course (moment : Moment α β ε ω) (cell : CellId) : List Nat :=
  moment.world.runsOn cell ++ (moment.world.store.queueFor cell ++ dueFor moment.duties cell)

section Laws

variable {cell : CellId}

theorem serialsFor_append (cell : CellId) (first second : List (Waiter α β)) :
    serialsFor cell (first ++ second) = serialsFor cell first ++ serialsFor cell second := by
  simp [serialsFor]

theorem serialsFor_singleton (cell : CellId) (waiter : Waiter α β) :
    serialsFor cell [waiter] = if waiter.home = cell then [waiter.serial] else [] := by
  by_cases same : waiter.home = cell <;> simp [serialsFor, same]

theorem serialsFor_enroll (store : Store α β) (home cell : CellId) (continuation : Continuation α β) :
    serialsFor cell [(store.enroll home continuation).1] = if home = cell then [store.registered] else [] :=
  serialsFor_singleton cell _

theorem serialsFor_eq_nil {waiters : List (Waiter α β)} (others : ∀ waiter ∈ waiters, waiter.home ≠ cell) :
    serialsFor cell waiters = [] := by
  simpa [serialsFor, List.filter_eq_nil_iff] using others

theorem dueFor_cons (duty : Duty α β) (duties : List (Duty α β)) (cell : CellId) :
    dueFor (duty :: duties) cell = serialsFor cell duty.waiter?.toList ++ dueFor duties cell := by
  unfold dueFor
  rw [← serialsFor_append, List.filterMap_cons]
  cases duty.waiter? <;> rfl

theorem dueFor_map (carry : Waiter α β → Duty α β) (carried : ∀ waiter, (carry waiter).waiter? = some waiter)
    (waiters : List (Waiter α β)) (duties : List (Duty α β)) (cell : CellId) :
    dueFor (waiters.map carry ++ duties) cell = serialsFor cell waiters ++ dueFor duties cell := by
  have taken : (waiters.map carry).filterMap Duty.waiter? = waiters := by
    rw [List.filterMap_map, show Duty.waiter? ∘ carry = some from funext carried]
    exact List.filterMap_some
  unfold dueFor
  rw [List.filterMap_append, taken, serialsFor_append]

theorem World.runsOn_log (world : World α β ε ω) (event : Event α ε) (cell : CellId) :
    (world.log event).runsOn cell =
      world.runsOn cell ++ (event.run?.toList.filter (·.2 == cell)).map Prod.fst := by
  unfold runsOn
  rw [runs_log]
  cases event.run? <;> simp

theorem World.runsOn_run (world : World α β ε ω) (waiter : Waiter α β) (cell : CellId) :
    (world.run waiter).runsOn cell = world.runsOn cell ++ serialsFor cell [waiter] := by
  unfold run
  rw [runsOn_log, serialsFor_singleton]
  by_cases home : waiter.home = cell <;> simp [Event.run?, home]

theorem World.registrationsOn_log (world : World α β ε ω) (event : Event α ε) (cell : CellId) :
    (world.log event).registrationsOn cell =
      world.registrationsOn cell ++ (event.registration?.toList.filter (·.2 == cell)).map Prod.fst := by
  unfold registrationsOn
  rw [registrations_log]
  cases event.registration? <;> simp

theorem Store.queueFor_of_cells_eq {store next : Store α β} (same : next.cells = store.cells) (cell : CellId) :
    next.queueFor cell = store.queueFor cell := by
  unfold queueFor
  rw [waitersAt_of_cells_eq same, last_of_cells_eq same]

/-- Nobody waits for a cell but at the end of its chain. -/
theorem Store.Seated.elsewhere {store : Store α β} (seated : store.Seated) {place : CellId}
    (apart : store.last cell ≠ place) : serialsFor cell (store.waitersAt place) = [] := by
  refine serialsFor_eq_nil fun waiter member home => apart ?_
  obtain ⟨found, there, among⟩ := mem_of_waitersAt member
  rw [← home]
  exact (seated there among).2

/-- Nobody waits for a cell that is available. -/
theorem Store.Sound.queueFor_eq_nil {store : Store α β} (sound : store.Sound)
    (shown : (store.state cell).isSome) : store.queueFor cell = [] := by
  have nobody : store.waitersAt (store.last cell) = [] := by
    by_contra some
    obtain ⟨waiter, member⟩ := List.exists_mem_of_ne_nil _ some
    obtain ⟨found, there, among⟩ := mem_of_waitersAt member
    have idle := (sound.idle there (List.ne_nil_of_mem among)).1
    simp [Store.state, there, idle] at shown
  unfold queueFor
  rw [nobody]
  rfl

end Laws

namespace Moment

variable {gives : CellId → Prop} {before after : Moment α β ε ω} {cell : CellId}

/-- Waiters that a cell hands out are the next. -/
theorem course_released {rest : List (Duty α β)} {world : World α β ε ω} {store : Store α β}
    {waiters : List (Waiter α β)} (carry : Waiter α β → Duty α β)
    (carried : ∀ waiter, (carry waiter).waiter? = some waiter)
    (moved : serialsFor cell waiters ++ store.queueFor cell = world.store.queueFor cell)
    (order : serialsFor cell waiters = [] ∨ store.queueFor cell = []) :
    course ⟨waiters.map carry ++ rest, { world with store }⟩ cell = course ⟨rest, world⟩ cell := by
  unfold course
  rw [dueFor_map carry carried, ← moved]
  rcases order with none | none <;> simp [none, World.runsOn, World.runs]

theorem course_settle {rest : List (Duty α β)} {world : World α β ε ω} {target : CellId} {outcome : Outcome α}
    {waiters : List (Waiter α β)} {store : Store α β} (orderly : Orderly ⟨rest, world⟩)
    (settled : world.store.settle target outcome = some (waiters, store)) :
    course ⟨waiters.map .fire ++ rest, { world with store }⟩ cell = course ⟨rest, world⟩ cell := by
  have handed := Store.waiters_of_settle settled
  have last := Store.last_settle orderly.sound.grounded settled cell
  have left := Store.waitersAt_settle settled (world.store.last cell)
  by_cases here : world.store.last cell = target
  · have none : store.queueFor cell = [] := by
      unfold Store.queueFor
      rw [last, left, if_pos here]
      rfl
    refine course_released .fire (fun _ => rfl) ?_ (.inr none)
    rw [none, List.append_nil, handed, ← here]
    rfl
  · have none : serialsFor cell waiters = [] := handed ▸ orderly.seated.elsewhere here
    refine course_released .fire (fun _ => rfl) ?_ (.inl none)
    unfold Store.queueFor
    rw [none, last, left, if_neg here]
    rfl

theorem course_link {rest : List (Duty α β)} {world : World α β ε ω} {source target : CellId}
    {waiters : List (Waiter α β)} {store : Store α β} (orderly : Orderly ⟨rest, world⟩)
    (linked : world.store.linkTo source target = .ok (waiters, store)) :
    course ⟨waiters.map (.hand target) ++ rest, { world with store }⟩ cell = course ⟨rest, world⟩ cell := by
  have handed := Store.waiters_of_linkTo linked
  have apart := (Store.joins_of_linkTo orderly.sound.grounded linked).apart
  have last := Store.last_linkTo orderly.sound.grounded linked cell
  by_cases here : world.store.last cell = source
  · have none : store.queueFor cell = [] := by
      unfold Store.queueFor
      rw [last, if_pos here, Store.waitersAt_linkTo linked, if_neg apart]
      exact orderly.seated.elsewhere fun same => apart (same.symm.trans here)
    refine course_released (.hand target) (fun _ => rfl) ?_ (.inr none)
    rw [none, List.append_nil, handed, ← here]
    rfl
  · have none : serialsFor cell waiters = [] := handed ▸ orderly.seated.elsewhere here
    refine course_released (.hand target) (fun _ => rfl) ?_ (.inl none)
    unfold Store.queueFor
    rw [none, last, if_neg here, Store.waitersAt_linkTo linked, if_neg here]
    rfl

/-- A duty that moves nobody is done. -/
theorem course_done {duty : Duty α β} {rest : List (Duty α β)} (more : List (Duty α β)) {world next : World α β ε ω}
    (idle : duty.waiter? = none) (silent : more.filterMap Duty.waiter? = [])
    (cells : next.store.cells = world.store.cells) (runs : next.runs = world.runs) : course ⟨more ++ rest, next⟩ cell = course ⟨duty :: rest, world⟩ cell := by
  unfold course
  rw [dueFor_cons, idle, Store.queueFor_of_cells_eq cells]
  unfold dueFor World.runsOn
  rw [List.filterMap_append, silent, runs]
  rfl

/-- The next waiter runs. -/
theorem course_run {waiter : Waiter α β} {rest : List (Duty α β)} (more : List (Duty α β)) {world next : World α β ε ω}
    (orderly : Orderly ⟨.fire waiter :: rest, world⟩) (silent : more.filterMap Duty.waiter? = [])
    (cells : next.store.cells = world.store.cells) (runs : next.runs = (world.run waiter).runs) :
    course ⟨more ++ rest, next⟩ cell = course ⟨.fire waiter :: rest, world⟩ cell := by
  have ran : next.runsOn cell = world.runsOn cell ++ serialsFor cell [waiter] := by
    rw [← World.runsOn_run]
    unfold World.runsOn
    rw [runs]
  have due : dueFor (more ++ rest) cell = dueFor rest cell := by
    unfold dueFor
    rw [List.filterMap_append, silent]
    rfl
  unfold course
  rw [ran, due, dueFor_cons, Store.queueFor_of_cells_eq cells]
  change _ = world.runsOn cell ++ (world.store.queueFor cell ++ (serialsFor cell [waiter] ++ dueFor rest cell))
  by_cases home : waiter.home = cell
  · have shown : (world.store.state waiter.home).isSome := orderly.duties (.fire waiter) List.mem_cons_self
    rw [orderly.sound.queueFor_eq_nil (home ▸ shown)]
    simp
  · rw [serialsFor_singleton, if_neg home]
    simp

theorem course_routine {mayPanic : Prop} (orderly : before.Orderly) (step : Routine mayPanic before after) :
    after.course cell = before.course cell := by
  cases step with
  | @park place waiter rest world store parked =>
    obtain ⟨-, -, together⟩ := orderly.duties (.hand place waiter) List.mem_cons_self
    have last := Store.last_park orderly.sound.grounded parked cell
    unfold course Store.queueFor
    rw [last, Store.waitersAt_park parked, dueFor_cons, serialsFor_append]
    change world.runsOn cell ++ _ = _
    simp only [Duty.waiter?, Option.toList_some, List.append_assoc]
    by_cases home : waiter.home = cell
    · rw [if_pos (home ▸ together)]
    · have alone : serialsFor cell [waiter] = [] := by rw [serialsFor_singleton, if_neg home]
      have nobody : serialsFor cell (if world.store.last cell = world.store.last place then [waiter] else []) = [] := by
        split
        · exact alone
        · rfl
      rw [alone, nobody]
  | ready => rfl
  | call | pass => exact course_run [_] orderly rfl rfl rfl
  | arrive _ arrived => exact course_run [] orderly rfl (Store.cells_of_arriveAt arrived) rfl
  | opens _ arrived => exact course_run [_] orderly rfl (Store.cells_of_arriveAt arrived) rfl
  | derive => exact course_run [_] orderly rfl rfl rfl
  | spoil | skip => exact course_run [] orderly rfl rfl rfl
  | give settled =>
    exact (course_settle (orderly.aside [_] _ _ rfl) settled).trans (course_done [] rfl rfl rfl rfl)
  | link _ linked =>
    exact (course_link (orderly.aside [_] _ _ rfl) linked).trans (course_done [] rfl rfl rfl rfl)
  | refuse | bar | abandon => exact course_done [] rfl rfl rfl rfl

end Moment

/-! ## What clients do -/

/-- Newcomers to a cell join those who wait for it. -/
structure World.Joined (world next : World α β ε ω) (cell : CellId) (new : List Nat) : Prop where
  recorded : next.registrationsOn cell = world.registrationsOn cell ++ new
  ran : next.runsOn cell = world.runsOn cell
  queued : next.store.queueFor cell = world.store.queueFor cell ++ new
  fresh : ∀ serial ∈ new, world.store.registered ≤ serial
  grown : world.store.registered ≤ next.store.registered

namespace World.Joined

variable {world between next : World α β ε ω} {cell : CellId} {new more : List Nat}

/-- Nothing that concerns those who wait. -/
theorem aside (cells : next.store.cells = world.store.cells)
    (registered : next.store.registered = world.store.registered)
    (registrations : next.registrations = world.registrations) (runs : next.runs = world.runs) :
    world.Joined next cell [] where
  recorded := by
    unfold registrationsOn
    rw [registrations, List.append_nil]
  ran := by
    unfold runsOn
    rw [runs]
  queued := (Store.queueFor_of_cells_eq cells cell).trans (List.append_nil _).symm
  fresh := by simp
  grown := Nat.le_of_eq registered.symm

theorem trans (first : world.Joined between cell new) (second : between.Joined next cell more) :
    world.Joined next cell (new ++ more) where
  recorded := by rw [second.recorded, first.recorded, List.append_assoc]
  ran := second.ran.trans first.ran
  queued := by rw [second.queued, first.queued, List.append_assoc]
  fresh serial member := by
    rcases List.mem_append.1 member with early | late
    · exact first.fresh serial early
    · exact Nat.le_trans first.grown (second.fresh serial late)
  grown := Nat.le_trans first.grown second.grown

theorem make (grounded : world.store.Grounded) {made : Cell α β} (free : made.link = none)
    (nobody : made.waiters = []) : world.Joined (world.make made) cell [] where
  recorded := (List.append_nil _).symm
  ran := rfl
  queued := by
    unfold Store.queueFor World.make
    rw [Store.last_make grounded free, Store.waitersAt_make world.store nobody, List.append_nil]
  fresh := by simp
  grown := Nat.le_refl _

theorem waits {id : CellId} {continuation : Continuation α β} (sound : world.store.Sound)
    (waits : world.Waits id continuation next) :
    world.Joined next cell (if id = cell then [world.store.registered] else []) where
  recorded := by
    have logged : next.registrations = (world.log (.registered world.store.registered id)).registrations := by
      unfold registrations
      rw [waits.history]
      rfl
    unfold registrationsOn at *
    rw [logged]
    have one := world.registrationsOn_log (.registered world.store.registered id) cell
    unfold registrationsOn at one
    rw [one]
    by_cases home : id = cell <;> simp [Event.registration?, home]
  ran := by
    unfold runsOn runs
    rw [waits.history]
    rfl
  queued := by
    have ends := waits.last sound cell
    obtain ⟨store, parked, rfl⟩ := waits
    have same := world.enroll_cells id continuation
    unfold Store.queueFor
    rw [ends, Store.waitersAt_park parked, serialsFor_append, Store.waitersAt_of_cells_eq same,
      Store.last_of_cells_eq same]
    congr 1
    -- Others may wait in the same place, at the end of a shared chain.
    by_cases home : id = cell
    · rw [if_pos (by rw [home]), serialsFor_enroll]
    · rw [if_neg home]
      split
      · rw [serialsFor_enroll, if_neg home]
      · rfl
  fresh serial member := by
    split at member
    · exact Nat.le_of_eq (List.mem_singleton.1 member).symm
    · cases member
  grown := waits.registered ▸ Nat.le_succ _

theorem waitsEach {ids : List CellId} {continuation : Continuation α β}
    (waits : World.WaitsEach continuation ids world next) (sound : world.store.Sound) :
    ∃ new, world.Joined next cell new := by
  induction waits with
  | nil => exact ⟨[], .aside rfl rfl rfl rfl⟩
  | cons bound first _ ih =>
    obtain ⟨more, later⟩ := ih ((Grow.waits bound first).sound sound)
    exact ⟨_, (Joined.waits sound first).trans later⟩

end World.Joined

namespace Moment

variable {gives : CellId → Prop} {before after : Moment α β ε ω} {cell : CellId}

/-- Newcomers to a cell stand behind those who wait for it. -/
structure Joined (before after : Moment α β ε ω) (cell : CellId) (new : List Nat) : Prop where
  recorded : after.world.registrationsOn cell = before.world.registrationsOn cell ++ new
  fresh : ∀ serial ∈ new, before.world.store.registered ≤ serial
  grown : before.world.store.registered ≤ after.world.store.registered
  course : after.course cell =
    before.world.runsOn cell ++ (before.world.store.queueFor cell ++ (new ++ dueFor before.duties cell))

theorem joined_of_world {duties : List (Duty α β)} {world next : World α β ε ω} {new : List Nat}
    (joined : world.Joined next cell new) : Joined ⟨duties, world⟩ ⟨duties, next⟩ cell new where
  recorded := joined.recorded
  fresh := joined.fresh
  grown := joined.grown
  course := by
    unfold course
    rw [joined.ran, joined.queued, List.append_assoc]

theorem joined_nobody (recorded : after.world.registrationsOn cell = before.world.registrationsOn cell)
    (registered : after.world.store.registered = before.world.store.registered)
    (same : after.course cell = before.course cell) : Joined before after cell [] where
  recorded := recorded.trans (List.append_nil _).symm
  fresh := by simp
  grown := Nat.le_of_eq registered.symm
  course := same

theorem joined_call {duties : List (Duty α β)} {world : World α β ε ω} {id : CellId} {continuation : Continuation α β} :
    Joined ⟨duties, world⟩
      ⟨[.hand id (world.store.enroll id continuation).1] ++ duties, world.enroll id continuation⟩ cell
      (if id = cell then [world.store.registered] else []) where
  recorded := by
    refine (World.registrationsOn_log ..).trans ?_
    by_cases home : id = cell <;> simp [Event.registration?, home, World.registrationsOn, World.registrations]
  fresh serial member := by
    split at member
    · exact Nat.le_of_eq (List.mem_singleton.1 member).symm
    · cases member
  grown := Nat.le_succ _
  course := by
    have queue : (world.enroll id continuation).store.queueFor cell = world.store.queueFor cell :=
      Store.queueFor_of_cells_eq (world.enroll_cells id continuation) cell
    have due : dueFor (.hand id (world.store.enroll id continuation).1 :: duties) cell =
        (if id = cell then [world.store.registered] else []) ++ dueFor duties cell :=
      (dueFor_cons ..).trans (congrArg (· ++ _) (serialsFor_enroll world.store id cell continuation))
    have ran : (world.enroll id continuation).runsOn cell = world.runsOn cell :=
      (World.runsOn_log ..).trans (List.append_nil _)
    unfold course
    rw [ran, queue, List.singleton_append, due]

theorem joined_deed {duties added : List (Duty α β)} {world next : World α β ε ω} (orderly : Orderly ⟨duties, world⟩)
    (deed : Deed gives world added next) : ∃ new, Joined ⟨duties, world⟩ ⟨added ++ duties, next⟩ cell new := by
  have sound := orderly.sound
  cases deed with
  | make free nobody => exact ⟨_, joined_of_world (.make sound.grounded free nobody)⟩
  | settle _ settled =>
    exact ⟨_, joined_nobody rfl (Store.aligned_settle settled).registered (course_settle orderly settled)⟩
  | link _ linked =>
    exact ⟨_, joined_nobody rfl (Store.aligned_linkTo linked).registered (course_link orderly linked)⟩
  | call => exact ⟨_, joined_call⟩
  | derive _ waits =>
    have made : world.Joined (world.make {}) cell [] := .make sound.grounded rfl rfl
    exact ⟨_, joined_of_world (made.trans (.waits (sound.make rfl rfl) waits))⟩
  | @gather ids body _ _ waits =>
    obtain ⟨new, joined⟩ := World.Joined.waitsEach waits (sound.of_cells_eq rfl)
    have latched : world.Joined (world.latch ⟨ids.length, body⟩) cell [] := .aside rfl rfl rfl rfl
    exact ⟨_, joined_of_world (latched.trans joined)⟩
  | pass | convert | note | own => exact ⟨_, joined_of_world (.aside rfl rfl rfl rfl)⟩

theorem joined_routine {mayPanic : Prop} (orderly : before.Orderly) (step : Routine mayPanic before after) :
    Joined before after cell [] := by
  refine joined_nobody ?_ ?_ (course_routine orderly step)
  · cases step <;> rfl
  · cases step with
    | park parked => exact (Store.aligned_park parked).registered
    | arrive _ arrived | opens _ arrived => exact Store.registered_of_arriveAt arrived
    | give settled => exact (Store.aligned_settle settled).registered
    | link _ linked => exact (Store.aligned_linkTo linked).registered
    | _ => rfl

theorem joined_stride (orderly : before.Orderly) (stride : Stride gives before after) :
    ∃ new, Joined before after cell new := by
  cases stride with
  | routine step => exact ⟨_, joined_routine orderly step⟩
  | begin => exact ⟨_, joined_nobody rfl rfl (course_done [] rfl rfl rfl rfl)⟩
  | deed _ deed => exact joined_deed orderly deed

/-! ## In the order of registration -/

/-- Whoever was there before keeps their place. -/
theorem Joined.filter_course {new : List Nat} (joined : Joined before after cell new) {count : Nat}
    (early : count ≤ before.world.store.registered) :
    (after.course cell).filter (· < count) = (before.course cell).filter (· < count) := by
  have none : new.filter (· < count) = [] :=
    List.filter_eq_nil_iff.2 fun serial member => by simpa using Nat.le_trans early (joined.fresh serial member)
  rw [joined.course, Moment.course]
  simp [none]

theorem filter_course (orderly : before.Orderly) (strides : Steps (Stride gives) before after) {count : Nat}
    (early : count ≤ before.world.store.registered) :
    count ≤ after.world.store.registered ∧
      (after.course cell).filter (· < count) = (before.course cell).filter (· < count) := by
  induction strides with
  | refl => exact ⟨early, rfl⟩
  | tail earlier last ih =>
    obtain ⟨counted, same⟩ := ih
    obtain ⟨new, joined⟩ := joined_stride (orderly.strides earlier).1 last
    exact ⟨Nat.le_trans counted joined.grown, (joined.filter_course counted).trans same⟩

/-- When a client is in charge, nobody is on the way who was registered on a cell that is not available. -/
theorem due_of_calm (orderly : before.Orderly) (calm : Calm before.world.store before.duties)
    (pending : before.world.store.state cell = none) : dueFor before.duties cell = [] := by
  refine serialsFor_eq_nil fun waiter member home => ?_
  obtain ⟨duty, due, carried⟩ := List.mem_filterMap.1 member
  have fair := orderly.duties duty due
  -- Who is on the way comes from an available cell, which this one is not.
  cases duty with
  | hand place other =>
    cases carried
    obtain ⟨-, -, together⟩ := fair
    have shown := calm place waiter due
    rw [Store.state, ← together, home] at shown
    change (before.world.store.state cell).isSome at shown
    rw [pending] at shown
    cases shown
  | fire other =>
    cases carried
    rw [Duty.Fair, home, pending] at fair
    cases fair
  | _ => cases carried

/-- All who were ever registered on a cell that is not available are still to run, in that order. -/
def Recorded (moment : Moment α β ε ω) : Prop :=
  ∀ cell, moment.world.store.state cell = none → moment.course cell = moment.world.registrationsOn cell

namespace Recorded

theorem start (outer : ω) : Recorded (⟨[], { outer }⟩ : Moment α β ε ω) := fun _ _ => rfl

theorem stride (recorded : before.Recorded) (orderly : before.Orderly) (stride : Stride gives before after) :
    after.Recorded := by
  intro cell pending
  -- What is not available now was not before.
  have early : before.world.store.state cell = none := by
    by_contra shown
    have still := (orderly.strides (.single stride)).2.isSome_state (Option.isSome_iff_ne_none.2 shown)
    rw [pending] at still
    cases still
  have before := recorded cell early
  cases stride with
  | routine step =>
    have joined : Joined _ _ cell [] := joined_routine orderly step
    rw [joined.recorded, List.append_nil, ← before]
    exact course_routine orderly step
  | begin => exact (course_done [] rfl rfl rfl rfl).trans before
  | deed calm deed =>
    obtain ⟨new, joined⟩ := joined_deed orderly deed
    rw [joined.course, joined.recorded, ← before, course, due_of_calm orderly calm early]
    simp

theorem strides (recorded : before.Recorded) (orderly : before.Orderly) (strides : Steps (Stride gives) before after) :
    after.Recorded := by
  induction strides with
  | refl => exact recorded
  | tail earlier last ih => exact ih.stride (orderly.strides earlier).1 last

end Recorded

theorem Accounted.registrationsOn_lt (accounted : before.Accounted) :
    ∀ serial ∈ before.world.registrationsOn cell, serial < before.world.store.registered := by
  intro serial member
  obtain ⟨key, among, rfl⟩ := List.mem_map.1 member
  have registered : key.1 ∈ before.world.registrations.map Prod.fst :=
    List.mem_map_of_mem (List.mem_reverse.1 (List.mem_filter.1 among).1)
  rw [accounted.numbered] at registered
  exact List.mem_range.1 (List.mem_reverse.1 registered)

/-- Those who were registered on a cell while it was not available run in that order. -/
theorem runs_in_order (orderly : before.Orderly) (accounted : before.Accounted) (recorded : before.Recorded)
    (pending : before.world.store.state cell = none) (strides : Steps (Stride gives) before after) :
    (after.world.runsOn cell).filter (· < before.world.store.registered) <+: before.world.registrationsOn cell := by
  have same : (after.course cell).filter _ = _ := (filter_course orderly strides (Nat.le_refl _)).2
  rw [recorded cell pending, course, List.filter_append] at same
  -- Those who are registered have earlier numbers than all who are to come.
  have all : (before.world.registrationsOn cell).filter (· < before.world.store.registered) =
      before.world.registrationsOn cell :=
    List.filter_eq_self.2 fun serial member => by simpa using accounted.registrationsOn_lt serial member
  rw [all] at same
  exact ⟨_, same⟩

end Moment

end DeferredJit.Async
