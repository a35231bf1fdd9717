import DeferredJit.Proofs.Engine.SingleFlight
import DeferredJit.Proofs.Engine.Turns

/-! The calls of a handle have their turns in the order in which they were made, whenever the handle and
its executables become available. So the executables that a handle makes depend on that order alone. -/

set_option autoImplicit false

namespace DeferredJit.Engine

open Async (CellId Moment Continuation Routine Steps)

/-! ## Compilations -/

/-- What a request is compiled to: the compiler's failure, or a handle around its artifact. -/
inductive Compiled (setup : Setup) (request : Request) (handles : List Handle) : Outcome Payload → Prop where
  | failed {failure} : contained "compiler" (setup.compiler request setup.workers) = .error failure →
      Compiled setup request handles (.error failure)
  | made {artifact genericCell table} {id : HandleId} :
      contained "compiler" (setup.compiler request setup.workers) = .ok artifact →
      handles[id]? = some (artifact.handle setup.config genericCell table) →
      Compiled setup request handles (.ok (.handle id))

/-- The compilation of a request, for an entry of the cache. -/
def compiling (setup : Setup) (key : CacheKey) (cell : CellId) (request : Request) : Errand where
  task job := job = .compile key cell (.request request)
  result := Compiled setup request
  keeps keep compiled := by
    cases compiled with
    | failed same => exact .failed same
    | made same found =>
      obtain ⟨⟨generic, genericCell, specializer, mode, limit, table⟩, there, keeps⟩ := keep found
      cases keeps.generic
      cases keeps.specializer
      cases keeps.mode
      cases keeps.limit
      exact .made same there

section Prepared

variable {setup : Setup} {key : CacheKey} {target : CellId} {request : Request} {world next : EngineWorld}
  {outcome : Outcome Payload}

theorem prepared_compile
    (ran : prepared setup (.compile key target (.request request)) world = (.ok outcome, next)) :
    (∃ failure, contained "compiler" (setup.compiler request setup.workers) = .error failure ∧
      outcome = .error failure) ∨
    ∃ artifact, contained "compiler" (setup.compiler request setup.workers) = .ok artifact ∧
      outcome = .ok (.handle world.outer.handles.length) ∧
      next.outer.handles = world.outer.handles ++ [artifact.handle setup.config world.store.cells.size []] := by
  cases made : contained "compiler" (setup.compiler request setup.workers) with
  | error failure =>
    simp only [prepared, compile, made] at ran
    cases ran
    exact .inl ⟨failure, rfl, rfl⟩
  | ok artifact =>
    simp only [prepared, compile, made] at ran
    cases ran
    exact .inr ⟨artifact, rfl, rfl, rfl⟩

theorem compiling_sound (setup : Setup) (key : CacheKey) (cell : CellId) (request : Request) :
    (compiling setup key cell request).Sound setup := by
  rintro job world outcome next rfl ran
  rcases prepared_compile ran with ⟨failure, made, rfl⟩ | ⟨artifact, made, rfl, handles⟩
  · exact .failed made
  · have found : next.outer.handles[world.outer.handles.length]? =
        some (artifact.handle setup.config world.store.cells.size []) := by simp [handles]
    exact .made made found

end Prepared

/-! ## Runs in which calls know their operands -/

/-- Outside parties do nothing but ask for compilations, and nothing panics. -/
def Rules.closed (asks : CacheKey → Request → Prop) : Rules where
  panics := False
  touches _ _ := False
  asks := asks
  caches := False
  calls := False

/-- The calls of a handle are those whose operands are these, in this order. Those that come first have had
their turns, and the handle has the executables that it wants after them. -/
structure Standing (moment : EngineMoment) (cell : CellId) (called : List (List Memref)) : Prop where
  inTurn : InTurn moment cell
  turns : ∃ done, done ++ turnsDue moment cell = called ∧ (moment.world.store.state cell = none → done = []) ∧
    ∀ id, Promises moment cell id → Suits moment.world.outer.handles id done

/-- Every entry of the cache has a handle of its own, which serves the calls in their order. -/
structure Queues (called : CellId → List (List Memref)) (moment : EngineMoment) : Prop where
  standing : ∀ entry ∈ moment.world.outer.cache.entries, Standing moment entry.2 (called entry.2)
  apart : ∀ first ∈ moment.world.outer.cache.entries, ∀ second ∈ moment.world.outer.cache.entries, ∀ id,
    Promises moment first.2 id → Promises moment second.2 id → first.2 = second.2
  direct : moment.Carries (Direct (moment.world.outer.cache.entries.map Prod.snd))
  unborn : ∀ cell, moment.world.store.cells.size ≤ cell → called cell = []

namespace Queues

variable {setup : Setup} {asks : CacheKey → Request → Prop} {called : CellId → List (List Memref)}
  {before after : EngineMoment} {duties rest : List EngineDuty} {world next : EngineWorld}

/-- What a step makes of the queues: of the calls of each entry, the first in line have their turns, and new ones
come to be last. -/
theorem advance (queues : Queues called before) (taken fresh : CellId → List (List Memref))
    (entries : after.world.outer.cache.entries = before.world.outer.cache.entries)
    (keeps : before.world.store.Keeps after.world.store)
    (turns : ∀ entry ∈ before.world.outer.cache.entries, InTurn after entry.2 ∧
      taken entry.2 ++ turnsDue after entry.2 = turnsDue before entry.2 ++ fresh entry.2)
    (idle : ∀ entry ∈ before.world.outer.cache.entries, before.world.store.state entry.2 = none → taken entry.2 = [])
    (promises : ∀ entry ∈ before.world.outer.cache.entries, ∀ id, Promises after entry.2 id → Promises before entry.2 id)
    (suits : ∀ entry ∈ before.world.outer.cache.entries, ∀ id done, Promises before entry.2 id →
      Suits before.world.outer.handles id done → Suits after.world.outer.handles id (done ++ taken entry.2))
    (direct : after.Carries (Direct (before.world.outer.cache.entries.map Prod.snd)))
    (unborn : ∀ cell, after.world.store.cells.size ≤ cell → fresh cell = []) :
    Queues (fun cell => called cell ++ fresh cell) after where
  standing entry member := by
    rw [entries] at member
    obtain ⟨done, whole, pending, suited⟩ := (queues.standing entry member).turns
    obtain ⟨inTurn, due⟩ := turns entry member
    refine ⟨inTurn, done ++ taken entry.2, ?_, fun hidden => ?_, fun id promised => ?_⟩
    · rw [List.append_assoc, due, ← List.append_assoc, whole]
    · have none : before.world.store.state entry.2 = none := by
        by_contra shown
        obtain ⟨outcome, shows⟩ := Option.ne_none_iff_exists'.1 shown
        rw [keeps.state shows] at hidden
        cases hidden
      rw [pending none, idle entry member none]
      rfl
    · have promise := promises entry member id promised
      exact suits entry member id done promise (suited id promise)
  apart first member second among id promised also := by
    rw [entries] at member among
    exact queues.apart first member second among id (promises first member id promised) (promises second among id also)
  direct := entries ▸ direct
  unborn cell missing := by
    rw [queues.unborn cell (Nat.le_trans keeps.size_le missing), unborn cell missing]
    rfl

/-- No calls are new. -/
theorem serve (queues : Queues called before) (taken : CellId → List (List Memref))
    (entries : after.world.outer.cache.entries = before.world.outer.cache.entries)
    (keeps : before.world.store.Keeps after.world.store)
    (turns : ∀ entry ∈ before.world.outer.cache.entries, InTurn after entry.2 ∧
      taken entry.2 ++ turnsDue after entry.2 = turnsDue before entry.2)
    (idle : ∀ entry ∈ before.world.outer.cache.entries, before.world.store.state entry.2 = none → taken entry.2 = [])
    (promises : ∀ entry ∈ before.world.outer.cache.entries, ∀ id, Promises after entry.2 id → Promises before entry.2 id)
    (suits : ∀ entry ∈ before.world.outer.cache.entries, ∀ id done, Promises before entry.2 id →
      Suits before.world.outer.handles id done → Suits after.world.outer.handles id (done ++ taken entry.2))
    (direct : after.Carries (Direct (before.world.outer.cache.entries.map Prod.snd))) : Queues called after := by
  have none : (fun cell => called cell ++ []) = called := by simp
  rw [← none]
  refine queues.advance taken (fun _ => []) entries keeps (fun entry member => ?_) idle promises suits direct fun _ _ => rfl
  rw [List.append_nil]
  exact turns entry member

/-- Nobody has a turn, and no handle is promised. -/
theorem congr (queues : Queues called before)
    (entries : after.world.outer.cache.entries = before.world.outer.cache.entries)
    (turns : ∀ entry ∈ before.world.outer.cache.entries,
      InTurn after entry.2 ∧ turnsDue after entry.2 = turnsDue before entry.2)
    (direct : after.Carries (Direct (before.world.outer.cache.entries.map Prod.snd)))
    (keeps : before.world.store.Keeps after.world.store)
    (promises : ∀ entry ∈ before.world.outer.cache.entries, ∀ id, Promises after entry.2 id → Promises before entry.2 id)
    (stay : HandlesStay before.world.outer.handles after.world.outer.handles) : Queues called after := by
  refine queues.serve (fun _ => []) entries keeps turns (fun _ _ _ => rfl) promises (fun _ _ _ done _ suits => ?_) direct
  rw [List.append_nil]
  exact suits.stay stay

/-- What is done while nothing is in progress, and adds no calls. -/
theorem adds {scope : Scope} {budget : Nat} (queues : Queues called ⟨duties, world⟩) (ready : Ready world)
    (adds : Adds scope world budget next) (direct : scope.defers → budget = 0) (settled : ¬ scope.chooses) :
    Queues called ⟨duties, next⟩ :=
  queues.congr adds.entries (fun entry member => adds.inTurn ready.sound direct (queues.standing entry member).inTurn)
    (adds.direct ready.sound direct queues.direct) (adds.grows.keeps ready.sound)
    (fun entry member _ promised => promised.grown adds.grows ready.sound (ready.tidy.entries entry member) fun _ => id)
    (adds.handlesStay settled)

theorem routine {mayPanic : Prop} (queues : Queues called before) (fit : Fit before)
    (served : ∀ entry ∈ before.world.outer.cache.entries, Served .any before entry.2)
    (step : Routine mayPanic before after) : Queues called after := by
  have outer := Fit.outer_routine step
  have keeps := step.keeps fit.orderly.sound
  refine queues.congr (by rw [outer]) (fun entry member => ?_) (Moment.Carries.routine queues.direct step) keeps
    (fun entry member id promised => ?_) (by rw [outer]; exact .refl _)
  · have inTurn := (queues.standing entry member).inTurn
    exact ⟨inTurn.routine fit.orderly step, inTurn.line_routine fit.orderly step⟩
  · have concrete := (queues.standing entry member).inTurn.concrete
    exact promised.earlier keeps (fun _ => step.state_of_concrete fit.orderly.sound concrete)
      (fun _ => step.gives_of_unowned Stage.results (served entry member).unowned)

theorem look_handle {seen : Option (Outcome Payload)} {id : HandleId}
    (handled : look Payload.handle? seen = some (.ok id)) : seen = some (.ok (.handle id)) := by
  rcases seen with _ | failure | payload
  · cases handled
  · cases handled
  · cases payload with
    | handle other =>
      cases handled
      rfl
    | _ => cases handled

/-- A call has its turn at the handle in a cell that shows something, and nowhere else. -/
theorem chosen {cell new : CellId} {views : List Memref} {later : List Handle} {seen : Outcome Payload}
    (queues : Queues called before) (shows : before.world.store.state cell = some seen)
    (known : cell ∈ before.world.outer.cache.entries.map Prod.snd ∨ ∃ failure, seen = .error failure)
    (stay : HandlesStay (chosen before.world.outer.handles views new (look Payload.handle? (some seen))) later)
    {entry : CacheKey × CellId} (member : entry ∈ before.world.outer.cache.entries) {id : HandleId}
    (promised : Promises before entry.2 id) {done : List (List Memref)}
    (suits : Suits before.world.outer.handles id done) :
    Suits later id (done ++ if cell = entry.2 then [views] else []) := by
  split
  · rename_i here
    -- The handle is there, and not only about to be given.
    have same : seen = .ok (.handle id) := by
      rcases promised with there | ⟨pending, -⟩
      · rw [← here, shows] at there
        exact Option.some.inj there
      · rw [← here, shows] at pending
        cases pending
    subst same
    exact suits.turn stay
  · rename_i elsewhere
    rw [List.append_nil]
    refine suits.aside (fun same => elsewhere ?_) stay
    have also : Promises before cell id := .inl (shows.trans (look_handle same))
    rcases known with among | ⟨failure, rfl⟩
    · obtain ⟨other, there, rfl⟩ := List.mem_map.1 among
      exact queues.apart other there entry member id also promised
    · cases same

/-- Stages are taken; those that are turns at a handle are the first that are due there. -/
theorem stage {stage : Stage} {seen : Option (Outcome Payload)} {depth : Nat} {produced : List CellId}
    (queues : Queues called ⟨.answer stage seen :: rest, world⟩) (fit : Fit ⟨.answer stage seen :: rest, world⟩)
    (ran : proceed setup (within setup (depth + 1)) stage seen world = (.ok produced, next)) :
    Queues called ⟨linkAll stage.results produced ++ rest, next⟩ := by
  have ready := fit.ready
  have proceeds := fit.proceeds ran
  have adds := proceeds.adds
  have direct : stage.Direct (world.outer.cache.entries.map Prod.snd) := queues.direct.asked _ _ List.mem_cons_self
  -- Only the stage of operands defers, and nobody in the line has that one.
  have undeferred : stage.scope.defers → stage.weight - 1 = 0 := by
    cases stage with
    | operands => exact direct.elim
    | _ => exact False.elim
  have turns : ∀ entry ∈ world.outer.cache.entries,
      InTurn ⟨linkAll stage.results produced ++ rest, next⟩ entry.2 ∧
        (stage.views? entry.2).toList ++ turnsDue ⟨linkAll stage.results produced ++ rest, next⟩ entry.2 =
          turnsDue ⟨.answer stage seen :: rest, world⟩ entry.2 := by
    intro entry member
    obtain ⟨added, due⟩ := adds.inTurn ready.sound undeferred (queues.standing entry member).inTurn.drop
    obtain ⟨linked, same⟩ := inTurn_linkAll added
    refine ⟨linked, ?_⟩
    rw [same, due]
    symm
    exact Moment.line_cons _ _ _ _
  refine queues.serve (fun cell => (stage.views? cell).toList) adds.entries (adds.grows.keeps ready.sound) turns
    (fun entry member pending => ?_)
    (fun entry member _ promised => promised.grown adds.grows ready.sound (ready.tidy.entries entry member)
      fun _ given => List.mem_cons_of_mem _ (mem_of_give_linkAll given))
    (fun entry member id done promised suits => ?_)
    (direct_linkAll (adds.direct ready.sound undeferred queues.direct.drop))
  · -- A call is told what its handle's cell shows, so nobody has a turn at a cell that shows nothing.
    refine Option.toList_eq_nil_iff.2 (Option.not_isSome_iff_eq_none.1 fun picked => ?_)
    obtain ⟨-, shown⟩ := (queues.standing entry member).inTurn.told _ _ List.mem_cons_self picked
    rw [pending] at shown
    cases shown
  · cases stage with
    | operands => exact direct.elim
    | executable | observer =>
      rw [Stage.views?, Option.toList_none, List.append_nil]
      exact suits.stay (adds.handlesStay False.elim)
    | handle call views results =>
      -- This stage is a turn at its handle; all others are turns nowhere.
      obtain ⟨home, among, same⟩ := List.mem_map.1 direct
      have picked : (Stage.views? home.2 (.handle call views results)).isSome := by simp [Stage.views?, same]
      obtain ⟨told, shown⟩ := (queues.standing home among).inTurn.told _ _ List.mem_cons_self picked
      obtain ⟨outcome, shows⟩ := Option.isSome_iff_exists.1 shown
      rw [same] at shows
      rw [same, shows] at told
      subst told
      have read : (Stage.views? entry.2 (.handle call views results)).toList =
          if call.handle = entry.2 then [views] else [] := by
        rw [Stage.views?]
        split <;> rfl
      rw [read]
      exact queues.chosen shows (.inl direct) (proceeds.chosen rfl) member promised suits

/-- A task that is taken promises no other handle than the one that it makes. That one is new and has no executables,
and it is for the cell of the entry, which is pending. -/
theorem promises_taken {place : Nat} {job : Job} {outcome : Outcome Payload} (fit : Fit ⟨[], world⟩)
    (ledger : Ledger asks ⟨[], world⟩) (found : world.outer.queue[place]? = some job)
    (ran : prepared setup job (World.withdraw world place) = (.ok outcome, next)) {entry : CacheKey × CellId}
    (member : entry ∈ world.outer.cache.entries) {id : HandleId}
    (promised : Promises ⟨[.give job.target outcome], next⟩ entry.2 id) :
    Promises ⟨[], world⟩ entry.2 id ∨ (world.store.state entry.2 = none ∧ job.target = entry.2 ∧
      id = world.outer.handles.length ∧ Suits next.outer.handles id []) := by
  obtain ⟨adds, -⟩ := fit.prepares found ran
  have shows : next.store.state entry.2 = world.store.state entry.2 := by
    have inside := fit.tidy.entries entry member
    rw [← World.store_taken setup world place job] at inside ⊢
    exact adds.grows.state (fit.taken place job).orderly.sound inside
  rcases promised with shown | ⟨pending, due⟩
  · exact .inl (.inl (shows.symm.trans shown))
  · obtain ⟨target, rfl⟩ := Async.Duty.give.inj (List.mem_singleton.1 due)
    have serving : job ∈ world.outer.serving entry.2 :=
      State.mem_serving.2 ⟨List.mem_of_getElem? found, target.symm⟩
    obtain ⟨request, rfl, -⟩ := ledger.jobs entry member job serving
    rcases prepared_compile ran with ⟨failure, -, same⟩ | ⟨artifact, -, same, handles⟩
    · cases same
    · cases same
      refine .inr ⟨shows.symm.trans pending, rfl, rfl,
        artifact.handle setup.config world.store.cells.size [], ?_, Handle.wanted_nil.symm⟩
      rw [handles]
      exact List.getElem?_concat_length

/-- A task leaves the queue. If it compiles, the handle that it makes has no executables yet, and nobody has
had a turn at it. -/
theorem take {place : Nat} {job : Job} {outcome : Outcome Payload} (queues : Queues called ⟨[], world⟩)
    (fit : Fit ⟨[], world⟩) (ledger : Ledger asks ⟨[], world⟩) (found : world.outer.queue[place]? = some job)
    (ran : prepared setup job (World.withdraw world place) = (.ok outcome, next)) :
    Queues called ⟨[.give job.target outcome], next⟩ := by
  obtain ⟨adds, -⟩ := fit.prepares found ran
  have sound : (World.taken setup world place job).store.Sound := (fit.taken place job).orderly.sound
  have store := World.store_taken setup world place job
  have outer := World.outer_taken setup world place job
  have cells := congrArg Async.Store.cells store
  have latches := congrArg Async.Store.latches store
  have entries : next.outer.cache.entries = world.outer.cache.entries := by rw [adds.entries, outer]
  have stay : HandlesStay world.outer.handles next.outer.handles := by
    have stay := adds.handlesStay id
    rwa [outer] at stay
  have keeps : world.store.Keeps next.store := store ▸ adds.grows.keeps sound
  have turns : ∀ entry ∈ world.outer.cache.entries, InTurn ⟨[.give job.target outcome], next⟩ entry.2 ∧
      turnsDue ⟨[.give job.target outcome], next⟩ entry.2 = turnsDue ⟨[], world⟩ entry.2 := by
    intro entry member
    have still : InTurn ⟨[], World.taken setup world place job⟩ entry.2 :=
      (queues.standing entry member).inTurn.of_cells_eq cells latches
    obtain ⟨after, due⟩ := adds.inTurn sound False.elim still
    refine ⟨after.ask rfl, ?_⟩
    rw [turnsDue, Moment.line_cons]
    exact due.trans (Moment.line_of_cells_eq [] cells)
  have direct : Moment.Carries ⟨[.give job.target outcome], next⟩
      (Direct (world.outer.cache.entries.map Prod.snd)) :=
    (adds.direct sound False.elim (queues.direct.of_cells_eq cells latches)).ask trivial
  have valid {entry : CacheKey × CellId} {id : HandleId} (promised : Promises ⟨[], world⟩ entry.2 id) :
      id < world.outer.handles.length := by
    rcases promised with shown | ⟨-, due⟩
    · exact fit.tidy.shown shown _ rfl
    · cases due
  refine ⟨fun entry member => ?_, fun first member second among id promised also => ?_, entries ▸ direct,
    fun cell missing => queues.unborn cell (Nat.le_trans keeps.size_le missing)⟩
  · rw [entries] at member
    obtain ⟨done, whole, idle, suits⟩ := (queues.standing entry member).turns
    obtain ⟨inTurn, due⟩ := turns entry member
    refine ⟨inTurn, done, due ▸ whole, fun pending => idle ?_, fun id promised => ?_⟩
    · by_contra shown
      obtain ⟨outcome, shows⟩ := Option.ne_none_iff_exists'.1 shown
      rw [keeps.state shows] at pending
      cases pending
    · rcases promises_taken fit ledger found ran member promised with old | ⟨pending, -, -, suited⟩
      · exact (suits id old).stay stay
      · rw [idle pending]
        exact suited
  · -- The task promises a handle to its own cell only, and none that was there before.
    rw [entries] at member among
    rcases promises_taken fit ledger found ran member promised, promises_taken fit ledger found ran among also with
      ⟨old | ⟨-, target, new, -⟩, former | ⟨-, goal, same, -⟩⟩
    · exact queues.apart first member second among id old former
    · exact absurd (valid old) (Nat.not_lt.2 (Nat.le_of_eq same.symm))
    · exact absurd (valid former) (Nat.not_lt.2 (Nat.le_of_eq new.symm))
    · exact target.symm.trans goal

/-- Nobody has called a new entry. -/
theorem standing_new (queues : Queues called ⟨[], world⟩) (fit : Fit ⟨[], world⟩) (key : CacheKey)
    (compilation : Option Compilation) :
    Standing ⟨[], World.enter world key compilation⟩ world.store.cells.size (called world.store.cells.size) ∧
      ∀ id, ¬ Promises ⟨[], World.enter world key compilation⟩ world.store.cells.size id := by
  have unpromised (id : HandleId) :
      ¬ Promises ⟨[], World.enter world key compilation⟩ world.store.cells.size id := by
    have blank : (World.enter world key compilation).store.Blank world.store.cells.size :=
      Async.Store.blank_make world.store rfl rfl
    rintro (shown | ⟨-, due⟩)
    · cases blank.state_eq_none.symm.trans shown
    · cases due
  have idle : Moment.Carries ⟨[], world⟩ fun continuation =>
      continuation.picked (Stage.views? world.store.cells.size) = none := by
    refine queues.direct.mono ?_
    rintro (stage | latch | derive) direct
    · cases stage with
      | handle call views results =>
        obtain ⟨entry, member, same⟩ := List.mem_map.1 direct
        have apart : call.handle ≠ world.store.cells.size := same ▸ Nat.ne_of_lt (fit.tidy.entries entry member)
        exact if_neg apart
      | _ => rfl
    · rfl
    · rfl
  have inTurn : InTurn ⟨[], world.make {}⟩ world.store.cells.size := .start rfl rfl idle
  have none : turnsDue ⟨[], world.make {}⟩ world.store.cells.size = [] := by
    have missing : world.store.cell? world.store.cells.size = none := by simp [Async.Store.cell?]
    refine (Moment.InLine.line_make world rfl).trans ?_
    simp [Moment.line, Async.Store.waitersAt, missing]
  refine ⟨⟨inTurn.of_cells_eq rfl rfl, [], ?_, fun _ => rfl, fun id promised => (unpromised id promised).elim⟩, unpromised⟩
  exact none.trans (queues.unborn _ (Nat.le_refl _)).symm

theorem enter (queues : Queues called ⟨[], world⟩) (fit : Fit ⟨[], world⟩) (key : CacheKey)
    (compilation : Option Compilation) : Queues called ⟨[], World.enter world key compilation⟩ := by
  have made := queues.adds fit.ready (.single (.pending world)) (fun _ => rfl) id
  have entries : (World.enter world key compilation).outer.cache.entries =
      world.outer.cache.entries ++ [(key, world.store.cells.size)] := rfl
  obtain ⟨standing, unpromised⟩ := queues.standing_new fit key compilation
  refine ⟨fun entry member => ?_, fun first member second among id promised also => ?_, ?_, made.unborn⟩
  · rcases List.mem_append.1 (entries ▸ member) with old | new
    · obtain ⟨inTurn, turns⟩ := made.standing entry old
      exact ⟨inTurn.of_cells_eq rfl rfl, turns⟩
    · cases List.mem_singleton.1 new
      exact standing
  · rcases List.mem_append.1 (entries ▸ member), List.mem_append.1 (entries ▸ among) with ⟨old | new, former | late⟩
    · exact made.apart first old second former id promised also
    · cases List.mem_singleton.1 late
      exact (unpromised id also).elim
    · cases List.mem_singleton.1 new
      exact (unpromised id promised).elim
    · cases List.mem_singleton.1 new
      cases List.mem_singleton.1 late
      rfl
  · have more : Moment.Carries ⟨[], world.make {}⟩
        (Direct ((World.enter world key compilation).outer.cache.entries.map Prod.snd)) :=
      made.direct.mono (Direct.mono (by rw [entries, List.map_append]; exact List.subset_append_left _ _))
    exact more.of_cells_eq rfl rfl

theorem step (queues : Queues called before) (fit : Fit before) (ledger : Ledger asks before)
    (step : Step setup (.closed asks) before after) : Queues called after := by
  cases step with
  | routine step => exact queues.routine fit ledger.served step
  | stage ran => exact queues.stage fit ran
  | falter allowed => exact allowed.elim
  | settle allowed => exact allowed.elim
  | link allowed => exact allowed.elim
  | @observe id panic world inside =>
    have cells := world.enroll_cells id (.call (.observer panic))
    refine queues.congr rfl (fun entry member => ?_) ?_ (.of_cells_eq cells)
      (fun entry member other promised => ?_) (.refl _)
    · have inTurn := (queues.standing entry member).inTurn
      have still : InTurn ⟨[], World.observe world id panic⟩ entry.2 := inTurn.of_cells_eq cells rfl
      exact ⟨still.ask rfl, (Moment.line_cons ..).trans (Moment.line_of_cells_eq [] cells)⟩
    · exact (queues.direct.of_cells_eq cells rfl).ask trivial
    · refine promised.earlier (.of_cells_eq cells) (fun outcome shown => .inl ?_) fun outcome given => ?_
      · exact (Async.Store.state_of_cells_eq cells _).symm.trans shown
      · cases List.mem_singleton.1 given
  | grow adds granted =>
    obtain ⟨rfl, settled⟩ := granted.resolve_left id
    exact queues.adds fit.ready adds (fun _ => rfl) settled
  | enter => exact queues.enter fit _ _
  | take found ran => exact queues.take fit ledger found ran

/-- A call whose handle is not there yet is the last in line. -/
theorem wait {call : Call} {views : List Memref} (queues : Queues called ⟨[], world⟩) (ready : Ready world)
    (fits : call.Fits world.store.cells.size) (among : call.handle ∈ world.outer.cache.entries.map Prod.snd)
    (waits : (world.makeMany indirect call.count).Waits call.handle
      (.call (.handle call views (places world call.count))) next) :
    Queues (fun cell => called cell ++ if call.handle = cell then [views] else []) ⟨[], next⟩ := by
  let stage : Stage := .handle call views (places world call.count)
  have placed : Async.Grows world (world.makeMany indirect call.count) := world.grows_makeMany rfl rfl call.count
  have added : Addition .call world stage.weight next :=
    .putOff trivial fits.handle fits (.handle trivial) rfl rfl waits
  have keeps := added.grows.keeps ready.sound
  have picked (cell : CellId) : (Continuation.call stage : Continuation Payload Stage).picked (Stage.views? cell) =
      if call.handle = cell then some views else none := rfl
  have direct : Moment.Carries ⟨[], next⟩ (Direct (world.outer.cache.entries.map Prod.snd)) := by
    refine Moment.Carries.waits (queues.direct.makeMany rfl call.count) ?_ waits
    exact among
  refine queues.advance (fun _ => []) _ added.entries keeps (fun entry member => ?_) (fun _ _ _ => rfl)
    (fun entry member _ promised => promised.grown added.grows ready.sound (ready.tidy.entries entry member) fun _ => id)
    (fun _ _ _ done _ suits => ?_) direct
    fun cell missing => if_neg (Nat.ne_of_lt (Nat.lt_of_lt_of_le fits.handle (Nat.le_trans keeps.size_le missing)))
  · have still : InTurn ⟨[], world.makeMany indirect call.count⟩ entry.2 :=
      (queues.standing entry member).inTurn.makeMany ready.sound rfl rfl call.count
    refine ⟨still.waits (placed.sound ready.sound) waits fun some => ?_, (Moment.InLine.line_waits waits ?_).trans ?_⟩
    · by_contra elsewhere
      rw [picked, if_neg elsewhere] at some
      cases some
    · by_cases here : call.handle = entry.2
      · exact .inr (here ▸ still.concrete.last_eq (placed.sound ready.sound))
      · exact .inl ((picked entry.2).trans (if_neg here))
    · rw [picked, Moment.InLine.line_makeMany world rfl]
      split <;> rfl
  · rw [List.append_nil, waits.outer, world.outer_makeMany]
    exact suits

/-- A call whose handle is there has its turn at once. -/
theorem turn {call : Call} {views : List Memref} {seen : Outcome Payload} {budget : Nat}
    (queues : Queues called ⟨[], world⟩) (fit : Fit ⟨[], world⟩) (fits : call.Fits world.store.cells.size)
    (known : call.handle ∈ world.outer.cache.entries.map Prod.snd ∨ ∃ failure, seen = .error failure)
    (shows : world.store.state call.handle = some seen) (adds : Adds .choice world budget next)
    (stay : HandlesStay (Engine.chosen world.outer.handles views world.store.cells.size
      (look Payload.handle? (some seen))) next.outer.handles) :
    Queues (fun cell => called cell ++ if call.handle = cell then [views] else []) ⟨[], next⟩ := by
  have ready := fit.ready
  have keeps := adds.grows.keeps ready.sound
  refine queues.advance (fun cell => if call.handle = cell then [views] else []) _ adds.entries keeps
    (fun entry member => ?_) (fun entry member pending => if_neg fun here => ?_)
    (fun entry member _ promised => promised.grown adds.grows ready.sound (ready.tidy.entries entry member) fun _ => id)
    (fun entry member id done promised suits => queues.chosen shows known stay member promised suits)
    (adds.direct ready.sound False.elim queues.direct)
    fun cell missing => if_neg (Nat.ne_of_lt (Nat.lt_of_lt_of_le fits.handle (Nat.le_trans keeps.size_le missing)))
  · have inTurn := (queues.standing entry member).inTurn
    obtain ⟨still, due⟩ := adds.inTurn ready.sound False.elim inTurn
    refine ⟨still, ?_⟩
    rw [due]
    by_cases here : call.handle = entry.2
    · -- Nobody is still waiting for a turn, for the handle is there.
      have nobody : turnsDue ⟨[], world⟩ entry.2 = [] :=
        inTurn.line_at_rest fit.orderly (by rw [← here, shows]; rfl)
      rw [nobody, List.append_nil, List.nil_append]
    · rw [if_neg here, List.append_nil, List.nil_append]
  · rw [← here, shows] at pending
    cases pending

/-- A call with known operands is the last of its handle. It has its turn at once or waits for it. -/
theorem began {call : Call} {viewed : Outcome (List Memref)} (queues : Queues called ⟨[], world⟩)
    (fit : Fit ⟨[], world⟩)
    (began : Began { world with outer := { world.outer with calls := world.outer.calls + 1 } } call next)
    (fits : call.Fits world.store.cells.size) (made : call.dispatcher.marshaler.views
      (call.operands.map fun cell => look Payload.value? (world.store.state cell)) = .ok viewed)
    (known : call.handle ∈ world.outer.cache.entries.map Prod.snd ∨
      ∃ failure, world.store.state call.handle = some (.error failure)) :
    Queues (fun cell => called cell ++ if call.handle = cell then viewed.toOption.toList else []) ⟨[], next⟩ := by
  let numbered : EngineWorld := { world with outer := { world.outer with calls := world.outer.calls + 1 } }
  have counted : Addition .kernel world 0 numbered := .own rfl rfl rfl (.inl trivial)
  have before : Queues called ⟨[], numbered⟩ := queues.adds fit.ready (.single counted) (fun _ => rfl) id
  have fitted : Fit ⟨[], numbered⟩ := counted.fit fit
  cases began with
  | failed same adds =>
    cases made.symm.trans same
    have unchanged : (fun cell => called cell ++ if call.handle = cell then [] else []) = called := by simp
    have after := before.adds fitted.ready adds False.elim id
    rwa [← unchanged] at after
  | waits same pending putOff =>
    cases made.symm.trans same
    refine before.wait fitted.ready fits (known.resolve_right ?_) putOff
    rintro ⟨failure, shown⟩
    cases shown.symm.trans pending
  | chose same shows adds stay =>
    cases made.symm.trans same
    refine before.turn fitted fits (known.imp_right ?_) shows adds stay
    rintro ⟨failure, failed⟩
    exact ⟨failure, Option.some.inj (shows.symm.trans failed)⟩

end Queues

end DeferredJit.Engine
