import DeferredJit.Proofs.Engine.Kernels

/-! Contracts of the stages of a call. Whatever a stage finds, it adds new result cells and nothing
else; if it finds what it relies on, the call is in a phase of the pipeline after it. Only a marshaler
makes a stage panic, and then nothing has been added. -/

set_option autoImplicit false

namespace DeferredJit.Engine

open Async (CellId Continuation)

variable (setup : Setup) (depth : Nat) {world next : EngineWorld} {call : Call}

/-! ## The executable stage -/

/-- The phase that a call has come to, with nothing done since. -/
abbrev Reaches (moment : EngineMoment) (call : Call) (cells : List CellId) : Prop :=
  Phase (Delivers moment.world) moment call cells

/-- What comes of the turn of a call: it waits again, or it is through without a kernel being run, or its
kernel is run. If the call has found what it relies on, the pipeline has come to the same. -/
inductive Spends (given : Prop) (world : EngineWorld) (call : Call) (next : EngineWorld) : Prop where
  | waits : Turned call.number world [] 1 next →
      (given → Pipeline.kernel call next.outer.handles next.store.state = Pipeline.unknown) → Spends given world call next
  | fails : Silent world next → (given → Barred next call) → Spends given world call next
  | runs {kernel views} : Turned call.number world [(kernel.name, views)] 0 next →
      (given → Cleared next call kernel views) → Spends given world call next

namespace Spends

variable {given other : Prop}

theorem before {between : EngineWorld} (silent : Silent world between) (spends : Spends given between call next) :
    Spends given world call next := by
  cases spends with
  | waits turned unknown => exact .waits (turned.before silent) unknown
  | fails more barred => exact .fails (silent.trans more) barred
  | runs turned cleared => exact .runs (turned.before silent) cleared

theorem imp (spends : Spends given world call next) (implied : other → given) : Spends other world call next := by
  cases spends with
  | waits turned unknown => exact .waits turned fun holds => unknown (implied holds)
  | fails more barred => exact .fails more fun holds => barred (implied holds)
  | runs turned cleared => exact .runs turned fun holds => cleared (implied holds)

end Spends

/-- What comes of a call that has a turn: if it was told what it relies on, it is in a phase of the pipeline. -/
structure Goes (given : Prop) (world : EngineWorld) (call : Call) (moment : EngineMoment) (cells : List CellId) :
    Prop where
  reaches : given → Reaches moment call cells
  spends : Spends given world call moment.world

namespace Goes

variable {given other : Prop} {moment : EngineMoment} {cells : List CellId}

theorem before {between : EngineWorld} (silent : Silent world between) (goes : Goes given between call moment cells) :
    Goes given world call moment cells := ⟨goes.reaches, goes.spends.before silent⟩

theorem imp (goes : Goes given world call moment cells) (implied : other → given) :
    Goes other world call moment cells := ⟨fun holds => goes.reaches (implied holds), goes.spends.imp implied⟩

end Goes

/-- Results of a call that is through with a failure. -/
theorem failed_comes {given : Prop} {failure : Failure} (ready : Ready world)
    (came : given → Pipeline.kernel call world.outer.handles world.store.state =
      Pipeline.known (.error failure)) :
    (failAll call.count failure).Ends world (Comes .kernel world 0 call.count (Goes given world call)) never := by
  refine (failAll_comes ready call.count failure).mono (fun cells next comes => ?_) (fun _ _ => id)
  refine (comes.mono (Nat.le_refl 0) fun adds duties hold => ?_).widen (Scope.plain_within _)
  have onward := (adds.quiet ready duties).toOnward
  exact ⟨fun proviso => .failed (onward.kernel ready.tidy (came proviso)) hold,
    .fails adds.silent fun proviso => .failed (onward.kernel ready.tidy (came proviso))⟩

/-- What the pipeline comes to with an executable. -/
theorem kernel_of_selected {views : List Memref} {cell : CellId} {results : List CellId}
    {outcome : Outcome Payload} (expects : Expects world (.executable call views results) cell)
    (shown : world.store.state cell = some outcome) :
    Pipeline.kernel call world.outer.handles world.store.state =
      Pipeline.known (((look Payload.executable? (some outcome)).getD (.error unresolved)).map
        fun kernel => (kernel, views)) := by
  cases expects with
  | executable viewed handled chosen =>
    exact Pipeline.kernel_of_choice viewed handled chosen (by rw [shown]; rfl)

/-- Weigh what the call adds by what it is allowed. -/
theorem Comes.within {scope : Scope} {budget more : Nat} {cells : List CellId}
    {holds : EngineMoment → List CellId → Prop}
    (comes : Comes scope world budget call.count holds cells next) (enough : budget ≤ more) :
    Comes scope world more call.count holds cells next := comes.mono enough fun _ _ => id

theorem withExecutable_ends (ready : Ready world) (fits : call.Fits world.store.cells.size)
    (views : List Memref) (seen : Option (Outcome Payload)) (results : List CellId) :
    (withExecutable setup (within setup (depth + 1)) call views (look Payload.executable? seen)).Ends world
      (Comes .kernel world call.count call.count
        (Goes (Told world (.executable call views results) seen) world call)) never := by
  have came (told : Told world (.executable call views results) seen) :
      Pipeline.kernel call world.outer.handles world.store.state =
        Pipeline.known (((look Payload.executable? seen).getD (.error unresolved)).map
          fun kernel => (kernel, views)) := by
    cases told with
    | shown expects shown => exact kernel_of_selected expects shown
  cases found : look Payload.executable? seen with
  | none =>
    rw [found] at came
    exact (failed_comes ready came).mono (fun _ _ comes => comes.within (Nat.zero_le _)) (fun _ _ => id)
  | some outcome =>
    rw [found] at came
    cases outcome with
    | error failure =>
      exact (failed_comes ready came).mono (fun _ _ comes => comes.within (Nat.zero_le _)) (fun _ _ => id)
    | ok kernel =>
      refine (invoke_ends setup depth ready fits kernel views).mono (fun cells next comes => ?_) (fun _ _ => id)
      refine comes.mono (Nat.le_refl _) fun adds duties ran => ?_
      have known (told : Told world (.executable call views results) seen) :
          Pipeline.kernel call next.outer.handles next.store.state = Pipeline.known (.ok (kernel, views)) :=
        (adds.quiet ready duties).kernel ready.tidy (came told)
      obtain ⟨⟨raws, ran⟩, invoked⟩ := ran
      refine ⟨fun told => .ran (known told) (ran.goes_on (fun _ _ => And.left) (.refl _) id), ?_⟩
      cases invoked with
      | rejected wrong silent => exact .fails silent fun told => .mismatched (known told) wrong
      | run right turned => exact .runs turned fun told => ⟨known told, right⟩

/-! ## Waiting -/

theorem places_fresh {count : Nat}
    (grown : (world.makeMany indirect count).store.cells.size ≤ next.store.cells.size) :
    ∀ cell ∈ places world count, Fresh world.store.cells.size next cell := by
  intro cell member
  rw [Async.World.size_makeMany] at grown
  obtain ⟨young, below⟩ := List.mem_range'_1.1 member
  exact ⟨young, Nat.lt_of_lt_of_le below grown⟩

/-- The call waits for the cell, with new placeholders. -/
def PutOff (world : EngineWorld) (call : Call) (cell : CellId) (stage : List CellId → Stage)
    (next : EngineWorld) : Prop :=
  (world.makeMany indirect call.count).Waits cell (.call (stage (places world call.count))) next

/-- A call that has come to wait has one more stage ahead. -/
theorem PutOff.turned {cell : CellId} {stage : List CellId → Stage} (putOff : PutOff world call cell stage next)
    (called : ∀ results, (stage results).call? = some call) : Turned call.number world [] 1 next := by
  have placed (number : Nat) : (stages number).store (world.makeMany indirect call.count).store =
      (stages number).store world.store := world.measure_makeMany (stages number) rfl call.count
  have notices : World.notices next = World.notices world :=
    (notices_waits putOff).trans (notices_makeMany ..)
  have turns (number : Nat) : (stages number).store next.store =
      (stage (places world call.count)).turns number + (stages number).store world.store := by
    rw [putOff.measure (stages number), placed]
    rfl
  refine ⟨?_, World.executions_congr notices _, ?_, fun different => ⟨World.executions_congr notices _, ?_⟩⟩
  · rw [putOff.outer, world.outer_makeMany]
  · rw [turns, Stage.turns_of_call (called _)]
  · rw [turns, Stage.turns_of_other (called _) different, Nat.zero_add]

theorem PutOff.pending {cell : CellId} {stage : List CellId → Stage} (putOff : PutOff world call cell stage next)
    (ready : Ready world) : next.store.state cell = world.store.state cell := by
  have grown := (world.grows_makeMany rfl rfl call.count : Async.Grows world (world.makeMany indirect call.count))
  exact (putOff.state (grown.sound ready.sound) cell).trans
    (Async.World.state_makeMany ready.sound rfl rfl rfl call.count cell)

theorem putOff_ends (later : Later) (ready : Ready world) (fits : call.Fits world.store.cells.size)
    {cell : CellId} (bound : cell < world.store.cells.size) (pending : world.store.state cell = none)
    (stage : List CellId → Stage) (called : ∀ results, (stage results).call? = some call)
    (placed : ∀ results, (stage results).results = results) {budget : Nat}
    (weighs : ∀ results, (stage results).weight ≤ budget) {scope : Scope} (acts : scope.acts)
    (awaits : ∀ results, (stage results).Awaits scope cell) {given : Prop}
    (expects : given → ∀ results, Expects world (stage results) cell)
    (unknown : ∀ {next : EngineWorld} {results}, Expects next (stage results) cell → next.store.state cell = none →
      Pipeline.kernel call next.outer.handles next.store.state = Pipeline.unknown) :
    (putOff later call cell stage).Ends world
      (Comes scope world budget call.count fun moment cells =>
        Goes given world call moment cells ∧ PutOff world call cell stage moment.world) never := by
  have grown := (world.grows_makeMany rfl rfl call.count : Async.Grows world (world.makeMany indirect call.count))
  have inside : cell < (world.makeMany indirect call.count).store.cells.size := by
    rw [Async.World.size_makeMany]
    exact Nat.lt_of_lt_of_le bound (Nat.le_add_right _ _)
  have still : (world.makeMany indirect call.count).store.state cell = none :=
    (Async.World.state_makeMany ready.sound rfl rfl rfl call.count cell).trans pending
  obtain ⟨next, registered, waits⟩ := Async.register_waits (grown.sound ready.sound) inside still
    later.fire (.call (stage (places world call.count)))
  have putOff : PutOff world call cell stage next := waits
  have adds : Adds scope world (stage (places world call.count)).weight next :=
    .single (.putOff acts bound fits (awaits _) (called _) (placed _) waits)
  refine .after (placeholders_apply call.count world) (.after registered (.pure _ ?_))
  refine ⟨adds.mono (weighs _), List.length_range', places_fresh (Nat.le_of_eq waits.size.symm),
    fun duties => ⟨⟨fun proviso => ?_, .waits (putOff.turned called) fun proviso => ?_⟩, waits⟩⟩
  · refine .pending (.waits (called _) (placed _) (waiter_mem waits duties) rfl ?_)
    exact (adds.quiet ready duties).expects ready.tidy (expects proviso _)
  · have onward := (adds.quiet ready []).toOnward
    exact unknown (onward.expects ready.tidy (expects proviso (places world call.count)))
      ((putOff.pending ready).trans pending)

/-! ## The handle stage -/

/-- What comes of a choice of an executable. -/
inductive Selects (world : EngineWorld) (id : HandleId) (views : List Memref) :
    Outcome CellId → EngineWorld → Prop where
  | missing : world.outer.handles[id]? = none → Selects world id views (.error unresolved) world
  | rejected {handle mismatch} : world.outer.handles[id]? = some handle →
      handle.generic.signature.check views = .error mismatch → Selects world id views
        (.error (.selection (handle.generic.name ++ ": " ++ mismatch.message))) world
  | known {handle cell} : world.outer.handles[id]? = some handle →
      handle.generic.signature.check views = .ok () →
      handle.choose (ShapeKey.ofMemrefs views) = .known cell → Selects world id views (.ok cell) world
  | generic {handle} : world.outer.handles[id]? = some handle →
      handle.generic.signature.check views = .ok () →
      handle.choose (ShapeKey.ofMemrefs views) = .generic → Selects world id views (.ok handle.genericCell) world
  /-- A new executable is asked for, by a task. -/
  | queued {handle specializer} : world.outer.handles[id]? = some handle →
      handle.generic.signature.check views = .ok () → handle.choose (ShapeKey.ofMemrefs views) = .fresh →
      handle.specializer = some specializer → Selects world id views (.ok world.store.cells.size)
        (World.enqueue (World.fitted world id handle (ShapeKey.ofMemrefs views) {})
          (.specialize id handle.generic specializer (ShapeKey.ofMemrefs views) world.store.cells.size))
  /-- A new executable is asked for and made. -/
  | made {handle specializer} : world.outer.handles[id]? = some handle →
      handle.generic.signature.check views = .ok () → handle.choose (ShapeKey.ofMemrefs views) = .fresh →
      handle.specializer = some specializer → Selects world id views (.ok world.store.cells.size)
        ((World.fitted world id handle (ShapeKey.ofMemrefs views)
          { outcome := some (specialized handle.generic specializer (ShapeKey.ofMemrefs views)) }).log
            (.noted (.specialized id handle.generic.name (ShapeKey.ofMemrefs views))))

/-- A new executable is asked for, and made at once or later. -/
theorem specialize_ends {id : HandleId} {handle : Handle} {views : List Memref} (specializer : Specializer)
    (found : world.outer.handles[id]? = some handle) (checked : handle.generic.signature.check views = .ok ())
    (fresh : handle.choose (ShapeKey.ofMemrefs views) = .fresh) (made : handle.specializer = some specializer) :
    (Async.makePending >>= fun target =>
      alter (fun state =>
        { state with handles := state.handles.set id (handle.specialized (ShapeKey.ofMemrefs views) target) }) >>=
        fun _ => enqueue setup (within setup (depth + 1))
          (.specialize id handle.generic specializer (ShapeKey.ofMemrefs views) target) >>= fun _ =>
            (pure (.ok target) : Run (Outcome CellId))).Ends world
      (Selects world id views) never := by
  let key := ShapeKey.ofMemrefs views
  let job : Job := .specialize id handle.generic specializer key world.store.cells.size
  let between := World.fitted world id handle key {}
  have altered : alter (fun state =>
        { state with handles := state.handles.set id (handle.specialized key world.store.cells.size) })
      (world.make {}) = (.ok (), between) := rfl
  refine Act.Ends.after (makePending_apply world) (.after altered ?_)
  cases mode : setup.inline with
  | true =>
    let outcome := specialized handle.generic specializer key
    let noted := between.log (.noted (.specialized id handle.generic.name key))
    have given := resolve_new world noted rfl (Later.fire (within setup depth)) outcome
    have enqueued : enqueue setup (within setup (depth + 1)) job between = (.ok (), { noted with
        store := (world.make { outcome := some outcome }).store }) := by
      unfold enqueue
      rw [mode, if_pos rfl]
      exact Act.bind_ok given
    exact .after enqueued (.pure _ (.made found checked fresh made))
  | false =>
    have enqueued : enqueue setup (within setup (depth + 1)) job between =
        (.ok (), World.enqueue between job) := by
      unfold enqueue
      rw [mode, if_neg Bool.false_ne_true]
      rfl
    exact .after enqueued (.pure _ (.queued found checked fresh made))

theorem select_ends (id : HandleId) (views : List Memref) :
    (select setup (within setup (depth + 1)) id views).Ends world (Selects world id views) never := by
  unfold select
  refine .after (show current world = (.ok world.outer, world) from rfl) ?_
  cases found : world.outer.handles[id]? with
  | none => exact .pure _ (.missing found)
  | some handle =>
    cases checked : handle.generic.signature.check views with
    | error mismatch =>
      simp only [checked]
      exact .pure _ (.rejected found checked)
    | ok =>
      cases chosen : handle.choose (ShapeKey.ofMemrefs views) with
      | known cell =>
        simp only [checked, chosen]
        exact .pure _ (.known found checked chosen)
      | generic =>
        simp only [checked, chosen]
        exact .pure _ (.generic found checked chosen)
      | fresh =>
        obtain ⟨specializer, made⟩ := Option.isSome_iff_exists.1 (Handle.specializer_of_fresh chosen)
        simp only [checked, chosen, made]
        exact specialize_ends setup depth specializer found checked chosen made

namespace Selects

variable {id : HandleId} {views : List Memref} {reply : Outcome CellId}

theorem adds (selects : Selects world id views reply next) : Adds .choice world 0 next := by
  cases selects with
  | queued found _ fresh made => exact .single (.specialize trivial found fresh made)
  | made found _ fresh made => exact .single (.specializeNow trivial found fresh made)
  | _ => exact .refl

/-- To ask for an executable is not to get on. -/
theorem silent (selects : Selects world id views reply next) : Silent world next := by
  let asks : Scope := ⟨True, False, False⟩
  cases selects with
  | queued found _ fresh made =>
    have added : Addition asks world 0 _ := .specialize trivial found fresh made
    exact added.silent (fun acts => acts)
  | made found _ fresh made =>
    have added : Addition asks world 0 _ := .specializeNow trivial found fresh made
    exact added.silent (fun acts => acts)
  | _ => exact .refl world

/-- The handle that was asked has got another executable, if one was still to be made. -/
theorem handles (selects : Selects world id views reply next) :
    next.outer.handles = world.outer.handles.modify id (·.served views world.store.cells.size) := by
  -- A handle that stays as it is.
  have same {handle : Handle} (found : world.outer.handles[id]? = some handle)
      (stays : handle.served views world.store.cells.size = handle) :
      world.outer.handles = world.outer.handles.modify id (·.served views world.store.cells.size) := by
    rw [List.modify_eq_set_getElem?, found]
    change _ = world.outer.handles.set id (handle.served views world.store.cells.size)
    obtain ⟨bound, rfl⟩ := List.getElem?_eq_some_iff.1 found
    rw [stays, List.set_getElem_self]
  have fitted {handle : Handle} (found : world.outer.handles[id]? = some handle)
      (checked : handle.generic.signature.check views = .ok ())
      (fresh : handle.choose (ShapeKey.ofMemrefs views) = .fresh) :
      world.outer.handles.set id (handle.specialized (ShapeKey.ofMemrefs views) world.store.cells.size) =
        world.outer.handles.modify id (·.served views world.store.cells.size) := by
    rw [List.modify_eq_set_getElem?, found]
    change _ = world.outer.handles.set id (handle.served views world.store.cells.size)
    rw [Handle.served_fresh checked fresh]
  cases selects with
  | missing found => rw [List.modify_eq_self (List.getElem?_eq_none_iff.1 found)]
  | rejected found checked => exact same found (Handle.served_rejected checked)
  | known found _ chosen => exact same found (Handle.served_settled (by rw [chosen]; simp))
  | generic found _ chosen => exact same found (Handle.served_settled (by rw [chosen]; simp))
  | queued found checked fresh => exact fitted found checked fresh
  | made found checked fresh => exact fitted found checked fresh

/-- After the choice the handle goes on choosing the same. -/
theorem choice (selects : Selects world id views reply next) :
    Pipeline.choice next.outer.handles id views = Pipeline.known reply := by
  have fitted {handle : Handle} {handles : List Handle} (found : world.outer.handles[id]? = some handle)
      (same : handles = world.outer.handles.set id
        (handle.specialized (ShapeKey.ofMemrefs views) world.store.cells.size))
      (checked : handle.generic.signature.check views = .ok ())
      (fresh : handle.choose (ShapeKey.ofMemrefs views) = .fresh) :
      Pipeline.choice handles id views = Pipeline.known (.ok world.store.cells.size) := by
    have there : handles[id]? = some (handle.specialized (ShapeKey.ofMemrefs views) world.store.cells.size) := by
      rw [same]
      exact List.getElem?_set_self (List.getElem?_eq_some_iff.1 found).1
    exact Pipeline.choice_of_known there checked (handle.choose_specialized _ _ fresh)
  cases selects with
  | missing found =>
    unfold Pipeline.choice
    rw [found]
  | rejected found checked => exact Pipeline.choice_of_rejected found checked
  | known found checked chosen => exact Pipeline.choice_of_known found checked chosen
  | generic found checked chosen => exact Pipeline.choice_of_generic found checked chosen
  | queued found checked fresh => exact fitted found rfl checked fresh
  | made found checked fresh => exact fitted found rfl checked fresh

theorem inside {cell : CellId} (selects : Selects world id views (.ok cell) next) (tidy : Tidy world) :
    cell < next.store.cells.size := by
  have fits {handle : Handle} (found : world.outer.handles[id]? = some handle) :=
    tidy.handles handle (List.mem_of_getElem? found)
  have new (cell : Async.Cell Payload Stage) : world.store.cells.size < (world.make cell).store.cells.size := by
    simp [Async.World.make]
  cases selects with
  | known found _ chosen => exact (fits found).known chosen
  | generic found => exact (fits found).generic
  | queued => exact new _
  | made => exact new _

end Selects

/-- What follows additions that cost nothing. -/
theorem Comes.onward {scope : Scope} {between : EngineWorld} {budget : Nat} {cells : List CellId}
    {holds : EngineMoment → List CellId → Prop} (comes : Comes scope between budget call.count holds cells next)
    (adds : Adds scope world 0 between) : Comes scope world budget call.count holds cells next :=
  (comes.after adds).within (Nat.le_of_eq (Nat.zero_add budget))

/-- The handles that there are stay as they are. -/
def HandlesStay (handles later : List Handle) : Prop :=
  ∀ ⦃id : HandleId⦄ ⦃handle : Handle⦄, handles[id]? = some handle → later[id]? = some handle

theorem Adds.handlesStay {scope : Scope} {budget : Nat} (adds : Adds scope world budget next)
    (settled : ¬ scope.chooses) : HandlesStay world.outer.handles next.outer.handles :=
  fun _ _ => adds.handle_same settled

/-- The handles after the choice of a call that is told this. -/
def chosen (handles : List Handle) (views : List Memref) (cell : CellId) :
    Option (Outcome HandleId) → List Handle
  | some (.ok id) => handles.modify id (·.served views cell)
  | some (.error _) | none => handles

/-- The executable that was chosen is waited for. -/
theorem executable_waits (later : Later) (ready : Ready world) (fits : call.Fits world.store.cells.size)
    (views : List Memref) {cell : CellId} (inside : cell < world.store.cells.size)
    (pending : world.store.state cell = none) {given : Prop}
    (expects : given → ∀ results, Expects world (.executable call views results) cell) :
    (putOff later call cell (.executable call views)).Ends world
      (Comes .kernel world (call.count + 1) call.count (Goes given world call)) never := by
  have unknown {next : EngineWorld} {results : List CellId} (expects : Expects next (.executable call views results) cell)
      (pending : next.store.state cell = none) :
      Pipeline.kernel call next.outer.handles next.store.state = Pipeline.unknown := by
    cases expects with
    | executable viewed handled chosen => exact Pipeline.kernel_of_executable_unknown viewed handled chosen pending
  refine (putOff_ends later ready fits inside pending (.executable call views) (fun _ => rfl) (fun _ => rfl)
    (fun _ => Nat.le_refl _) trivial (fun _ => (.executable : Stage.Awaits .kernel _ cell)) expects unknown).mono
    (fun cells next comes => ?_) (fun _ _ => id)
  exact comes.mono (Nat.le_refl _) fun _ _ waits => waits.1

/-- The results of a call that is told no handle. -/
theorem handle_missing (ready : Ready world) {told : Option (Outcome HandleId)} {failure : Failure} {given : Prop}
    {views : List Memref} (same : told.getD (.error unresolved) = .error failure)
    (viewed : given → Pipeline.marshal call world.store.state = Pipeline.known (.ok views) ∧
      Pipeline.held Payload.handle? (world.store.state call.handle) = Pipeline.known (.error failure)) :
    (failAll call.count failure).Ends world
      (Comes .choice world (call.count + 1) call.count fun moment cells => Goes given world call moment cells ∧
        HandlesStay (chosen world.outer.handles views world.store.cells.size told) moment.world.outer.handles)
      never := by
  have came (holds : given) : Pipeline.kernel call world.outer.handles world.store.state =
      Pipeline.known (.error failure) := Pipeline.kernel_of_handle_error (viewed holds).1 (viewed holds).2
  refine (failed_comes ready came).mono (fun cells next comes => ?_) (fun _ _ => id)
  have settled := comes.adds.handlesStay id
  have stay : chosen world.outer.handles views world.store.cells.size told = world.outer.handles := by
    rcases told with _ | failure | id
    · rfl
    · rfl
    · cases same
  refine (comes.mono (Nat.zero_le _) fun adds _ goes => ⟨goes, ?_⟩).widen (Scope.kernel_within trivial)
  rw [stay]
  exact settled

theorem withHandle_ends (ready : Ready world) (fits : call.Fits world.store.cells.size)
    (views : List Memref) (seen : Option (Outcome Payload)) (results : List CellId) :
    (withHandle setup (within setup (depth + 1)) call views (look Payload.handle? seen)).Ends world
      (Comes .choice world (call.count + 1) call.count fun moment cells =>
        Goes (Told world (.handle call views results) seen) world call moment cells ∧
        HandlesStay (chosen world.outer.handles views world.store.cells.size (look Payload.handle? seen))
          moment.world.outer.handles) never := by
  have viewed (told : Told world (.handle call views results) seen) :
      Pipeline.marshal call world.store.state = Pipeline.known (.ok views) ∧
        Pipeline.held Payload.handle? (world.store.state call.handle) =
          Pipeline.known ((look Payload.handle? seen).getD (.error unresolved)) := by
    cases told with
    | shown expects shown =>
      cases expects with
      | handle viewed => exact ⟨viewed, by rw [shown]; rfl⟩
  rcases found : look Payload.handle? seen with _ | failure | id <;> rw [found] at viewed
  · exact handle_missing ready rfl viewed
  · exact handle_missing ready rfl viewed
  · refine (select_ends setup depth id views).bind fun reply between selected => ?_
    have adds := selected.adds
    have readyBetween := adds.ready ready
    have fitsBetween := fits.later adds.size_le
    -- Nothing that comes after the choice changes a handle.
    have onward {budget : Nat} {cells : List CellId} {next : EngineWorld} {given : Prop}
        (comes : Comes .kernel between budget call.count (Goes given between call) cells next)
        (enough : budget ≤ call.count + 1) (implied : Told world (.handle call views results) seen → given) :
        Comes .choice world (call.count + 1) call.count (fun moment cells =>
          Goes (Told world (.handle call views results) seen) world call moment cells ∧
          HandlesStay (world.outer.handles.modify id (·.served views world.store.cells.size))
            moment.world.outer.handles) cells next := by
      refine Comes.onward (Comes.widen ?_ (Scope.kernel_within trivial)) adds
      exact comes.mono enough fun more _ goes =>
        ⟨(goes.imp implied).before selected.silent, selected.handles ▸ more.handlesStay fun chooses => chooses⟩
    -- The choice has no influence on what the call knows already.
    have known (told : Told world (.handle call views results) seen) :
        Pipeline.marshal call between.store.state = Pipeline.known (.ok views) ∧
          Pipeline.held Payload.handle? (between.store.state call.handle) = Pipeline.known (.ok id) := by
      obtain ⟨viewed, handled⟩ := viewed told
      have shows := adds.shows ready
      exact ⟨Pipeline.marshal_later shows viewed, Pipeline.held_later shows handled⟩
    cases reply with
    | error failure =>
      have came (told : Told world (.handle call views results) seen) :=
        Pipeline.kernel_of_choice_error (known told).1 (known told).2 selected.choice
      exact (failed_comes readyBetween came).mono (fun _ _ comes => onward comes (Nat.zero_le _) fun told => told)
        (fun _ _ same => same)
    | ok cell =>
      have expects (told : Told world (.handle call views results) seen) (results : List CellId) :
          Expects between (.executable call views results) cell :=
        .executable (known told).1 (known told).2 selected.choice
      refine .after (show Async.stateOf cell between = (.ok (between.store.state cell), between) from rfl) ?_
      cases shown : between.store.state cell with
      | none =>
        exact (executable_waits _ readyBetween fitsBetween views (selected.inside ready.tidy) shown expects).mono
          (fun _ _ comes => onward comes (Nat.le_refl _) fun told => told) (fun _ _ same => same)
      | some outcome =>
        exact (withExecutable_ends setup depth readyBetween fitsBetween views (some outcome) results).mono
          (fun _ _ comes => onward comes (Nat.le_succ _) fun told => .shown (expects told results) shown)
          (fun _ _ same => same)

/-! ## The operand stage -/

/-- What comes of a call whose operands are there. -/
inductive Began (world : EngineWorld) (call : Call) (next : EngineWorld) : Prop where
  | failed {failure} : call.dispatcher.marshaler.views
        (call.operands.map fun cell => look Payload.value? (world.store.state cell)) = .ok (.error failure) →
      Adds .kernel world 0 next → Began world call next
  | waits {views} : call.dispatcher.marshaler.views
        (call.operands.map fun cell => look Payload.value? (world.store.state cell)) = .ok (.ok views) →
      world.store.state call.handle = none → PutOff world call call.handle (.handle call views) next →
      Began world call next
  | chose {views seen} : call.dispatcher.marshaler.views
        (call.operands.map fun cell => look Payload.value? (world.store.state cell)) = .ok (.ok views) →
      world.store.state call.handle = some seen → Adds .choice world (call.count + 1) next →
      HandlesStay (chosen world.outer.handles views world.store.cells.size (look Payload.handle? (some seen)))
        next.outer.handles → Began world call next

theorem withOperands_ends (ready : Ready world) (fits : call.Fits world.store.cells.size)
    (results : List CellId) (seen : Option (Outcome Payload)) :
    (withOperands setup (within setup (depth + 1)) call).Ends world
      (Comes .call world (call.count + 2) call.count fun moment cells =>
        Goes (Told world (.operands call results) seen) world call moment cells ∧ Began world call moment.world)
      (fun cause next => next = world ∧ call.dispatcher.marshaler.views
        (call.operands.map fun cell => look Payload.value? (world.store.state cell)) = .error cause) := by
  let values := call.operands.map fun cell => look Payload.value? (world.store.state cell)
  have viewed (told : Told world (.operands call results) seen) {outcome : Outcome (List Memref)}
      (made : call.dispatcher.marshaler.views values = .ok outcome) :
      Pipeline.marshal call world.store.state = Pipeline.known outcome := by
    have available : (call.operands.all fun cell => (world.store.state cell).isSome) = true := by
      cases told with
      | operands available => exact List.all_eq_true.2 available
      | shown expects => cases expects
    unfold Pipeline.marshal
    rw [if_pos available]
    simp only [values] at made
    rw [made]
  refine .after (show valuesOf call.operands world = (.ok values, world) from rfl) ?_
  rcases made : call.dispatcher.marshaler.views values with cause | failure | views
  · exact .of_panic rfl ⟨rfl, rfl⟩
  · refine (failed_comes ready fun (told : Told world (.operands call results) seen) => ?_).mono
      (fun cells next comes => ?_) (fun _ _ => False.elim)
    · exact Pipeline.kernel_of_marshal_error (viewed told made)
    · refine (comes.mono (Nat.zero_le _) fun _ _ goes => ⟨goes, ?_⟩).widen (Scope.kernel_within trivial)
      exact .failed made comes.adds
  · have expects (told : Told world (.operands call results) seen) (results : List CellId) :
        Expects world (.handle call views results) call.handle := .handle (viewed told made)
    refine .after rfl (.after
      (show Async.stateOf call.handle world = (.ok (world.store.state call.handle), world) from rfl) ?_)
    cases shown : world.store.state call.handle with
    | none =>
      have unknown {next : EngineWorld} {results : List CellId}
          (expects : Expects next (.handle call views results) call.handle)
          (pending : next.store.state call.handle = none) :
          Pipeline.kernel call next.outer.handles next.store.state = Pipeline.unknown := by
        cases expects with
        | handle viewed => exact Pipeline.kernel_of_handle_unknown viewed pending
      refine (putOff_ends _ ready fits fits.handle shown (.handle call views) (fun _ => rfl)
        (fun _ => rfl) (fun _ => Nat.le_refl _) trivial (fun _ => (.handle trivial : Stage.Awaits .call _ _))
        expects unknown).mono (fun cells next comes => ?_) (fun _ _ => False.elim)
      exact comes.mono (Nat.le_refl _) fun _ _ waits => ⟨waits.1, .waits made shown waits.2⟩
    | some outcome =>
      refine (withHandle_ends setup depth ready fits views (some outcome) results).mono
        (fun cells next comes => ?_) (fun _ _ => False.elim)
      have adds := comes.adds
      have onward (told : Told world (.operands call results) seen) :
          Told world (.handle call views results) (some outcome) := .shown (expects told results) shown
      exact (comes.mono (Nat.le_succ _) fun _ _ goes => ⟨goes.1.imp onward, .chose made shown adds goes.2⟩).widen
        (Scope.within_call _)

/-! ## The start -/

/-- The call waits for operands that are missing, with new placeholders. -/
def Gathers (world : EngineWorld) (call : Call) (missing : List CellId) (next : EngineWorld) : Prop :=
  Async.World.WaitsEach (.arrive world.store.latches.length) missing
    ((world.makeMany indirect call.count).latch ⟨missing.length, .operands call (places world call.count)⟩) next

namespace Gathers

variable {missing : List CellId}

/-- A call that gathers its operands has one stage ahead. -/
theorem turned (gathers : Gathers world call missing next) (lacking : missing ≠ []) :
    Turned call.number world [] 1 next := by
  have notices : World.notices next = World.notices world :=
    (notices_waitsEach gathers).trans (notices_makeMany world indirect call.count)
  have closed : missing.length ≠ 0 := fun empty => lacking (List.length_eq_zero_iff.1 empty)
  have turns (number : Nat) : (stages number).store next.store =
      (Stage.operands call (places world call.count)).turns number + (stages number).store world.store := by
    have latched := (stages number).store_makeLatch (world.makeMany indirect call.count).store
      ⟨missing.length, .operands call (places world call.count)⟩
    rw [Async.Measure.latch, if_neg closed, world.measure_makeMany (stages number) rfl] at latched
    have each (serial : Nat) (home : CellId) :
        (stages number).waiter ⟨serial, home, .arrive world.store.latches.length⟩ = 0 := rfl
    rw [gathers.measure (stages number) each, Async.World.latch, latched, Nat.mul_zero, Nat.zero_add]
    rfl
  refine ⟨?_, World.executions_congr notices _, ?_, fun different => ⟨World.executions_congr notices _, ?_⟩⟩
  · rw [gathers.outer]
    exact congrArg State.calls (world.outer_makeMany ..)
  · rw [turns, Stage.turns_of_call rfl]
  · rw [turns, Stage.turns_of_other rfl different, Nat.zero_add]

/-- Cells show what they showed before. -/
theorem state (gathers : Gathers world call missing next) (ready : Ready world) (cell : CellId) :
    next.store.state cell = world.store.state cell := by
  have placed : Async.Grows world (world.makeMany indirect call.count) := world.grows_makeMany rfl rfl call.count
  have latched := Async.World.state_latch (world.makeMany indirect call.count)
    ⟨missing.length, .operands call (places world call.count)⟩ cell
  exact (Async.World.WaitsEach.state gathers ((placed.sound ready.sound).of_cells_eq rfl) cell).trans
    (latched.trans (Async.World.state_makeMany ready.sound rfl rfl rfl call.count cell))

/-- The operand stage is held back by the latch that the operands arrive at. -/
theorem pending (gathers : Gathers world call missing next) (ready : Ready world)
    (lacks : missing = call.operands.filter fun id => !world.store.isAvailable id) (lacking : missing ≠ [])
    {duties : List EngineDuty} (latched : Async.Moment.Latched ⟨duties, next⟩) :
    Pending ⟨duties, next⟩ call (places world call.count) := by
  have found : next.store.latches[world.store.latches.length]? =
      some ⟨missing.length, .operands call (places world call.count)⟩ := by
    obtain ⟨more, grown⟩ := gathers.grows.latches
    simp [grown, Async.World.latch, Async.Store.makeLatch, world.latches_makeMany]
  have misses : next.store.missing world.store.latches.length = missing.length := by
    unfold Async.Store.missing
    rw [found]
    rfl
  obtain ⟨fewer, counted⟩ := Nat.exists_eq_succ_of_ne_zero fun none => lacking (List.length_eq_zero_iff.1 none)
  rw [counted] at found
  refine .gathers found (fun operand member => ?_) fun waiter member kind => ?_
  · by_cases shown : (world.store.state operand).isSome
    · exact .inl (gathers.state ready operand ▸ shown)
    · refine .inr (gathers.mem_outstanding duties (lacks ▸ List.mem_filter.2 ⟨member, ?_⟩))
      simpa [Async.Store.isAvailable] using shown
  · have among := gathers.home_mem latched misses member kind
    rw [lacks] at among
    exact (List.mem_filter.1 among).1

end Gathers

/-- A call whose operands are not all there waits for those that are missing. -/
theorem gather_ends (later : Later) (react : List CellId → Run Unit) (ready : Ready world) (fits : call.Fits world.store.cells.size)
    (lacks : ¬ call.operands.all world.store.isAvailable = true) :
    (placeholders call.count >>= fun results =>
        Async.whenAll later.fire call.operands (.operands call results) (react results) >>= fun _ =>
          pure results).Ends world
      (Comes .call world (call.operands.length + (call.count + 3)) call.count fun moment cells =>
        (moment.Latched → Reaches moment call cells) ∧ Spends True world call moment.world) never := by
  have placed : Async.Grows world (world.makeMany indirect call.count) := world.grows_makeMany rfl rfl call.count
  have available : (world.makeMany indirect call.count).store.isAvailable = world.store.isAvailable := by
    funext cell
    exact congrArg Option.isSome (Async.World.state_makeMany ready.sound rfl rfl rfl call.count cell)
  have inside (operand : CellId) (member : operand ∈ call.operands) :
      operand < (world.makeMany indirect call.count).store.cells.size := by
    rw [Async.World.size_makeMany]
    exact Nat.lt_of_lt_of_le (fits.operands operand member) (Nat.le_add_right _ _)
  let missing := call.operands.filter fun id => !world.store.isAvailable id
  have chosen : call.operands.filter (fun id => !(world.makeMany indirect call.count).store.isAvailable id) = missing := by
    rw [available]
  have lacking : missing ≠ [] := by
    intro empty
    refine lacks (List.all_eq_true.2 fun operand member => ?_)
    simpa using List.filter_eq_nil_iff.1 empty operand member
  obtain ⟨next, waited, waits⟩ := Async.whenAll_waits later.fire (.operands call (places world call.count))
    (react (places world call.count)) (placed.sound ready.sound) inside chosen lacking
  rw [world.latches_makeMany] at waits
  have gathers : Gathers world call missing next := waits
  have adds : Adds .call world (missing.length + (call.count + 3)) next :=
    .single (.gather trivial trivial lacking fits waits)
  have fewer : missing.length ≤ call.operands.length := List.length_filter_le _ _
  refine .after (placeholders_apply call.count world) (.after waited (.pure _ ?_))
  refine ⟨adds.mono (by omega), List.length_range', places_fresh waits.grows.size_le, fun duties =>
    ⟨fun latched => .pending (gathers.pending ready rfl lacking latched), .waits (gathers.turned lacking) fun _ => ?_⟩⟩
  obtain ⟨operand, member⟩ := List.exists_mem_of_ne_nil missing lacking
  obtain ⟨among, unavailable⟩ := List.mem_filter.1 member
  refine Pipeline.kernel_of_operand_unknown among ((gathers.state ready operand).trans ?_)
  simpa [Async.Store.isAvailable] using unavailable

theorem start_ends {dispatcher : Dispatcher} {handle : CellId} {operands : List CellId} {count : Nat}
    (ready : Ready world)
    (fits : Call.Fits world.store.cells.size ⟨world.outer.calls, dispatcher, handle, operands, count⟩) :
    (start setup (within setup (depth + 1)) dispatcher handle operands count).Ends world
      (Comes .call world (operands.length + (count + 3)) count fun moment cells =>
        ((moment.Latched → Reaches moment ⟨world.outer.calls, dispatcher, handle, operands, count⟩ cells) ∧
          Spends True { world with outer := { world.outer with calls := world.outer.calls + 1 } }
            ⟨world.outer.calls, dispatcher, handle, operands, count⟩ moment.world) ∧
        (operands.all world.store.isAvailable = true →
          Began { world with outer := { world.outer with calls := world.outer.calls + 1 } }
            ⟨world.outer.calls, dispatcher, handle, operands, count⟩ moment.world))
      (fun cause next => next = { world with outer := { world.outer with calls := world.outer.calls + 1 } } ∧
        operands.all world.store.isAvailable = true ∧ dispatcher.marshaler.views
          (operands.map fun cell => look Payload.value? (world.store.state cell)) = .error cause) := by
  let call : Call := ⟨world.outer.calls, dispatcher, handle, operands, count⟩
  let between : EngineWorld := { world with outer := { world.outer with calls := world.outer.calls + 1 } }
  have numbered : Adds .call world 0 between := .single (.own rfl rfl rfl (.inl trivial))
  have readyBetween := numbered.ready ready
  have began : start setup (within setup (depth + 1)) dispatcher handle operands count world =
      (if operands.all world.store.isAvailable then withOperands setup (within setup (depth + 1)) call
      else placeholders count >>= fun results =>
        Async.whenAll (within setup (depth + 1)).fire operands (.operands call results)
          (react setup (within setup (depth + 1)) (.operands call results) none) >>= fun _ =>
            pure results) between := rfl
  unfold Act.Ends
  rw [began]
  change Act.Ends _ between _ _
  by_cases available : operands.all world.store.isAvailable
  · rw [if_pos available]
    refine (withOperands_ends setup depth readyBetween fits [] none).mono (fun cells next comes => ?_) ?_
    · have told : Told between (.operands call []) none := .operands (List.all_eq_true.1 available)
      have enough : call.count + 2 ≤ operands.length + (count + 3) := by
        change count + 2 ≤ _
        omega
      exact (comes.onward numbered).mono enough fun _ duties came =>
        ⟨⟨fun _ => came.1.reaches told, came.1.spends.imp fun _ => told⟩, fun _ => came.2⟩
    · rintro cause next ⟨rfl, made⟩
      exact ⟨rfl, available, made⟩
  · rw [if_neg available]
    have ends := gather_ends (within setup (depth + 1))
      (fun results => react setup (within setup (depth + 1)) (.operands call results) none) readyBetween fits available
    refine ends.mono (fun cells next comes => ?_) (fun _ _ => False.elim)
    exact (comes.onward numbered).mono (Nat.le_refl _) fun _ _ came => ⟨came, fun all => absurd all available⟩

end DeferredJit.Engine
