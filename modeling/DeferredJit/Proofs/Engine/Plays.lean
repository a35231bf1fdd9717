import DeferredJit.Proofs.Engine.Deliveries
import DeferredJit.Proofs.Engine.Score

/-! Commands that an engine is given one after the other, while its tasks run in any order. -/

set_option autoImplicit false

namespace DeferredJit.Engine

open Async (CellId Moment Steps)

/-! ## Plays -/

/-- The cells that have come of commands, in their order. -/
structure Yield where
  /-- Those of compilations. -/
  handles : List CellId := []
  /-- Those of values that were brought and of results of calls. -/
  values : List CellId := []

/-- Commands are given one after the other. Tasks run in between, and before and after, in any order, or as
soon as they are enqueued if the engine is set up so. The operands of calls are there, and nothing panics. -/
inductive Plays (setup : Setup) : List Command → Yield → EngineWorld → Prop where
  | start : Plays setup [] {} initial
  | task {commands yield world place job next} : Plays setup commands yield world →
      runAt setup place world = (.ok (some job), next) → Plays setup commands yield next
  | compile {commands yield world request cell next} : Plays setup commands yield world →
      compileRequest setup request world = (.ok cell, next) →
      Plays setup (commands ++ [.compile request]) { yield with handles := yield.handles ++ [cell] } next
  | give {commands yield world outcome cell next} : Plays setup commands yield world →
      Async.makeSettled (outcome.map .value) world = (.ok cell, next) →
      Plays setup (commands ++ [.give outcome]) { yield with values := yield.values ++ [cell] } next
  | execute {commands yield world handle operands count target sources cells next} : Plays setup commands yield world →
      yield.handles[handle]? = some target →
      List.Forall₂ (fun place source => yield.values[place]? = some source) operands sources →
      sources.all world.store.isAvailable = true →
      call setup setup.dispatcher target sources count world = (.ok cells, next) →
      Plays setup (commands ++ [.execute handle operands count]) { yield with values := yield.values ++ cells } next

/-! ## What is kept -/

/-- Entries of the cache have been asked for, and get what the compiler makes of the request. -/
def Enrolled (setup : Setup) (asks : CacheKey → Request → Prop) (moment : EngineMoment) : Prop :=
  ∀ entry ∈ moment.world.outer.cache.entries, ∃ request, asks entry.1 request ∧
    Served (compiling setup entry.1 entry.2 request) moment entry.2

/-- What is kept while nobody interferes. -/
structure Kept (setup : Setup) (asks : CacheKey → Request → Prop) (moment : EngineMoment) : Prop where
  steady : Steady moment
  ledger : Ledger asks moment
  enrolled : Enrolled setup asks moment
  fitted : Fitted moment
  generics : Generics moment.world
  tasked : Tasked moment

theorem Ledger.mono {asks more : CacheKey → Request → Prop} {moment : EngineMoment} (ledger : Ledger asks moment)
    (implied : ∀ key request, asks key request → more key request) : Ledger more moment where
  served := ledger.served
  keys := ledger.keys
  cells := ledger.cells
  jobs entry member job due := by
    obtain ⟨request, same, asked⟩ := ledger.jobs entry member job due
    exact ⟨request, same, implied _ _ asked⟩
  entered := ledger.entered
  waiting := ledger.waiting
  compiled entry member idle := by
    obtain ⟨request, asked, compiled⟩ := ledger.compiled entry member idle
    exact ⟨request, implied _ _ asked, compiled⟩
  unknown := ledger.unknown

section Steps

variable {setup : Setup} {rules : Rules} {before after : EngineMoment}

theorem Enrolled.step (enrolled : Enrolled setup rules.asks before) (fit : Fit before) (aloof : rules.Aloof)
    (closed : ¬ rules.caches) (step : Step setup rules before after) : Enrolled setup rules.asks after := by
  have served {entry : CacheKey × CellId} (member : entry ∈ before.world.outer.cache.entries) : ∃ request,
      rules.asks entry.1 request ∧ Served (compiling setup entry.1 entry.2 request) after entry.2 := by
    obtain ⟨request, asked, served⟩ := enrolled entry member
    exact ⟨request, asked, served.step (compiling_sound setup ..) fit (aloof.untouched _ _) step⟩
  intro entry member
  cases step with
  | routine step =>
    rw [Fit.outer_routine step] at member
    exact served member
  | stage ran =>
    have proceeds := fit.proceeds ran
    exact served (proceeds.adds.entries ▸ member)
  | grow adds => exact served (adds.entries ▸ member)
  | take found ran =>
    have adds := (fit.prepares found ran).1
    rw [show _ = _ from adds.entries, World.outer_taken] at member
    exact served member
  | @enter key compilation world missing allowed =>
    rcases List.mem_append.1 member with old | new
    · exact served old
    · obtain ⟨request, rfl, asked⟩ := allowed.resolve_left closed
      cases List.mem_singleton.1 new
      exact ⟨request, asked, (served_enter fit key (.request request) rfl).1⟩
  | _ => exact served member

theorem Kept.step (kept : Kept setup rules.asks before) (aloof : rules.Aloof) (closed : ¬ rules.caches)
    (step : Step setup rules before after) : Kept setup rules.asks after where
  steady := kept.steady.step aloof.polite step
  ledger := kept.ledger.step kept.steady.fit ⟨fun _ => aloof.untouched _ _, closed⟩ step
  enrolled := kept.enrolled.step kept.steady.fit aloof closed step
  fitted := kept.fitted.step kept.steady.fit aloof.reserved step
  generics := kept.generics.step kept.steady.fit step
  tasked := kept.tasked.step kept.steady.fit aloof step

end Steps

theorem Kept.mono {setup : Setup} {asks more : CacheKey → Request → Prop} {moment : EngineMoment}
    (kept : Kept setup asks moment) (implied : ∀ key request, asks key request → more key request) :
    Kept setup more moment where
  steady := kept.steady
  ledger := kept.ledger.mono implied
  enrolled entry member := by
    obtain ⟨request, asked, served⟩ := kept.enrolled entry member
    exact ⟨request, implied _ _ asked, served⟩
  fitted := kept.fitted
  generics := kept.generics
  tasked := kept.tasked

theorem kept_initial (setup : Setup) (asks : CacheKey → Request → Prop) : Kept setup asks ⟨[], initial⟩ where
  steady := steady_initial
  ledger := ledger_initial asks
  enrolled _ member := by cases member
  fitted := fitted_initial
  generics := .start
  tasked := .start

/-! ## The chronicle -/

/-- What is known of the cells of commands, and which turns calls have at the handles in cells, in their order. -/
inductive Chronicle (setup : Setup) (moment : EngineMoment) :
    List Command → Yield → List (CellId × List Memref) → Prop where
  | start : Chronicle setup moment [] {} []
  | rejected {commands yield turns request fault cell} : Chronicle setup moment commands yield turns →
      request.validate = .error fault → moment.world.store.Holds cell (.error fault.failure) →
      Chronicle setup moment (commands ++ [.compile request]) { yield with handles := yield.handles ++ [cell] } turns
  | compiled {commands yield turns request cell} : Chronicle setup moment commands yield turns →
      request.validate = .ok () →
      (request.key setup.config.keyPolicy, cell) ∈ moment.world.outer.cache.entries →
      Chronicle setup moment (commands ++ [.compile request]) { yield with handles := yield.handles ++ [cell] } turns
  | given {commands yield turns outcome cell} : Chronicle setup moment commands yield turns →
      moment.world.store.Holds cell (outcome.map .value) →
      Chronicle setup moment (commands ++ [.give outcome]) { yield with values := yield.values ++ [cell] } turns
  | called {commands yield turns handle operands count target sources cells number viewed} :
      Chronicle setup moment commands yield turns → yield.handles[handle]? = some target →
      List.Forall₂ (fun place source => yield.values[place]? = some source) operands sources → cells.length = count →
      Pipeline.marshal ⟨number, setup.dispatcher, target, sources, count⟩ moment.world.store.state =
        Pipeline.known viewed →
      OnTheWay (AllInHand moment) moment ⟨number, setup.dispatcher, target, sources, count⟩ cells →
      Chronicle setup moment (commands ++ [.execute handle operands count])
        { yield with values := yield.values ++ cells } (turns ++ viewed.toOption.toList.map fun views => (target, views))

namespace Chronicle

variable {setup : Setup} {rules : Rules} {before after : EngineMoment} {commands : List Command} {yield : Yield}
  {turns : List (CellId × List Memref)}

theorem step (chronicle : Chronicle setup before commands yield turns) (kept : Kept setup rules.asks before)
    (aloof : rules.Aloof) (step : Step setup rules before after) : Chronicle setup after commands yield turns := by
  have fit := kept.steady.fit
  have keeps := step.keeps fit
  induction chronicle with
  | start => exact .start
  | rejected _ invalid held ih => exact .rejected ih invalid (held.later keeps)
  | compiled _ valid member ih =>
    obtain ⟨more, same⟩ := step.entries fit
    exact .compiled ih valid (same ▸ List.mem_append_left more member)
  | given _ held ih => exact .given ih (held.later keeps)
  | called _ handle operands length viewed under ih =>
    exact .called ih handle operands length (Pipeline.marshal_later (step.onward fit).shows viewed)
      (under.inHand kept.steady kept.tasked aloof step)

/-- Keys that were asked for have entries. -/
theorem known (chronicle : Chronicle setup before commands yield turns) {key : CacheKey}
    (asked : (firstAsked setup.config.keyPolicy commands key).isSome) :
    ∃ cell, (key, cell) ∈ before.world.outer.cache.entries := by
  induction chronicle with
  | start => cases asked
  | @rejected _ _ _ request fault _ _ invalid _ ih =>
    have silent : (Command.compile request).asked? setup.config.keyPolicy = none := by
      simp only [Command.asked?, Operation.asked?, invalid]
    exact ih (firstAsked_of_silent silent key ▸ asked)
  | @compiled commands _ _ request cell _ valid member ih =>
    have asks : (Command.compile request).asked? setup.config.keyPolicy =
        some (request.key setup.config.keyPolicy, request) := by simp only [Command.asked?, Operation.asked?, valid]
    by_cases same : key = request.key setup.config.keyPolicy
    · exact ⟨cell, same ▸ member⟩
    · exact ih (firstAsked_of_ne asks same ▸ asked)
  | given _ _ ih =>
    rw [firstAsked_of_silent rfl] at asked
    exact ih asked
  | called _ _ _ _ _ _ ih =>
    rw [firstAsked_of_silent rfl] at asked
    exact ih asked

/-- The handle of a call is in the cache, or its request was invalid. -/
theorem handle_known (chronicle : Chronicle setup before commands yield turns) {handle : Nat} {target : CellId}
    (found : yield.handles[handle]? = some target) :
    target ∈ before.world.outer.cache.entries.map Prod.snd ∨
      ∃ failure, before.world.store.Holds target (.error failure) := by
  have last {cells : List CellId} {cell : CellId} (found : (cells ++ [cell])[handle]? = some target) :
      cells[handle]? = some target ∨ cell = target := by
    rcases Nat.lt_or_ge handle cells.length with inside | beyond
    · exact .inl ((List.getElem?_append_left inside).symm.trans found)
    · rw [List.getElem?_append_right beyond] at found
      exact .inr (List.mem_singleton.1 (List.mem_of_getElem? found)).symm
  induction chronicle with
  | start => cases found
  | rejected _ _ held ih =>
    rcases last found with former | rfl
    · exact ih former
    · exact .inr ⟨_, held⟩
  | compiled _ _ member ih =>
    rcases last found with former | rfl
    · exact ih former
    · exact .inl (List.mem_map_of_mem member)
  | given _ _ ih => exact ih found
  | called _ _ _ _ _ _ ih => exact ih found

end Chronicle

theorem lt_size_of_state {store : EngineStore} {cell : CellId} {outcome : Outcome Payload}
    (shown : store.state cell = some outcome) : cell < store.cells.size := by
  by_contra beyond
  have missing : store.cell? cell = none := by simpa [Async.Store.cell?] using beyond
  have ended : store.link? cell = none := by simp [Async.Store.link?, missing]
  unfold Async.Store.state at shown
  rw [Async.Store.last_of_link?_eq_none ended, missing] at shown
  cases shown

/-- The request is the first valid one for the key. -/
def Setup.Asked (setup : Setup) (commands : List Command) (key : CacheKey) (request : Request) : Prop :=
  firstAsked setup.config.keyPolicy commands key = some request

theorem Setup.Asked.later {setup : Setup} {commands : List Command} (more : List Command) {key : CacheKey}
    {request : Request} (asked : setup.Asked commands key request) : setup.Asked (commands ++ more) key request := by
  unfold Setup.Asked firstAsked at asked ⊢
  rw [List.filterMap_append, List.lookup_append, asked]
  rfl

/-- What is known between commands and tasks. -/
structure Recorded (setup : Setup) (moment : EngineMoment) (commands : List Command) (yield : Yield)
    (turns : List (CellId × List Memref)) : Prop where
  kept : Kept setup (setup.Asked commands) moment
  queues : Queues (turnsAt turns) moment
  chronicle : Chronicle setup moment commands yield turns

section Commands

variable {setup : Setup} {commands : List Command} {yield : Yield} {turns : List (CellId × List Memref)}
  {before after : EngineMoment} {world next : EngineWorld}

/-- Tasks and compilations, which may be asked for by the next command. -/
theorem Recorded.steps (recorded : Recorded setup before commands yield turns) (more : List Command)
    (steps : Steps (Step setup (.closed (setup.Asked (commands ++ more)))) before after) :
    Kept setup (setup.Asked (commands ++ more)) after ∧ Queues (turnsAt turns) after ∧
      Chronicle setup after commands yield turns := by
  have aloof := Rules.aloof_closed (setup.Asked (commands ++ more))
  induction steps with
  | refl => exact ⟨recorded.kept.mono fun _ _ => .later more, recorded.queues, recorded.chronicle⟩
  | tail _ step ih =>
    obtain ⟨kept, queues, chronicle⟩ := ih
    exact ⟨kept.step aloof id step, queues.step kept.steady.fit kept.ledger step, chronicle.step kept aloof step⟩

theorem Recorded.task (recorded : Recorded setup ⟨[], world⟩ commands yield turns) {place : Nat} {job : Option Job}
    (ran : runAt setup place world = (.ok job, next)) : Recorded setup ⟨[], next⟩ commands yield turns := by
  have performs : Performs setup (.closed (setup.Asked (commands ++ []))) world (runAt setup place) :=
    runAt_performs recorded.kept.steady.fit place
  unfold Performs Act.Returns at performs
  rw [ran] at performs
  obtain ⟨kept, queues, chronicle⟩ := recorded.steps [] (performs (.inr ⟨job, rfl⟩)).2
  rw [List.append_nil] at kept
  exact ⟨kept, queues, chronicle⟩

theorem Recorded.give (recorded : Recorded setup ⟨[], world⟩ commands yield turns) {outcome : Outcome KernelValue}
    {cell : CellId} (ran : (Async.makeSettled (outcome.map .value) : Run CellId) world = (.ok cell, next)) :
    Recorded setup ⟨[], next⟩ (commands ++ [.give outcome]) { yield with values := yield.values ++ [cell] } turns := by
  rw [makeSettled_apply] at ran
  cases ran
  have valid : ∀ given, some (outcome.map Payload.value) = some given →
      Outcome.Valid world.outer.handles.length given := by
    rintro _ ⟨⟩ payload same
    cases outcome with
    | error => cases same
    | ok => cases same; trivial
  have made : Addition .plain world 0 (world.make { outcome := some (outcome.map .value) }) := .make rfl rfl valid
  obtain ⟨kept, queues, chronicle⟩ := recorded.steps [.give outcome] (.single (.plain made))
  exact ⟨kept, queues, .given chronicle (Async.Store.holds_make world.store _)⟩

theorem Recorded.compile (recorded : Recorded setup ⟨[], world⟩ commands yield turns) {request : Request}
    {cell : CellId} (ran : compileRequest setup request world = (.ok cell, next)) :
    Recorded setup ⟨[], next⟩ (commands ++ [.compile request])
      { yield with handles := yield.handles ++ [cell] } turns := by
  have fit := recorded.kept.steady.fit
  have performs : Performs setup (.closed (setup.Asked (commands ++ [.compile request]))) world
      (compileRequest setup request) := by
    refine compileRequest_performs fun valid missing => ?_
    -- Nobody has asked for a key that the cache does not know.
    have first : firstAsked setup.config.keyPolicy commands (request.key setup.config.keyPolicy) = none := by
      by_contra asked
      obtain ⟨cell, member⟩ := recorded.chronicle.known (Option.isSome_iff_ne_none.2 asked)
      have apart := List.lookup_eq_none_iff.1 missing _ member
      simp at apart
    change firstAsked _ _ _ = some request
    refine (firstAsked_concat ?_).trans (by rw [first]; rfl)
    simp only [Command.asked?, Operation.asked?, valid]
  have returned : (compileRequest setup request).Returns world := ⟨cell, by rw [ran]⟩
  obtain ⟨-, steps⟩ := performs (.inr returned)
  rw [ran] at steps
  obtain ⟨kept, queues, chronicle⟩ := recorded.steps [.compile request] steps
  refine ⟨kept, queues, ?_⟩
  cases valid : request.validate with
  | error fault =>
    unfold compileRequest at ran
    rw [valid] at ran
    cases ran
    exact .rejected chronicle valid (Async.Store.holds_make world.store _)
  | ok =>
    obtain ⟨_, _, same, found⟩ := compileRequest_returns setup (.closed (setup.Asked commands)) fit valid
    cases ran.symm.trans same
    exact .compiled chronicle valid (Ledger.mem_of_lookup found)

/-- A call is on its way from the start, and has a turn at its handle if its operands can be passed. -/
theorem Recorded.execute (recorded : Recorded setup ⟨[], world⟩ commands yield turns)
    (defaults : setup.dispatcher.conversions = Conversion.defaults) {handle count : Nat} {operands : List Nat}
    {target : CellId} {sources cells : List CellId} (found : yield.handles[handle]? = some target)
    (read : List.Forall₂ (fun place source => yield.values[place]? = some source) operands sources)
    (available : sources.all world.store.isAvailable = true)
    (ran : Engine.call setup setup.dispatcher target sources count world = (.ok cells, next)) :
    ∃ more, Recorded setup ⟨[], next⟩ (commands ++ [.execute handle operands count])
      { yield with values := yield.values ++ cells } (turns ++ more) := by
  let asks := setup.Asked (commands ++ [.execute handle operands count])
  let rules : Rules := { Rules.closed asks with calls := True }
  have aloof : rules.Aloof := ⟨id, fun _ _ => id⟩
  have steady := recorded.kept.steady
  have sound := steady.fit.orderly.sound
  have kept : Kept setup rules.asks ⟨[], world⟩ := recorded.kept.mono fun _ _ => .later _
  have handled := recorded.chronicle.handle_known found
  have inside : target < world.store.cells.size := by
    rcases handled with among | ⟨failure, held⟩
    · obtain ⟨entry, member, rfl⟩ := List.mem_map.1 among
      exact steady.fit.tidy.entries entry member
    · exact lt_size_of_state (held.state_eq sound)
  have fits : Call.Fits world.store.cells.size ⟨world.outer.calls, setup.dispatcher, target, sources, count⟩ := by
    refine ⟨inside, fun source member => ?_, fun conversion member => ?_⟩
    · obtain ⟨outcome, shown⟩ := Option.isSome_iff_exists.1 (List.all_eq_true.1 available source member)
      exact lt_size_of_state shown
    · exact (Conversion.Sane.defaults conversion (defaults ▸ member)).later (Nat.zero_le _)
  -- As deep as the call and all that waits may lead.
  let depth := world.store.weight Stage.weight + (sources.length + (count + 3))
  have comes := (start_ends setup depth steady.fit.ready fits).holds ran
  have grown : Step setup rules ⟨[], world⟩ ⟨[], next⟩ :=
    .grow comes.adds (.inl trivial) ((comes.holds []).1.2.begun rfl)
  have keptAfter := kept.step aloof id grown
  have chronicle := recorded.chronicle.step kept aloof grown
  have began := (comes.holds []).2 available
  obtain ⟨viewed, made⟩ : ∃ viewed, setup.dispatcher.marshaler.views
      (sources.map fun cell => look Payload.value? (world.store.state cell)) = .ok viewed := by
    cases began with
    | failed made => exact ⟨_, made⟩
    | waits made => exact ⟨_, made⟩
    | chose made => exact ⟨_, made⟩
  -- All operands are there, so the marshaler has its say at once.
  have marshaled : Pipeline.marshal ⟨world.outer.calls, setup.dispatcher, target, sources, count⟩ world.store.state =
      Pipeline.known viewed := by
    unfold Pipeline.marshal
    refine (if_pos available).trans ?_
    simp only [made]
  refine ⟨viewed.toOption.toList.map fun views => (target, views), keptAfter, ?_, ?_⟩
  · have turns (cell : CellId) : turnsAt (turns ++ viewed.toOption.toList.map fun views => (target, views)) cell =
        turnsAt turns cell ++ if target = cell then viewed.toOption.toList else [] := by
      rw [turnsAt_append, turnsAt_map]
    rw [funext turns]
    refine recorded.queues.began steady.fit began fits made ?_
    exact handled.imp_right fun ⟨failure, held⟩ => ⟨failure, held.state_eq sound⟩
  · refine .called chronicle found read comes.length
      (Pipeline.marshal_later (grown.onward steady.fit).shows marshaled) ?_
    exact .here_of (((comes.holds []).1.1 keptAfter.steady.latched).mono fun _ _ delivers =>
      delivers.inHand keptAfter.steady keptAfter.tasked)

theorem Queues.start : Queues (turnsAt []) ⟨[], initial⟩ where
  standing _ member := by cases member
  apart _ member := by cases member
  direct := {
    waiting := fun _ member => by cases member
    latched := fun _ member => by cases member
    asked := fun _ _ member => by cases member }
  unborn _ _ := rfl

theorem recorded_initial (setup : Setup) : Recorded setup ⟨[], initial⟩ [] {} [] where
  kept := kept_initial setup _
  queues := .start
  chronicle := .start

/-- A record of the whole play. -/
theorem Plays.recorded (play : Plays setup commands yield world)
    (defaults : setup.dispatcher.conversions = Conversion.defaults) :
    ∃ turns, Recorded setup ⟨[], world⟩ commands yield turns := by
  induction play with
  | start => exact ⟨[], recorded_initial setup⟩
  | task _ ran ih =>
    obtain ⟨turns, recorded⟩ := ih
    exact ⟨turns, recorded.task ran⟩
  | compile _ ran ih =>
    obtain ⟨turns, recorded⟩ := ih
    exact ⟨turns, recorded.compile ran⟩
  | give _ ran ih =>
    obtain ⟨turns, recorded⟩ := ih
    exact ⟨turns, recorded.give ran⟩
  | execute _ found read available ran ih =>
    obtain ⟨turns, recorded⟩ := ih
    obtain ⟨more, after⟩ := recorded.execute defaults found read available ran
    exact ⟨turns ++ more, after⟩

end Commands

end DeferredJit.Engine
