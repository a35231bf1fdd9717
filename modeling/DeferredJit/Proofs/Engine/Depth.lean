import DeferredJit.Proofs.Engine.Upkeep

/-! Everything an engine does is made of steps, and never runs out of depth. -/

set_option autoImplicit false

namespace DeferredJit.Engine

open Async (CellId Moment Steps Regime)

variable {setup : Setup} {rules : Rules} {depth : Nat} {rest : List EngineDuty} {world : EngineWorld}

/-- A stage makes use of one level of its own. -/
def regime (setup : Setup) (rules : Rules) : Regime Payload Stage Notice State where
  Step := Step setup rules
  Fit := Fit
  mayPanic := rules.panics
  weight := Stage.weight
  spare := 1
  fit step fit := fit.step step
  routine _ step := .routine step
  dear stage := by cases stage <;> simp [Stage.weight]

/-- Placeholders are linked one after the other. -/
theorem forwardAll_does {later : Later} (fires : (regime setup rules).Fires depth later.fire)
    (sources targets : List CellId) (fit : Fit ⟨linkAll sources targets ++ rest, world⟩) :
    (regime setup rules).Does depth 0 (linkAll sources targets) (forwardAll later sources targets) rest world := by
  have abandon {pair : CellId × CellId} {rest : List EngineDuty} {world : EngineWorld} (allowed : rules.panics) :
      Step setup rules ⟨.link pair.1 pair.2 :: rest, world⟩ ⟨rest, world⟩ := .routine (.abandon allowed)
  refine Regime.each_does ?_ (fun _ _ _ allowed _ => abandon allowed) _ fit
  intro pair rest world fit
  refine (Regime.forward_does [_] fires fit ?_ ?_).discard
  · intro waiters store linked
    have inside := (fit.links _ _ List.mem_cons_self).1
    exact .single (.routine (.link inside linked))
  · intro fault refused
    exact .single (.routine (.bar refused))

/-- Continuations do what they are to do. -/
theorem react_answers (fires : (regime setup rules).Fires depth (Later.fire (within setup depth))) :
    (regime setup rules).Answers depth (react setup (within setup depth)) := by
  intro stage seen rest world fit
  cases depth with
  | zero =>
    -- There is always a level to spare.
    intro enough
    change _ + 1 ≤ 0 at enough
    omega
  | succ depth =>
    have fits : stage.Fits world.store := fit.carried.asked _ _ List.mem_cons_self
    have ends := proceed_ends setup depth fit.ready fits seen
    have same : react setup (within setup (depth + 1)) stage seen world =
        (proceed setup (within setup (depth + 1)) stage seen >>= fun produced =>
          forwardAll (within setup (depth + 1)) stage.results produced) world := by
      rw [react_eq]
    rcases ran : proceed setup (within setup (depth + 1)) stage seen world with ⟨(cause | _) | produced, next⟩
    · have unchanged : next = world := ends.fails ran
      subst unchanged
      exact .of_panic (same.trans (Act.bind_error ran)) (fun allowed => .single (.falter allowed)) (by simp)
    · exact absurd (by rw [ran]) ends.not_exhausted
    · have step : Step setup rules ⟨.answer stage seen :: rest, world⟩
          ⟨linkAll stage.results produced ++ rest, next⟩ := .stage ran
      have weighs := (ends.holds ran).adds.weight_le
      have links : (regime setup rules).tariff.duties (linkAll stage.results produced) = 0 :=
        duties_linkAll _ _ fun _ _ => rfl
      have does := forwardAll_does fires stage.results produced (fit.step step)
      refine .after_steps _ 0 0 (.single step) (same.trans (Act.bind_ok ran)) ?_ does
      rw [← Async.tariff_store, ← Async.tariff_store] at weighs
      change (regime setup rules).tariff.store next.store ≤
        stage.weight - 1 + (regime setup rules).tariff.store world.store at weighs
      rw [links]
      simp only [Async.Measure.duties_cons, Async.Measure.duties_nil, Regime.duty_answer]
      change _ ≤ stage.weight - 1 + 0 + 0 + _
      omega

/-- Waiters run, as deep as it takes. -/
theorem within_fires (depth : Nat) : (regime setup rules).Fires depth (Later.fire (within setup depth)) := by
  induction depth with
  | zero =>
    intro waiter rest world fit enough
    change _ + 1 ≤ 0 at enough
    omega
  | succ depth ih =>
    intro waiter rest world fit
    exact Regime.run_does ih (react_answers ih) fit

/-! ## Operations from outside -/

/-- The action is made of steps, as far as it may panic or does not. -/
def Performs (setup : Setup) (rules : Rules) {result : Type} (world : EngineWorld) (action : Run result) : Prop :=
  rules.panics ∨ action.Returns world →
    (action world).1 ≠ .error .exhausted ∧ Steps (Step setup rules) ⟨[], world⟩ ⟨[], (action world).2⟩

namespace Performs

variable {result : Type}

theorem of_eq {action other : Run result} (performs : Performs setup rules world other)
    (same : action world = other world) : Performs setup rules world action := by
  unfold Performs Act.Returns at *
  rw [same]
  exact performs

/-- Operations start with as much depth as they can use. -/
theorem roomy {room : Nat} {operation : Later → Run result}
    (does : ∀ depth, (regime setup rules).Does depth room [] (operation (within setup depth)) [] world) :
    Performs setup rules world (roomy setup room operation) := by
  intro calm
  let depth := world.store.weight Stage.weight + room + 1
  have stored : (regime setup rules).tariff.store world.store = world.store.weight Stage.weight :=
    Async.tariff_store Stage.weight world.store
  have enough : 0 + room + (regime setup rules).tariff.store world.store + 1 ≤ depth := by
    rw [stored]
    omega
  obtain ⟨deep, done⟩ := does depth enough calm
  exact ⟨deep, done.steps⟩

/-- What only adds is one step. -/
theorem grows {action : Run result} {post : result → EngineWorld → Prop} {fault : Panic → EngineWorld → Prop}
    (ends : action.Ends world post fault) (adds : ∀ value next, post value next →
      ∃ scope budget, Adds scope world budget next ∧ rules.Grants scope budget ∧ Begun world next)
    (panics : ∀ cause next, fault cause next →
      ∃ scope budget, Adds scope world budget next ∧ rules.Grants scope budget ∧ Begun world next) :
    Performs setup rules world action := by
  intro _
  refine ⟨ends.not_exhausted, ?_⟩
  rcases ran : action world with ⟨(cause | _) | value, next⟩
  · obtain ⟨scope, budget, adds, granted, begun⟩ := panics cause next (ends.fails ran)
    exact .single (.grow adds granted begun)
  · exact absurd (by rw [ran]) ends.not_exhausted
  · obtain ⟨scope, budget, adds, granted, begun⟩ := adds value next (ends.holds ran)
    exact .single (.grow adds granted begun)

/-- New cells and handles may always be made. -/
theorem grows_plain {action : Run result} {post : result → EngineWorld → Prop} (ends : action.Ends world post never)
    (adds : ∀ value next, post value next → Adds .plain world 0 next) : Performs setup rules world action :=
  grows ends (fun value next holds => ⟨_, _, adds value next holds, rules.grants_plain,
    .silent (adds value next holds).silent⟩) (fun _ _ => False.elim)

end Performs

theorem resolve_performs (fit : Fit ⟨[], world⟩) {id : CellId} {outcome : Outcome Payload}
    (allowed : rules.touches world id) (valid : Outcome.Valid world.outer.handles.length outcome) :
    Performs setup rules world (resolve setup id outcome) := by
  refine .roomy fun depth => Regime.resolve_does [] (within_fires depth) fit ?_ (fun _ => .refl)
  intro waiters store settled
  have inside : id < world.store.cells.size := by
    obtain ⟨cell, found, -⟩ := Async.Store.settle_eq_some_iff.1 settled
    exact Async.Store.lt_size_of_cell? found
  have given : Step setup rules ⟨[.give id outcome], world⟩ ⟨waiters.map .fire ++ [], { world with store }⟩ :=
    .routine (.give settled)
  exact .head (.settle allowed inside valid) (.single given)

theorem forward_performs (fit : Fit ⟨[], world⟩) {source target : CellId}
    (allowed : rules.touches world source) (inside : target < world.store.cells.size) :
    Performs setup rules world (forward setup source target) := by
  refine .roomy fun depth => Regime.forward_does [] (within_fires depth) fit ?_ (fun _ => .refl)
  intro waiters store linked
  obtain ⟨cell, found, kind, -, unsettled, free, -, -⟩ := Async.Store.linkTo_eq_ok_iff.1 linked
  have given : Step setup rules ⟨[.link source target], world⟩
      ⟨waiters.map (.hand target) ++ [], { world with store }⟩ := .routine (.link inside linked)
  exact .head (.link allowed ⟨cell, found, kind⟩ ⟨cell, found, unsettled, free⟩ inside) (.single given)

theorem observe_performs (fit : Fit ⟨[], world⟩) {id : CellId} (inside : id < world.store.cells.size)
    (panic : Option Panic) : Performs setup rules world (observe setup id panic) :=
  .roomy fun depth => Regime.register_does [] (within_fires depth) fit (.single (.observe inside))

theorem call_performs (fit : Fit ⟨[], world⟩) (granted : rules.calls) {dispatcher : Dispatcher} {handle : CellId}
    {operands : List CellId} {count : Nat}
    (fits : Call.Fits world.store.cells.size ⟨world.outer.calls, dispatcher, handle, operands, count⟩) :
    Performs setup rules world (call setup dispatcher handle operands count) := by
  let depth := world.store.weight Stage.weight + (operands.length + (count + 3))
  refine Performs.of_eq (.grows (start_ends setup depth fit.ready fits)
    (fun cells next comes => ⟨_, _, comes.adds, .inl granted, (comes.holds []).1.2.begun rfl⟩) ?_) rfl
  rintro cause next ⟨rfl, -, -⟩
  have silent := Silent.refl { world with outer := { world.outer with calls := world.outer.calls + 1 } }
  exact ⟨.call, 0, .single (.own rfl rfl rfl (.inl trivial)), .inl granted, .call (silent.turned _) (Nat.zero_le 1)⟩

theorem select_performs (granted : rules.calls) (id : HandleId) (views : List Memref) :
    Performs setup rules world (selectFor setup id views) := by
  let depth := world.store.weight Stage.weight + 0
  exact Performs.of_eq (.grows (select_ends setup depth id views)
    (fun _ _ selected => ⟨_, _, selected.adds, .inl granted, .silent selected.silent⟩) (fun _ _ => False.elim)) rfl

/-! ## Tasks and compilations -/

variable (rules) in
/-- A task that has left the queue gives its cell an outcome. -/
theorem job_steps (fit : Fit ⟨[], world⟩) {place : Nat} {job : Job}
    (found : world.outer.queue[place]? = some job) {reply : Except Interrupt Unit} {next : EngineWorld}
    (ran : roomy setup 0 (fun later => runJob setup later job) (World.withdraw world place) = (reply, next))
    (calm : rules.panics ∨ ∃ value, reply = .ok value) :
    reply ≠ .error .exhausted ∧ ∃ outcome between,
      prepared setup job (World.withdraw world place) = (.ok outcome, between) ∧
        Steps (Step setup rules) ⟨[.give job.target outcome], between⟩ ⟨[], next⟩ := by
  let depth := world.store.weight Stage.weight + 0
  have same : roomy setup 0 (fun later => runJob setup later job) (World.withdraw world place) =
      runJob setup (within setup (depth + 1)) job (World.withdraw world place) := rfl
  have withdrawn : job.Fits (World.withdraw world place) :=
    (fit.tidy.jobs job (List.mem_of_getElem? found)).later (.refl _) (Nat.le_refl _)
  have ends := prepared_ends setup withdrawn
  rw [same, runJob_eq] at ran
  rcases prepares : prepared setup job (World.withdraw world place) with ⟨(cause | _) | outcome, between⟩
  · exact (ends.fails prepares).elim
  · exact absurd (by rw [prepares]) ends.not_exhausted
  · rw [Act.bind_ok prepares] at ran
    have taken : Step setup rules ⟨[], world⟩ ⟨[.give job.target outcome], between⟩ := .take found prepares
    have fitBetween : Fit ⟨[.give job.target outcome], between⟩ := fit.step taken
    have does : (regime setup rules).Does (depth + 1) 0 [.give job.target outcome] _ [] between :=
      Regime.give_does (within_fires (depth + 1)) fitBetween
    have weighs := (ends.holds prepares).1.weight_le
    rw [World.store_noted, ← Async.tariff_store, ← Async.tariff_store] at weighs
    have stored : (Async.tariff (α := Payload) Stage.weight).store world.store = depth :=
      Async.tariff_store Stage.weight world.store
    obtain ⟨deep, done⟩ := does (by
      change 0 + 0 + (Async.tariff Stage.weight).store between.store + 1 ≤ depth + 1
      change _ ≤ 0 + (Async.tariff Stage.weight).store world.store at weighs
      omega) (by unfold Act.Returns; rwa [ran])
    rw [ran] at deep done
    exact ⟨deep, outcome, between, rfl, done.steps⟩

theorem runAt_vacant (setup : Setup) {place : Nat} (vacant : world.outer.queue[place]? = none) :
    runAt setup place world = (.ok none, world) := by
  have reads : current world = (.ok world.outer, world) := rfl
  unfold runAt
  rw [Act.bind_ok reads, vacant]
  rfl

theorem runAt_apply {place : Nat} {job : Job} (setup : Setup) (found : world.outer.queue[place]? = some job) :
    runAt setup place world = (roomy setup 0 (fun later => runJob setup later job) >>= fun _ =>
      pure (some job)) (World.withdraw world place) := by
  have reads : current world = (.ok world.outer, world) := rfl
  unfold runAt
  rw [Act.bind_ok reads, found]
  rfl

theorem runAt_performs (fit : Fit ⟨[], world⟩) (place : Nat) :
    Performs setup rules world (runAt setup place) := by
  intro calm
  cases found : world.outer.queue[place]? with
  | none =>
    rw [runAt_vacant setup found]
    exact ⟨by simp, .refl⟩
  | some job =>
    have same := runAt_apply setup found
    unfold Act.Returns at calm
    rw [same] at calm ⊢
    rcases ran : roomy setup 0 (fun later => runJob setup later job) (World.withdraw world place) with ⟨reply, next⟩
    cases reply with
    | error stop =>
      rw [Act.bind_error ran] at calm ⊢
      have allowed := calm.resolve_right (by rintro ⟨value, same⟩; cases same)
      obtain ⟨deep, outcome, between, prepares, steps⟩ := job_steps rules fit found ran (.inl allowed)
      exact ⟨by simpa using deep, .head (.take found prepares) steps⟩
    | ok value =>
      rw [Act.bind_ok ran]
      obtain ⟨-, outcome, between, prepares, steps⟩ :=
        job_steps rules fit found ran (.inr ⟨value, rfl⟩)
      exact ⟨by simp [Act.pure_apply], .head (.take found prepares) steps⟩

/-- The cells that there were are as they were. -/
def Untouched (before after : EngineWorld) : Prop :=
  ∀ ⦃id found⦄, before.store.cell? id = some found → after.store.cell? id = some found

theorem prepared_untouched (setup : Setup) (job : Job) (world : EngineWorld) :
    (prepared setup job).Ends world (fun _ next => Untouched world next) never := by
  have wrapped (world : EngineWorld) (mode : SpecializationMode) (limit : Nat) (made : Outcome Artifact) :
      (wrap mode limit made).Ends world (fun _ next => Untouched world next) never := by
    cases made with
    | error => exact .pure _ fun _ _ here => here
    | ok artifact =>
      refine .of_ok rfl fun id found here => ?_
      have inside := Async.Store.lt_size_of_cell? here
      exact (Async.Store.cell?_make world.store _ id).trans ((if_neg (Nat.ne_of_lt inside)).trans here)
  cases job with
  | compile key target compilation =>
    have compiled : (compile setup key compilation).Ends world (fun _ next => Untouched world next) never := by
      cases compilation with
      | request request => exact .after rfl (wrapped (world.log _) _ _ _)
      | given artifact => exact .after rfl (wrapped (world.log _) _ _ _)
    refine compiled.bind fun outcome next kept => ?_
    split
    · exact .of_ok rfl kept
    · exact .of_ok rfl kept
  | specialize => exact .of_ok rfl fun _ _ here => here
  | settle => exact .of_ok rfl fun _ _ here => here

/-- The cache counts a new entry before its compilation starts. -/
def World.counted (world : EngineWorld) (key : CacheKey) : EngineWorld :=
  let entered := World.enter world key none
  { entered with outer := { entered.outer with cache := entered.outer.cache.recordCompilation } }

theorem find_apply (world : EngineWorld) (key : CacheKey) :
    find key world = match world.outer.cache.lookup key with
      | none => (.ok none, world)
      | some cell => (.ok (some cell),
        { world with outer := { world.outer with cache := world.outer.cache.recordHit } }) := by
  unfold find
  change (match world.outer.cache.lookup key with
    | none => (pure none : Run (Option CellId))
    | some cell => _) world = _
  cases world.outer.cache.lookup key <;> rfl

theorem getOrCompile_hit {key : CacheKey} {cell : CellId} (setup : Setup) (compilation : Compilation)
    (found : world.outer.cache.lookup key = some cell) :
    getOrCompile setup key compilation world =
      (.ok cell, { world with outer := { world.outer with cache := world.outer.cache.recordHit } }) := by
  have ran := find_apply world key
  rw [found] at ran
  unfold getOrCompile
  rw [Act.bind_ok ran]
  rfl

theorem allocate_hit {key : CacheKey} {cell : CellId} (found : world.outer.cache.lookup key = some cell) :
    allocate key world =
      (.ok (cell, false), { world with outer := { world.outer with cache := world.outer.cache.recordHit } }) := by
  have ran := find_apply world key
  rw [found] at ran
  unfold allocate
  rw [Act.bind_ok ran]
  rfl

theorem allocate_miss {key : CacheKey} (missing : world.outer.cache.lookup key = none) :
    allocate key world = (.ok (world.store.cells.size, true), World.enter world key none) := by
  have ran := find_apply world key
  rw [missing] at ran
  unfold allocate
  rw [Act.bind_ok ran]
  simp only [World.enter, Option.map_none, Option.toList_none, List.append_nil]
  rfl

theorem getOrCompile_miss {key : CacheKey} (setup : Setup) (compilation : Compilation)
    (missing : world.outer.cache.lookup key = none) :
    getOrCompile setup key compilation world =
      (roomy setup 0 (fun later => enqueue setup later (.compile key world.store.cells.size compilation)) >>=
        fun _ => pure world.store.cells.size) (World.counted world key) := by
  have ran := find_apply world key
  rw [missing] at ran
  unfold getOrCompile
  rw [Act.bind_ok ran]
  change (allocate key >>= _) world = _
  rw [Act.bind_ok (allocate_miss missing)]
  rfl

/-- The same with the task in the queue. -/
def World.scheduled (world : EngineWorld) (key : CacheKey) (compilation : Compilation) : EngineWorld :=
  World.enqueue (World.counted world key) (.compile key world.store.cells.size compilation)

theorem scheduled_steps {key : CacheKey} {compilation : Compilation}
    (missing : world.outer.cache.lookup key = none)
    (allowed : rules.caches ∨ ∃ request, compilation = .request request ∧ rules.asks key request) :
    Steps (Step setup rules) ⟨[], world⟩ ⟨[], World.scheduled world key compilation⟩ := by
  have entered : Step setup rules ⟨[], world⟩ ⟨[], World.enter world key (some compilation)⟩ := by
    refine .enter missing (allowed.imp_right fun ⟨request, same, rest⟩ => ⟨request, by rw [same], rest⟩)
  have counted : Addition .plain (World.enter world key (some compilation)) 0
      (World.scheduled world key compilation) := by
    have same : World.scheduled world key compilation =
        { World.enter world key (some compilation) with outer :=
          { (World.enter world key (some compilation)).outer with
            cache := (World.enter world key (some compilation)).outer.cache.recordCompilation } } := by
      simp [World.scheduled, World.enqueue, World.counted, World.enter]
    rw [same]
    exact .own rfl rfl rfl (.inr rfl)
  exact .head entered (.single (.plain counted))

/-- The task that a new entry is compiled by is taken at once. -/
theorem withdraw_scheduled (world : EngineWorld) (key : CacheKey) (compilation : Compilation) :
    (World.scheduled world key compilation).outer.queue[world.outer.queue.length]? =
        some (.compile key world.store.cells.size compilation) ∧
      World.withdraw (World.scheduled world key compilation) world.outer.queue.length =
        World.counted world key := by
  constructor
  · simp [World.scheduled, World.enqueue, World.counted, World.enter]
  · simp only [World.scheduled, World.enqueue, World.counted, World.enter, World.withdraw, Option.map_none,
      Option.toList_none, List.append_nil]
    rw [List.eraseIdx_append_of_length_le (Nat.le_refl _)]
    simp

/-- A new entry is compiled at once: nobody can be waiting for its cell. -/
theorem compiled_at_once (setup : Setup) (rules : Rules) (later : Later) (world : EngineWorld)
    (key : CacheKey) (compilation : Compilation) :
    ∃ next, runJob setup later (.compile key world.store.cells.size compilation) (World.counted world key) =
        (.ok (), next) ∧
      Steps (Step setup rules) ⟨[], World.scheduled world key compilation⟩ ⟨[], next⟩ := by
  let job : Job := .compile key world.store.cells.size compilation
  have ends := prepared_untouched setup job (World.counted world key)
  rcases prepares : prepared setup job (World.counted world key) with ⟨(cause | _) | outcome, between⟩
  · exact (ends.fails prepares).elim
  · exact absurd (by rw [prepares]) ends.not_exhausted
  · have new : (World.counted world key).store.cell? world.store.cells.size = some {} :=
      (Async.Store.cell?_make world.store {} _).trans (if_pos rfl)
    have blank : between.store.cell? world.store.cells.size = some {} := ends.holds prepares new
    obtain ⟨store, settled⟩ : ∃ store, between.store.settle world.store.cells.size outcome = some ([], store) :=
      ⟨_, Async.Store.settle_eq_some_iff.2 ⟨{}, blank, rfl, rfl, rfl, rfl⟩⟩
    have given := Async.resolve_apply between later.fire world.store.cells.size outcome
    rw [settled] at given
    obtain ⟨found, withdrawn⟩ := withdraw_scheduled world key compilation
    have taken : Step setup rules ⟨[], World.scheduled world key compilation⟩
        ⟨[.give world.store.cells.size outcome], between⟩ := .take found (by rw [withdrawn]; exact prepares)
    have gave : Step setup rules ⟨[.give world.store.cells.size outcome], between⟩
        ⟨[], { between with store }⟩ := .routine (.give settled)
    refine ⟨{ between with store }, ?_, .head taken (.single gave)⟩
    rw [runJob_eq, Act.bind_ok prepares]
    exact Act.bind_ok given

/-- A new entry is made, with a task that may be done at once. -/
theorem getOrCompile_makes {key : CacheKey} (compilation : Compilation) (setup : Setup) (rules : Rules)
    (missing : world.outer.cache.lookup key = none) :
    ∃ next, getOrCompile setup key compilation world = (.ok world.store.cells.size, next) ∧
      Steps (Step setup rules) ⟨[], World.scheduled world key compilation⟩ ⟨[], next⟩ := by
  have same : ∃ next, roomy setup 0 (fun later => enqueue setup later
        (.compile key world.store.cells.size compilation)) (World.counted world key) = (.ok (), next) ∧
      Steps (Step setup rules) ⟨[], World.scheduled world key compilation⟩ ⟨[], next⟩ := by
    unfold enqueue
    cases setup.inline with
    | false => exact ⟨World.scheduled world key compilation, rfl, .refl⟩
    | true => exact compiled_at_once setup rules _ world key compilation
  obtain ⟨next, ran, steps⟩ := same
  refine ⟨next, ?_, steps⟩
  rw [getOrCompile_miss setup compilation missing, Act.bind_ok ran]
  rfl

theorem getOrCompile_performs {key : CacheKey} {compilation : Compilation}
    (allowed : world.outer.cache.lookup key = none →
      rules.caches ∨ ∃ request, compilation = .request request ∧ rules.asks key request) :
    Performs setup rules world (getOrCompile setup key compilation) := by
  intro _
  cases found : world.outer.cache.lookup key with
  | some cell =>
    rw [getOrCompile_hit setup compilation found]
    exact ⟨by simp, .single (.plain (.own rfl rfl rfl (.inr rfl)))⟩
  | none =>
    have scheduled : Steps (Step setup rules) _ ⟨[], World.scheduled world key compilation⟩ :=
      scheduled_steps found (allowed found)
    obtain ⟨next, made, steps⟩ := getOrCompile_makes compilation setup rules found
    rw [made]
    exact ⟨by simp, scheduled.trans steps⟩

theorem compileRequest_performs {request : Request}
    (asks : request.validate = .ok () →
      world.outer.cache.lookup (request.key setup.config.keyPolicy) = none →
      rules.asks (request.key setup.config.keyPolicy) request) :
    Performs setup rules world (compileRequest setup request) := by
  unfold compileRequest
  cases valid : request.validate with
  | error fault =>
    exact .grows_plain (makeSettled_ends (.error _ _)) fun _ _ made => made.1
  | ok => exact getOrCompile_performs fun missing => .inr ⟨request, rfl, asks valid missing⟩

end DeferredJit.Engine
