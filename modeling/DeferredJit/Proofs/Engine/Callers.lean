import DeferredJit.Proofs.Engine.Record
import DeferredJit.Proofs.Engine.Runs
import DeferredJit.Proofs.Engine.Service

/-! Many callers that ask the cache for executables at the same time. Each looks its key up, makes the entry
if it has found none, and enqueues the compilation if it made the entry; between any two of these turns
others may take theirs, and tasks may run. The first to make an entry is the only one, and everybody gets
its cell. -/

set_option autoImplicit false

namespace DeferredJit.Engine

open Async (CellId)

/-! ## Turns -/

/-- How far a caller has come. -/
inductive Progress where
  | arrived
  /-- It has found no entry. -/
  | missed
  /-- It has made the entry, and has still to enqueue the compilation. -/
  | owes (cell : CellId)
  | returned (cell : CellId)
  deriving DecidableEq

structure Caller where
  key : CacheKey
  compilation : Compilation
  progress : Progress := .arrived

namespace Caller

def reach (caller : Caller) (progress : Progress) : Caller := { caller with progress }

def request (caller : Caller) : CacheKey × Compilation := (caller.key, caller.compilation)

@[simp] theorem request_reach (caller : Caller) (progress : Progress) :
    (caller.reach progress).request = caller.request := rfl

@[simp] theorem key_reach (caller : Caller) (progress : Progress) : (caller.reach progress).key = caller.key := rfl

@[simp] theorem progress_reach (caller : Caller) (progress : Progress) :
    (caller.reach progress).progress = progress := rfl

end Caller

/-- What a caller has done for others to see. Callers go by their places. -/
inductive Deed where
  | allocated (who : Nat) (key : CacheKey) (cell : CellId) (made : Bool)
  | enqueued (who : Nat) (job : Job)

structure Crowd where
  callers : List Caller
  world : EngineWorld

/-- All callers have arrived, and the cache is empty. -/
def Crowd.opening (requests : List (CacheKey × Compilation)) : Crowd :=
  ⟨requests.map fun request => ⟨request.1, request.2, .arrived⟩, initial⟩

/-- One caller takes its turn, or a task runs. -/
inductive Turn (setup : Setup) : Crowd → List Deed → Crowd → Prop where
  | look {callers who caller world found next} : callers[who]? = some caller → caller.progress = .arrived →
      find caller.key world = (.ok found, next) →
      Turn setup ⟨callers, world⟩ [] ⟨callers.set who (caller.reach (found.elim .missed .returned)), next⟩
  | allocate {callers who caller world cell made next} : callers[who]? = some caller → caller.progress = .missed →
      allocate caller.key world = (.ok (cell, made), next) →
      Turn setup ⟨callers, world⟩ [.allocated who caller.key cell made]
        ⟨callers.set who (caller.reach (if made then .owes cell else .returned cell)), next⟩
  | enqueue {callers who caller world cell next} : callers[who]? = some caller → caller.progress = .owes cell →
      schedule setup caller.key cell caller.compilation world = (.ok (), next) →
      Turn setup ⟨callers, world⟩ [.enqueued who (.compile caller.key cell caller.compilation)]
        ⟨callers.set who (caller.reach (.returned cell)), next⟩
  | task {callers place world job next} : runAt setup place world = (.ok (some job), next) →
      Turn setup ⟨callers, world⟩ [] ⟨callers, next⟩

/-- Any number of turns, with what was done in them, oldest first. -/
inductive Turns (setup : Setup) (opening : Crowd) : List Deed → Crowd → Prop where
  | start : Turns setup opening [] opening
  | turn {deeds between more crowd} : Turns setup opening deeds between → Turn setup between more crowd →
      Turns setup opening (deeds ++ more) crowd

/-- A caller that is never interrupted does what the operation does in one go. -/
theorem Turns.of_getOrCompile {setup : Setup} {key : CacheKey} {compilation : Compilation} {world next : EngineWorld}
    {cell : CellId} (returned : getOrCompile setup key compilation world = (.ok cell, next)) :
    ∃ deeds, Turns setup ⟨[⟨key, compilation, .arrived⟩], world⟩ deeds ⟨[⟨key, compilation, .returned cell⟩], next⟩ := by
  have alone (progress : Progress) : [Caller.mk key compilation progress][0]? = some ⟨key, compilation, progress⟩ := rfl
  have looks := find_apply world key
  cases found : world.outer.cache.lookup key with
  | some known =>
    rw [found] at looks
    rw [getOrCompile_hit setup compilation found] at returned
    cases returned
    have looked : Turn setup ⟨[⟨key, compilation, .arrived⟩], world⟩ [] ⟨[⟨key, compilation, .returned cell⟩], _⟩ :=
      .look (alone .arrived) rfl looks
    exact ⟨_, .turn .start looked⟩
  | none =>
    rw [found] at looks
    let fresh := world.store.cells.size
    let entered := World.enter world key none
    have allocates := allocate_miss found
    have looked : Turn setup ⟨[⟨key, compilation, .arrived⟩], world⟩ [] ⟨[⟨key, compilation, .missed⟩], world⟩ :=
      .look (alone .arrived) rfl looks
    have allocated : Turn setup ⟨[⟨key, compilation, .missed⟩], world⟩ _ ⟨[⟨key, compilation, .owes fresh⟩], entered⟩ :=
      .allocate (alone .missed) rfl allocates
    have rest : getOrCompile setup key compilation world =
        (schedule setup key fresh compilation >>= fun _ => pure fresh) entered := by
      unfold getOrCompile
      rw [Act.bind_ok looks]
      exact Act.bind_ok allocates
    rw [rest] at returned
    rcases scheduled : schedule setup key fresh compilation entered with ⟨stop | _, after⟩
    · rw [Act.bind_error scheduled] at returned
      cases returned
    · rw [Act.bind_ok scheduled] at returned
      obtain ⟨rfl, rfl⟩ : fresh = cell ∧ after = next := by simpa [Act.pure_apply] using returned
      have enqueued : Turn setup ⟨[⟨key, compilation, .owes fresh⟩], entered⟩ _
          ⟨[⟨key, compilation, .returned fresh⟩], after⟩ := .enqueue (alone (.owes fresh)) rfl scheduled
      exact ⟨_, .turn (.turn (.turn .start looked) allocated) enqueued⟩

/-! ## What belongs to a key -/

/-- The key that a task compiles for. -/
def Job.compiles? (job : Job) : Option CacheKey := job.entry?.map Prod.fst

/-- The key that a compilation is called for, however its artifact comes about. -/
def Notice.compiles? : Notice → Option CacheKey
  | compiled key .. | fetched key => some key
  | specialized .. | executed .. => none

theorem Job.compiles?_notice (setup : Setup) (job : Job) :
    (job.notice? setup).bind Notice.compiles? = job.compiles? := by
  cases job with
  | compile key target compilation => cases compilation <;> rfl
  | specialize => rfl
  | settle => rfl

/-- The tasks that wait to compile for a key. -/
def World.compiling (world : EngineWorld) (key : CacheKey) : List Job :=
  world.outer.queue.filter (·.compiles? == some key)

/-- The calls of compilations for a key. -/
def World.invoked (world : EngineWorld) (key : CacheKey) : List Notice :=
  (World.notices world).filter (·.compiles? == some key)

/-- A task makes itself heard under the key that it compiles for, and under no other. -/
theorem Job.notices_for (setup : Setup) (job : Job) (key : CacheKey) :
    (job.notice? setup).toList.filter (·.compiles? == some key) =
      if job.compiles? = some key then (job.notice? setup).toList else [] := by
  rw [← job.compiles?_notice setup]
  cases job.notice? setup with
  | none => split <;> rfl
  | some notice => simp [List.filter_cons]

theorem World.compiling_enqueue (world : EngineWorld) (job : Job) (key : CacheKey) :
    World.compiling (World.enqueue world job) key =
      World.compiling world key ++ if job.compiles? = some key then [job] else [] := by
  simp [compiling, enqueue, List.filter_append, List.filter_cons]

theorem World.compiling_withdraw {world : EngineWorld} {place : Nat} {job : Job}
    (found : world.outer.queue[place]? = some job) (key : CacheKey) :
    if job.compiles? = some key then
      ∃ before after, World.compiling world key = before ++ job :: after ∧
        World.compiling (World.withdraw world place) key = before ++ after
    else World.compiling (World.withdraw world place) key = World.compiling world key := by
  obtain ⟨before, after, whole, left⟩ := World.queue_withdraw found
  unfold compiling
  rw [whole, left]
  split
  · rename_i own
    exact ⟨before.filter (·.compiles? == some key), after.filter (·.compiles? == some key), by simp [own],
      List.filter_append ..⟩
  · rename_i other
    simp [other]

def Deed.allocation? (key : CacheKey) : Deed → Option (Nat × CellId × Bool)
  | allocated who other cell made => if other = key then some (who, cell, made) else none
  | enqueued .. => none

def Deed.enqueue? (key : CacheKey) : Deed → Option (Nat × Job)
  | enqueued who job => if job.compiles? = some key then some (who, job) else none
  | allocated .. => none

/-- Who has tried to make an entry under the key, and what came of it. -/
def attempts (key : CacheKey) (deeds : List Deed) : List (Nat × CellId × Bool) :=
  deeds.filterMap (Deed.allocation? key)

/-- Who has enqueued which task for the key. -/
def orders (key : CacheKey) (deeds : List Deed) : List (Nat × Job) := deeds.filterMap (Deed.enqueue? key)

theorem attempts_append (key : CacheKey) (deeds more : List Deed) :
    attempts key (deeds ++ more) = attempts key deeds ++ attempts key more := List.filterMap_append

theorem attempts_own (who : Nat) (key : CacheKey) (cell : CellId) (made : Bool) :
    attempts key [.allocated who key cell made] = [(who, cell, made)] := by
  simp [attempts, Deed.allocation?]

theorem attempts_other {key other : CacheKey} (different : key ≠ other) (who : Nat) (cell : CellId) (made : Bool) :
    attempts other [.allocated who key cell made] = [] := by
  simp [attempts, Deed.allocation?, different]

theorem orders_append (key : CacheKey) (deeds more : List Deed) :
    orders key (deeds ++ more) = orders key deeds ++ orders key more := List.filterMap_append

/-- Cache entries and tasks are the same, nobody waits, and these notices were made. -/
structure Aside (notices : List Notice) (world next : EngineWorld) : Prop where
  entries : next.outer.cache.entries = world.outer.cache.entries
  queue : next.outer.queue = world.outer.queue
  waiters : next.store.waiters = world.store.waiters
  notices : World.notices next = notices ++ World.notices world

namespace Aside

variable {notices more : List Notice} {world between next : EngineWorld}

theorem refl (world : EngineWorld) : Aside [] world world := ⟨rfl, rfl, rfl, rfl⟩

theorem trans (first : Aside notices world between) (second : Aside more between next) :
    Aside (more ++ notices) world next where
  entries := second.entries.trans first.entries
  queue := second.queue.trans first.queue
  waiters := second.waiters.trans first.waiters
  notices := by rw [second.notices, first.notices, List.append_assoc]

theorem lookup (aside : Aside notices world next) (key : CacheKey) :
    next.outer.cache.lookup key = world.outer.cache.lookup key := by
  unfold Cache.lookup
  rw [aside.entries]

theorem compiling (aside : Aside notices world next) (key : CacheKey) :
    World.compiling next key = World.compiling world key := by
  unfold World.compiling
  rw [aside.queue]

theorem invoked (aside : Aside notices world next) (key : CacheKey) : World.invoked next key =
    notices.filter (·.compiles? == some key) ++ World.invoked world key := by
  unfold World.invoked
  rw [aside.notices, List.filter_append]

end Aside

section Tasks

variable (setup : Setup) {world : EngineWorld}

/-- A new executable is not in the cache. -/
theorem wrap_aside (mode : SpecializationMode) (limit : Nat) (made : Outcome Artifact) :
    (wrap mode limit made).Ends world (fun _ next => Aside [] world next) never := by
  cases made with
  | error failure => exact .pure _ (.refl world)
  | ok artifact => exact .of_ok rfl ⟨rfl, rfl, world.store.waiters_make rfl, rfl⟩

theorem prepared_aside (job : Job) :
    (prepared setup job).Ends world (fun _ next => Aside (job.notice? setup).toList world next) never := by
  cases job with
  | compile key target compilation =>
    have logged (notice : Notice) : Aside [notice] world (world.log (.noted notice)) :=
      ⟨rfl, rfl, rfl, World.notices_log ..⟩
    have compiled : (compile setup key compilation).Ends world (fun _ next =>
        Aside ((Job.compile key target compilation).notice? setup).toList world next) never := by
      cases compilation with
      | request request =>
        exact .after rfl ((wrap_aside _ _ _).mono (fun _ _ aside => (logged _).trans aside) (fun _ _ => id))
      | given artifact =>
        exact .after rfl ((wrap_aside _ _ _).mono (fun _ _ aside => (logged _).trans aside) (fun _ _ => id))
    refine compiled.bind fun outcome next aside => ?_
    split
    · exact .of_ok rfl ⟨aside.entries, aside.queue, aside.waiters, aside.notices⟩
    · exact .of_ok rfl aside
  | specialize handle generic specializer key target => exact .of_ok rfl ⟨rfl, rfl, rfl, World.notices_log ..⟩
  | settle name target payload => exact .of_ok rfl (.refl world)

/-- Nobody is called when a cell gets its outcome that nobody waits for. -/
theorem resolve_aside (idle : world.store.waiters = []) (fire : Async.Fire Payload Stage Notice State) (cell : CellId)
    (outcome : Outcome Payload) :
    (Async.resolve fire cell outcome).Ends world (fun _ next => Aside [] world next) never := by
  have resolved := Async.resolve_apply world fire cell outcome
  cases settled : world.store.settle cell outcome with
  | none =>
    rw [settled] at resolved
    exact .of_ok resolved (.refl world)
  | some taken =>
    obtain ⟨waiters, store⟩ := taken
    have moved := Async.Store.waiters_settle settled
    rw [idle, List.perm_nil, List.append_eq_nil_iff] at moved
    obtain ⟨rfl, left⟩ := moved
    rw [settled] at resolved
    exact .of_ok resolved ⟨rfl, rfl, left.trans idle.symm, rfl⟩

theorem runJob_aside (idle : world.store.waiters = []) (later : Later) (job : Job) :
    (runJob setup later job).Ends world (fun _ next => Aside (job.notice? setup).toList world next) never := by
  rw [runJob_eq]
  refine (prepared_aside setup job).bind fun outcome between first => ?_
  have resolved := resolve_aside (first.waiters.trans idle) later.fire job.target outcome
  have given : (discard (Async.resolve later.fire job.target outcome) : Run Unit).Ends between
      (fun _ next => Aside [] between next) never := resolved.bind fun _ _ aside => .pure _ aside
  exact given.mono (fun _ _ second => first.trans second) (fun _ _ => id)

/-- The task for an entry has been enqueued, or has run. -/
theorem schedule_ends (idle : world.store.waiters = []) (key : CacheKey) (cell : CellId) (compilation : Compilation) :
    let job : Job := .compile key cell compilation
    (schedule setup key cell compilation).Ends world
      (fun _ next => Aside (job.notice? setup).toList world next ∨ Aside [] (World.enqueue world job) next) never := by
  intro job
  let counted : EngineWorld :=
    { world with outer := { world.outer with cache := world.outer.cache.recordCompilation } }
  have same : schedule setup key cell compilation world =
      enqueue setup (within setup (world.store.weight Stage.weight + 0 + 1)) job counted := rfl
  have enqueued : (enqueue setup (within setup (world.store.weight Stage.weight + 0 + 1)) job).Ends counted
      (fun _ next => Aside (job.notice? setup).toList world next ∨ Aside [] (World.enqueue world job) next) never := by
    unfold enqueue
    split
    · have still : counted.store.waiters = [] := idle
      refine (runJob_aside setup still _ job).mono (fun _ next aside => .inl ?_) (fun _ _ => id)
      exact ⟨aside.entries, aside.queue, aside.waiters, aside.notices⟩
    · exact .of_ok rfl (.inr ⟨rfl, rfl, rfl, rfl⟩)
  unfold Act.Ends at enqueued ⊢
  rwa [same]

end Tasks

/-! ## One caller compiles -/

/-- How far the task of the caller that has made the entry has come: the progress of the caller, what it has
enqueued, what waits in the queue, and what was called. -/
inductive Work (setup : Setup) (first : Nat) (job : Job) :
    Progress → List (Nat × Job) → List Job → List Notice → Prop where
  | owed : Work setup first job (.owes job.target) [] [] []
  | queued : Work setup first job (.returned job.target) [(first, job)] [job] []
  | ran : Work setup first job (.returned job.target) [(first, job)] [] (job.notice? setup).toList

theorem Work.progress {setup : Setup} {first : Nat} {job : Job} {progress : Progress} {ordered : List (Nat × Job)}
    {waiting : List Job} {called : List Notice} (work : Work setup first job progress ordered waiting called) :
    progress = .owes job.target ∨ progress = .returned job.target := by
  cases work with
  | owed => exact .inl rfl
  | queued | ran => exact .inr rfl

/-- The task that waits is the one that the first caller has enqueued. -/
theorem Work.taken {setup : Setup} {first : Nat} {job taken : Job} {progress : Progress} {ordered : List (Nat × Job)}
    {waiting before after : List Job} {called : List Notice}
    (work : Work setup first job progress ordered waiting called)
    (whole : waiting = before ++ taken :: after) :
    Work setup first job progress ordered (before ++ after) ((taken.notice? setup).toList ++ called) := by
  cases work with
  | owed | ran => exact absurd whole (by simp)
  | queued =>
    obtain ⟨rfl, rest⟩ | ⟨_, rfl, rest⟩ := List.cons_eq_append_iff.1 whole
    · obtain ⟨rfl, rfl⟩ := List.cons.inj rest
      rw [List.append_nil, List.append_nil]
      exact .ran
    · exact absurd rest (by simp)

/-- Nobody has tried to make an entry under the key. -/
structure Unclaimed (key : CacheKey) (deeds : List Deed) (crowd : Crowd) : Prop where
  attempted : attempts key deeds = []
  ordered : orders key deeds = []
  missing : crowd.world.outer.cache.lookup key = none
  compiling : World.compiling crowd.world key = []
  invoked : World.invoked crowd.world key = []
  callers : ∀ ⦃who : Nat⦄ ⦃caller : Caller⦄, crowd.callers[who]? = some caller → caller.key = key →
    caller.progress = .arrived ∨ caller.progress = .missed

/-- The first caller that tried to make the entry under the key has made it, and it alone sees to its compilation. -/
structure Claimed (setup : Setup) (key : CacheKey) (deeds : List Deed) (crowd : Crowd) (first : Nat)
    (compilation : Compilation) (cell : CellId) : Prop where
  attempted : ∃ rivals, attempts key deeds = (first, cell, true) :: rivals ∧
    ∀ rival ∈ rivals, rival.2 = (cell, false)
  stored : crowd.world.outer.cache.lookup key = some cell
  work : ∃ progress, crowd.callers[first]? = some ⟨key, compilation, progress⟩ ∧
    Work setup first (.compile key cell compilation) progress (orders key deeds)
      (World.compiling crowd.world key) (World.invoked crowd.world key)
  rivals : ∀ ⦃who : Nat⦄ ⦃caller : Caller⦄, crowd.callers[who]? = some caller → caller.key = key → who ≠ first →
    caller.progress = .arrived ∨ caller.progress = .missed ∨ caller.progress = .returned cell

def Status (setup : Setup) (key : CacheKey) (deeds : List Deed) (crowd : Crowd) : Prop :=
  Unclaimed key deeds crowd ∨ ∃ first compilation cell, Claimed setup key deeds crowd first compilation cell

/-- A turn that has nothing to do with the key. -/
structure Elsewhere (key : CacheKey) (crowd : Crowd) (more : List Deed) (next : Crowd) : Prop where
  attempted : attempts key more = []
  ordered : orders key more = []
  lookup : next.world.outer.cache.lookup key = crowd.world.outer.cache.lookup key
  compiling : World.compiling next.world key = World.compiling crowd.world key
  invoked : World.invoked next.world key = World.invoked crowd.world key
  callers : ∀ ⦃who : Nat⦄ ⦃caller : Caller⦄, caller.key = key →
    (next.callers[who]? = some caller ↔ crowd.callers[who]? = some caller)

section Status

variable {setup : Setup} {key : CacheKey} {deeds more : List Deed} {crowd next : Crowd} {callers : List Caller}
  {who : Nat} {caller : Caller} {progress : Progress}

theorem Status.elsewhere (status : Status setup key deeds crowd) (elsewhere : Elsewhere key crowd more next) :
    Status setup key (deeds ++ more) next := by
  have allocated : attempts key (deeds ++ more) = attempts key deeds := by
    rw [attempts_append, elsewhere.attempted, List.append_nil]
  have enqueued : orders key (deeds ++ more) = orders key deeds := by
    rw [orders_append, elsewhere.ordered, List.append_nil]
  rcases status with unclaimed | ⟨first, compilation, cell, claimed⟩
  · exact .inl {
      attempted := allocated.trans unclaimed.attempted
      ordered := enqueued.trans unclaimed.ordered
      missing := elsewhere.lookup.trans unclaimed.missing
      compiling := elsewhere.compiling.trans unclaimed.compiling
      invoked := elsewhere.invoked.trans unclaimed.invoked
      callers := fun _ _ here same => unclaimed.callers ((elsewhere.callers same).1 here) same }
  · obtain ⟨progress, here, work⟩ := claimed.work
    exact .inr ⟨first, compilation, cell, {
      attempted := by rw [allocated]; exact claimed.attempted
      stored := elsewhere.lookup.trans claimed.stored
      work := ⟨progress, (elsewhere.callers rfl).2 here, by
        rw [enqueued, elsewhere.compiling, elsewhere.invoked]; exact work⟩
      rivals := fun _ _ here same => claimed.rivals ((elsewhere.callers same).1 here) same }⟩

/-- Only the caller whose turn it is gets on. -/
theorem callers_reach {other : Nat} {seen : Caller}
    (found : (callers.set who (caller.reach progress))[other]? = some seen) :
    (other = who ∧ seen = caller.reach progress) ∨ (other ≠ who ∧ callers[other]? = some seen) := by
  rw [List.getElem?_set] at found
  split at found
  · rename_i same
    split at found
    · exact .inl ⟨same.symm, (Option.some.inj found).symm⟩
    · contradiction
  · rename_i different
    exact .inr ⟨Ne.symm different, found⟩

theorem reach_elsewhere (different : caller.key ≠ key) (found : callers[who]? = some caller) ⦃other : Nat⦄
    ⦃seen : Caller⦄ (same : seen.key = key) :
    (callers.set who (caller.reach progress))[other]? = some seen ↔ callers[other]? = some seen := by
  constructor
  · intro here
    rcases callers_reach here with ⟨rfl, rfl⟩ | ⟨-, here⟩
    · exact absurd same different
    · exact here
  · intro here
    have apart : who ≠ other := by
      rintro rfl
      rw [found] at here
      exact different (Option.some.inj here ▸ same)
    rw [List.getElem?_set_ne apart]
    exact here

theorem requests_reach (found : callers[who]? = some caller) :
    (callers.set who (caller.reach progress)).map Caller.request = callers.map Caller.request := by
  refine List.ext_getElem? fun other => ?_
  rw [List.getElem?_map, List.getElem?_map]
  by_cases same : other = who
  · subst same
    rw [List.getElem?_set_self (List.getElem?_eq_some_iff.1 found).1, found]
    rfl
  · rw [List.getElem?_set_ne (Ne.symm same)]

/-- Whoever has not yet tried to make the entry is not the first that did. -/
theorem Claimed.behind {first : Nat} {compilation : Compilation} {cell : CellId}
    (claimed : Claimed setup key deeds crowd first compilation cell) (found : crowd.callers[who]? = some caller)
    (early : caller.progress = .arrived ∨ caller.progress = .missed) : who ≠ first := by
  rintro rfl
  obtain ⟨progress, here, work⟩ := claimed.work
  rw [found] at here
  obtain rfl := Option.some.inj here
  rcases work.progress with owes | returned
  · simp [owes] at early
  · simp [returned] at early

/-- A caller that finds the entry, or fails to make another, returns its cell. -/
theorem Claimed.returns {first : Nat} {compilation : Compilation} {cell : CellId} {world after : EngineWorld}
    (claimed : Claimed setup caller.key deeds ⟨callers, world⟩ first compilation cell)
    (found : callers[who]? = some caller)
    (early : caller.progress = .arrived ∨ caller.progress = .missed) (aside : Aside [] world after)
    (allocated : ∃ rivals, attempts caller.key (deeds ++ more) = (first, cell, true) :: rivals ∧
      ∀ rival ∈ rivals, rival.2 = (cell, false))
    (enqueued : orders caller.key more = []) :
    Claimed setup caller.key (deeds ++ more) ⟨callers.set who (caller.reach (.returned cell)), after⟩
      first compilation cell := by
  have behind := claimed.behind found early
  obtain ⟨progress, here, work⟩ := claimed.work
  refine {
    attempted := allocated
    stored := (aside.lookup _).trans claimed.stored
    work := ⟨progress, ?_, ?_⟩
    rivals := ?_ }
  · exact (List.getElem?_set_ne behind).trans here
  · rw [orders_append, enqueued, List.append_nil, aside.compiling, aside.invoked]
    exact work
  · intro other seen here same apart
    rcases callers_reach here with ⟨rfl, rfl⟩ | ⟨-, here⟩
    · exact .inr (.inr rfl)
    · exact claimed.rivals here same apart

/-- A caller that fails to make another entry has tried in vain. -/
theorem Claimed.loses {first : Nat} {compilation : Compilation} {cell : CellId}
    (claimed : Claimed setup key deeds crowd first compilation cell) (who : Nat) :
    ∃ rivals, attempts key (deeds ++ [.allocated who key cell false]) = (first, cell, true) :: rivals ∧
      ∀ rival ∈ rivals, rival.2 = (cell, false) := by
  obtain ⟨rivals, before, lost⟩ := claimed.attempted
  refine ⟨rivals ++ [(who, cell, false)], by rw [attempts_append, before, attempts_own]; rfl, fun rival member => ?_⟩
  rcases List.mem_append.1 member with old | new
  · exact lost rival old
  · rw [List.mem_singleton.1 new]

theorem World.compiling_enter (world : EngineWorld) (entry key : CacheKey) :
    World.compiling (World.enter world entry none) key = World.compiling world key := by
  simp [World.compiling, World.enter]

/-- A caller that makes the entry is the first, and still owes its task. -/
theorem Unclaimed.claims {world : EngineWorld} (unclaimed : Unclaimed caller.key deeds ⟨callers, world⟩)
    (found : callers[who]? = some caller) :
    Claimed setup caller.key (deeds ++ [.allocated who caller.key world.store.cells.size true])
      ⟨callers.set who (caller.reach (.owes world.store.cells.size)), World.enter world caller.key none⟩
      who caller.compilation world.store.cells.size where
  attempted := ⟨[], by rw [attempts_append, unclaimed.attempted, attempts_own]; rfl, by simp⟩
  stored := by
    have missing : world.outer.cache.lookup caller.key = none := unclaimed.missing
    exact (Cache.lookup_insert ..).trans (by rw [missing]; rfl)
  work := by
    refine ⟨_, List.getElem?_set_self (List.getElem?_eq_some_iff.1 found).1, ?_⟩
    have ordered : orders caller.key (deeds ++ [.allocated who caller.key world.store.cells.size true]) = [] := by
      rw [orders_append, unclaimed.ordered]
      rfl
    have compiling : World.compiling (World.enter world caller.key none) caller.key = [] :=
      (World.compiling_enter ..).trans unclaimed.compiling
    have invoked : World.invoked (World.enter world caller.key none) caller.key = [] := unclaimed.invoked
    rw [ordered, compiling, invoked]
    exact .owed
  rivals other seen here same apart := by
    rcases callers_reach here with ⟨rfl, -⟩ | ⟨-, here⟩
    · exact absurd rfl apart
    · exact (unclaimed.callers here same).imp_right .inl

/-- A caller that has found nothing goes on to make an entry. -/
theorem Unclaimed.misses {world : EngineWorld} (unclaimed : Unclaimed key deeds ⟨callers, world⟩) :
    Unclaimed key deeds ⟨callers.set who (caller.reach .missed), world⟩ where
  attempted := unclaimed.attempted
  ordered := unclaimed.ordered
  missing := unclaimed.missing
  compiling := unclaimed.compiling
  invoked := unclaimed.invoked
  callers other seen here same := by
    rcases callers_reach here with ⟨rfl, rfl⟩ | ⟨-, here⟩
    · exact .inr rfl
    · exact unclaimed.callers here same

end Status

/-! ## Every turn keeps to it -/

/-- In a cache that only its callers use. -/
structure Sole (setup : Setup) (requests : List (CacheKey × Compilation)) (deeds : List Deed) (crowd : Crowd) :
    Prop where
  asked : crowd.callers.map Caller.request = requests
  idle : crowd.world.store.waiters = []
  status : ∀ key, Status setup key deeds crowd

section Turns

variable {setup : Setup} {requests : List (CacheKey × Compilation)} {deeds : List Deed} {callers : List Caller}
  {world after : EngineWorld} {who : Nat} {caller : Caller} {cell : CellId}

theorem sole_opening : Sole setup requests [] (.opening requests) where
  asked := by
    simp only [Crowd.opening, List.map_map]
    exact List.map_id requests
  idle := rfl
  status key := .inl {
    attempted := rfl
    ordered := rfl
    missing := rfl
    compiling := rfl
    invoked := rfl
    callers := by
      intro who caller here _
      simp only [Crowd.opening, List.getElem?_map, Option.map_eq_some_iff] at here
      obtain ⟨request, -, rfl⟩ := here
      exact .inl rfl }

/-- Whoever only counts a hit touches nothing. -/
theorem recordHit_aside (world : EngineWorld) :
    Aside [] world { world with outer := { world.outer with cache := world.outer.cache.recordHit } } :=
  ⟨rfl, rfl, rfl, rfl⟩

theorem Sole.look (sole : Sole setup requests deeds ⟨callers, world⟩) (found : callers[who]? = some caller)
    (arrived : caller.progress = .arrived) {seen : Option CellId} (ran : find caller.key world = (.ok seen, after)) :
    Sole setup requests (deeds ++ []) ⟨callers.set who (caller.reach (seen.elim .missed .returned)), after⟩ := by
  have looked := find_apply world caller.key
  rw [ran] at looked
  have aside : Aside [] world after := by
    cases stored : world.outer.cache.lookup caller.key with
    | none =>
      rw [stored] at looked
      cases looked
      exact .refl world
    | some cell =>
      rw [stored] at looked
      cases looked
      exact recordHit_aside world
  refine ⟨(requests_reach found).trans sole.asked, aside.waiters.trans sole.idle, fun key => ?_⟩
  by_cases same : caller.key = key
  · subst same
    rcases sole.status caller.key with unclaimed | ⟨first, compilation, cell, claimed⟩
    · have missing : world.outer.cache.lookup caller.key = none := unclaimed.missing
      rw [missing] at looked
      cases looked
      rw [List.append_nil]
      exact .inl unclaimed.misses
    · have stored : world.outer.cache.lookup caller.key = some cell := claimed.stored
      rw [stored] at looked
      cases looked
      have attempted := claimed.attempted
      rw [← List.append_nil deeds] at attempted
      exact .inr ⟨first, compilation, cell, claimed.returns found (.inl arrived) aside attempted rfl⟩
  · exact (sole.status key).elsewhere {
      attempted := rfl
      ordered := rfl
      lookup := aside.lookup key
      compiling := aside.compiling key
      invoked := aside.invoked key
      callers := reach_elsewhere same found }

theorem Sole.allocate (sole : Sole setup requests deeds ⟨callers, world⟩) (found : callers[who]? = some caller)
    (missed : caller.progress = .missed) {made : Bool} (ran : allocate caller.key world = (.ok (cell, made), after)) :
    Sole setup requests (deeds ++ [.allocated who caller.key cell made])
      ⟨callers.set who (caller.reach (if made then .owes cell else .returned cell)), after⟩ := by
  let progress : Progress := if made then .owes cell else .returned cell
  have asked : (callers.set who (caller.reach progress)).map Caller.request = requests :=
    (requests_reach found).trans sole.asked
  cases stored : world.outer.cache.lookup caller.key with
  | none =>
    rw [allocate_miss stored] at ran
    cases ran
    refine ⟨asked, (world.store.waiters_make rfl).trans sole.idle, fun key => ?_⟩
    by_cases same : caller.key = key
    · subst same
      rcases sole.status caller.key with unclaimed | ⟨first, compilation, cell, claimed⟩
      · exact .inr ⟨who, caller.compilation, _, unclaimed.claims found⟩
      · exact absurd (claimed.stored.symm.trans stored) (by simp)
    · exact (sole.status key).elsewhere {
        attempted := attempts_other same ..
        ordered := rfl
        lookup := world.outer.cache.lookup_insert_of_ne _ (Ne.symm same)
        compiling := World.compiling_enter ..
        invoked := rfl
        callers := reach_elsewhere same found }
  | some known =>
    rw [allocate_hit stored] at ran
    cases ran
    have aside := recordHit_aside world
    refine ⟨asked, sole.idle, fun key => ?_⟩
    by_cases same : caller.key = key
    · subst same
      rcases sole.status caller.key with unclaimed | ⟨first, compilation, other, claimed⟩
      · exact absurd (unclaimed.missing.symm.trans stored) (by simp)
      · obtain rfl : other = cell := Option.some.inj (claimed.stored.symm.trans stored)
        exact .inr ⟨first, compilation, other, claimed.returns found (.inr missed) aside (claimed.loses who) rfl⟩
    · exact (sole.status key).elsewhere {
        attempted := attempts_other same ..
        ordered := rfl
        lookup := aside.lookup key
        compiling := aside.compiling key
        invoked := aside.invoked key
        callers := reach_elsewhere same found }

/-- Whoever has made the entry is the first that tried. -/
theorem Claimed.owing {key : CacheKey} {first : Nat} {compilation : Compilation} {known : CellId}
    (claimed : Claimed setup key deeds ⟨callers, world⟩ first compilation known) (found : callers[who]? = some caller)
    (same : caller.key = key) (owes : caller.progress = .owes cell) :
    who = first ∧ cell = known ∧ caller.compilation = compilation ∧ orders key deeds = [] ∧
      World.compiling world key = [] ∧ World.invoked world key = [] := by
  have here : who = first := by
    by_contra apart
    rcases claimed.rivals found same apart with early | early | early <;> simp [owes] at early
  subst here
  obtain ⟨progress, seen, work⟩ := claimed.work
  rw [found] at seen
  obtain rfl := Option.some.inj seen
  obtain rfl : progress = .owes cell := owes
  generalize ordered : orders key deeds = order, waits : World.compiling world key = waiting,
    calls : World.invoked world key = called at work ⊢
  cases work with
  | owed => exact ⟨rfl, rfl, rfl, rfl, rfl, rfl⟩

/-- Whoever has returned has got the cell of the entry. -/
theorem Claimed.returned {key : CacheKey} {first : Nat} {compilation : Compilation} {known : CellId} {crowd : Crowd}
    (claimed : Claimed setup key deeds crowd first compilation known) (found : crowd.callers[who]? = some caller)
    (same : caller.key = key) (returned : caller.progress = .returned cell) : cell = known := by
  by_cases place : who = first
  · subst place
    obtain ⟨progress, here, work⟩ := claimed.work
    rw [found] at here
    obtain rfl := Option.some.inj here
    rcases work.progress with owes | known
    · exact absurd (returned.symm.trans owes) (by simp)
    · exact Progress.returned.inj (returned.symm.trans known)
  · rcases claimed.rivals found same place with early | early | early
    · simp [returned] at early
    · simp [returned] at early
    · exact Progress.returned.inj (returned.symm.trans early)

theorem Sole.enqueue (sole : Sole setup requests deeds ⟨callers, world⟩) (found : callers[who]? = some caller)
    (owes : caller.progress = .owes cell)
    (ran : schedule setup caller.key cell caller.compilation world = (.ok (), after)) :
    Sole setup requests (deeds ++ [.enqueued who (.compile caller.key cell caller.compilation)])
      ⟨callers.set who (caller.reach (.returned cell)), after⟩ := by
  let job : Job := .compile caller.key cell caller.compilation
  have compiles : job.compiles? = some caller.key := rfl
  have came := (schedule_ends setup sole.idle caller.key cell caller.compilation).holds ran
  have idle : after.store.waiters = [] := by
    rcases came with aside | aside <;> exact aside.waiters.trans sole.idle
  have lookup (key : CacheKey) : after.outer.cache.lookup key = world.outer.cache.lookup key := by
    rcases came with aside | aside <;> exact aside.lookup key
  -- The task has run, or waits.
  have work (key : CacheKey) : World.compiling after key = World.compiling world key ∧
        World.invoked after key =
          (if job.compiles? = some key then (job.notice? setup).toList else []) ++ World.invoked world key ∨
      World.compiling after key = World.compiling world key ++ (if job.compiles? = some key then [job] else []) ∧
        World.invoked after key = World.invoked world key := by
    rcases came with aside | aside
    · exact .inl ⟨aside.compiling key, by rw [aside.invoked, job.notices_for]⟩
    · exact .inr ⟨(aside.compiling key).trans (World.compiling_enqueue ..), aside.invoked key⟩
  refine ⟨(requests_reach found).trans sole.asked, idle, fun key => ?_⟩
  by_cases same : caller.key = key
  · subst same
    rcases sole.status caller.key with unclaimed | ⟨first, compilation, known, claimed⟩
    · rcases unclaimed.callers found rfl with early | early <;> simp [owes] at early
    · obtain ⟨rfl, rfl, rfl, ordered, waiting, called⟩ := claimed.owing found rfl owes
      have unattempted : attempts caller.key [.enqueued who job] = [] := rfl
      refine .inr ⟨who, caller.compilation, cell, {
        attempted := by rw [attempts_append, unattempted, List.append_nil]; exact claimed.attempted
        stored := (lookup _).trans claimed.stored
        work := ⟨_, List.getElem?_set_self (List.getElem?_eq_some_iff.1 found).1, ?_⟩
        rivals := ?_ }⟩
      · have own : orders caller.key [.enqueued who job] = [(who, job)] := by simp [orders, Deed.enqueue?, compiles]
        have moved := work caller.key
        rw [if_pos compiles, if_pos compiles, waiting, called, List.append_nil] at moved
        rw [orders_append, ordered, own]
        rcases moved with ⟨gone, calls⟩ | ⟨waits, silent⟩
        · rw [gone, calls]
          exact .ran
        · rw [waits, silent]
          exact .queued
      · intro other seen here same apart
        rcases callers_reach here with ⟨rfl, -⟩ | ⟨-, here⟩
        · exact absurd rfl apart
        · exact claimed.rivals here same apart
  · have other : job.compiles? ≠ some key := by simpa [compiles] using same
    have unmoved := work key
    rw [if_neg other, if_neg other, List.append_nil, List.nil_append, or_self] at unmoved
    exact (sole.status key).elsewhere {
      attempted := rfl
      ordered := by simpa [orders, Deed.enqueue?] using other
      lookup := lookup key
      compiling := unmoved.1
      invoked := unmoved.2
      callers := reach_elsewhere same found }

/-- A task leaves the queue, and makes itself heard at most. -/
theorem runAt_aside (idle : world.store.waiters = []) {place : Nat} {job : Job}
    (ran : runAt setup place world = (.ok (some job), after)) : world.outer.queue[place]? = some job ∧
      Aside (job.notice? setup).toList (World.withdraw world place) after := by
  cases found : world.outer.queue[place]? with
  | none =>
    rw [runAt_vacant setup found] at ran
    cases ran
  | some taken =>
    rw [runAt_apply setup found] at ran
    rcases result : roomy setup 0 (fun later => runJob setup later taken) (World.withdraw world place) with
      ⟨stop | _, next⟩
    · rw [Act.bind_error result] at ran
      cases ran
    · rw [Act.bind_ok result] at ran
      obtain ⟨rfl, rfl⟩ : taken = job ∧ next = after := by simpa [Act.pure_apply] using ran
      have same : roomy setup 0 (fun later => runJob setup later taken) (World.withdraw world place) =
          runJob setup (within setup (world.store.weight Stage.weight + 0 + 1)) taken (World.withdraw world place) := rfl
      rw [same] at result
      have still : (World.withdraw world place).store.waiters = [] := idle
      exact ⟨rfl, (runJob_aside setup still _ taken).holds result⟩

theorem Sole.task (sole : Sole setup requests deeds ⟨callers, world⟩) {place : Nat} {job : Job}
    (ran : runAt setup place world = (.ok (some job), after)) : Sole setup requests (deeds ++ []) ⟨callers, after⟩ := by
  obtain ⟨found, aside⟩ := runAt_aside sole.idle ran
  refine ⟨sole.asked, aside.waiters.trans sole.idle, fun key => ?_⟩
  have lookup : after.outer.cache.lookup key = world.outer.cache.lookup key := aside.lookup key
  have compiling := aside.compiling key
  have invoked := aside.invoked key
  have withdrawn := World.compiling_withdraw found key
  rw [job.notices_for] at invoked
  by_cases compiles : job.compiles? = some key
  · rw [if_pos compiles] at invoked withdrawn
    obtain ⟨before, rest, whole, left⟩ := withdrawn
    rcases sole.status key with unclaimed | ⟨first, compilation, cell, claimed⟩
    · exact absurd (unclaimed.compiling.symm.trans whole) (by simp)
    · -- It is the task of the caller that has made the entry.
      obtain ⟨progress, here, work⟩ := claimed.work
      refine .inr ⟨first, compilation, cell, {
        attempted := by rw [List.append_nil]; exact claimed.attempted
        stored := lookup.trans claimed.stored
        work := ⟨progress, here, ?_⟩
        rivals := claimed.rivals }⟩
      change Work setup first _ progress _ (World.compiling after key) (World.invoked after key)
      rw [List.append_nil, compiling, left, invoked]
      change Work setup first _ progress _ (World.compiling world key) (World.invoked world key) at work
      exact work.taken whole
  · rw [if_neg compiles] at invoked withdrawn
    exact (sole.status key).elsewhere {
      attempted := rfl
      ordered := rfl
      lookup
      compiling := compiling.trans withdrawn
      invoked
      callers := fun _ _ _ => .rfl }

theorem Sole.turn {crowd next : Crowd} {more : List Deed} (sole : Sole setup requests deeds crowd)
    (turn : Turn setup crowd more next) : Sole setup requests (deeds ++ more) next := by
  cases turn with
  | look found arrived ran => exact sole.look found arrived ran
  | allocate found missed ran => exact sole.allocate found missed ran
  | enqueue found owes ran => exact sole.enqueue found owes ran
  | task ran => exact sole.task ran

theorem Sole.turns {crowd : Crowd} (turns : Turns setup (.opening requests) deeds crowd) :
    Sole setup requests deeds crowd := by
  induction turns with
  | start => exact sole_opening
  | turn _ turn ih => exact ih.turn turn

/-- Nobody is kept from taking a turn until it has returned. -/
theorem Sole.turn_of_caller (sole : Sole setup requests deeds ⟨callers, world⟩) (found : callers[who]? = some caller)
    (unfinished : ∀ cell, caller.progress ≠ .returned cell) :
    ∃ more next, Turn setup ⟨callers, world⟩ more next ∧ next.callers[who]? ≠ some caller := by
  have moved {progress : Progress} (different : caller.progress ≠ progress) :
      (callers.set who (caller.reach progress))[who]? ≠ some caller := by
    rw [List.getElem?_set_self (List.getElem?_eq_some_iff.1 found).1]
    intro same
    exact different (congrArg Caller.progress (Option.some.inj same)).symm
  cases reached : caller.progress with
  | arrived =>
    have ran := find_apply world caller.key
    cases stored : world.outer.cache.lookup caller.key with
    | none =>
      rw [stored] at ran
      exact ⟨_, _, .look found reached ran, moved (by simp [reached])⟩
    | some cell =>
      rw [stored] at ran
      exact ⟨_, _, .look found reached ran, moved (by simp [reached])⟩
  | missed =>
    cases stored : world.outer.cache.lookup caller.key with
    | none => exact ⟨_, _, .allocate found reached (allocate_miss stored), moved (by simp [reached])⟩
    | some cell => exact ⟨_, _, .allocate found reached (allocate_hit stored), moved (by simp [reached])⟩
  | owes cell =>
    have ends := schedule_ends setup sole.idle caller.key cell caller.compilation
    rcases ran : schedule setup caller.key cell caller.compilation world with ⟨(cause | _) | _, next⟩
    · exact (ends.fails ran).elim
    · exact absurd (by rw [ran]) ends.not_exhausted
    · exact ⟨_, _, .enqueue found reached ran, moved (by simp [reached])⟩
  | returned cell => exact absurd reached (unfinished cell)

/-- Whatever the turns, the first caller that tries to make an entry makes it, and nobody else does. It enqueues one
task, which alone calls a compilation, and everybody who asks for the key and returns has got the cell of the entry. -/
theorem one_caller_compiles {crowd : Crowd} (turns : Turns setup (.opening requests) deeds crowd) (key : CacheKey) :
    (attempts key deeds ≠ [] → ∃ first compilation cell, requests[first]? = some (key, compilation) ∧
      Claimed setup key deeds crowd first compilation cell) ∧
    ∀ caller ∈ crowd.callers, caller.key = key → ∀ cell, caller.progress = .returned cell →
      crowd.world.outer.cache.lookup key = some cell := by
  have sole : Sole setup requests deeds crowd := .turns turns
  constructor
  · intro attempted
    rcases sole.status key with unclaimed | ⟨first, compilation, cell, claimed⟩
    · exact absurd unclaimed.attempted attempted
    · obtain ⟨progress, here, -⟩ := claimed.work
      have asked : (crowd.callers.map Caller.request)[first]? = some (key, compilation) := by
        rw [List.getElem?_map, here]
        rfl
      rw [sole.asked] at asked
      exact ⟨first, compilation, cell, asked, claimed⟩
  · intro caller member same cell returned
    obtain ⟨who, found⟩ := List.getElem?_of_mem member
    rcases sole.status key with unclaimed | ⟨first, compilation, known, claimed⟩
    · rcases unclaimed.callers found same with early | early <;> simp [returned] at early
    · rw [claimed.returned found same returned]
      exact claimed.stored

/-- Two callers miss, and the second comes to make the entry while the first still owes its task. -/
theorem one_caller_compiles_contested :
    let key : CacheKey := ⟨"main"⟩
    let early : Compilation := .given (.ok (.error (.compilation "early")))
    let late : Compilation := .given (.ok (.error (.compilation "late")))
    let deeds : List Deed := [.allocated 0 key 0 true, .allocated 1 key 0 false, .enqueued 0 (.compile key 0 early)]
    ∃ crowd, Turns failing (.opening [(key, early), (key, late)]) deeds crowd ∧
      ∃ first compilation cell, [(key, early), (key, late)][first]? = some (key, compilation) ∧
        Claimed failing key deeds crowd first compilation cell := by
  intro key early late deeds
  let caller (compilation : Compilation) (progress : Progress) : Caller := ⟨key, compilation, progress⟩
  let entered := World.enter initial key none
  let hit : EngineWorld := { entered with outer := { entered.outer with cache := entered.outer.cache.recordHit } }
  have first : Turn failing ⟨[caller early .arrived, caller late .arrived], initial⟩ []
      ⟨[caller early .missed, caller late .arrived], initial⟩ :=
    @Turn.look failing _ 0 (caller early .arrived) _ none _ rfl rfl rfl
  have second : Turn failing ⟨[caller early .missed, caller late .arrived], initial⟩ []
      ⟨[caller early .missed, caller late .missed], initial⟩ :=
    @Turn.look failing _ 1 (caller late .arrived) _ none _ rfl rfl rfl
  have third : Turn failing ⟨[caller early .missed, caller late .missed], initial⟩ [.allocated 0 key 0 true]
      ⟨[caller early (.owes 0), caller late .missed], entered⟩ :=
    @Turn.allocate failing _ 0 (caller early .missed) _ 0 true _ rfl rfl rfl
  have fourth : Turn failing ⟨[caller early (.owes 0), caller late .missed], entered⟩ [.allocated 1 key 0 false]
      ⟨[caller early (.owes 0), caller late (.returned 0)], hit⟩ :=
    @Turn.allocate failing _ 1 (caller late .missed) _ 0 false _ rfl rfl rfl
  have fifth : Turn failing ⟨[caller early (.owes 0), caller late (.returned 0)], hit⟩
      [.enqueued 0 (.compile key 0 early)] ⟨[caller early (.returned 0), caller late (.returned 0)], _⟩ :=
    @Turn.enqueue failing _ 0 (caller early (.owes 0)) _ 0 _ rfl rfl rfl
  have turns : Turns failing (.opening [(key, early), (key, late)]) deeds _ :=
    .turn (.turn (.turn (.turn (.turn .start first) second) third) fourth) fifth
  exact ⟨_, turns, (one_caller_compiles turns key).1 (by decide)⟩

end Turns

end DeferredJit.Engine
