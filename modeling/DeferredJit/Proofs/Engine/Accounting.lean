import Mathlib.Data.List.Dedup
import DeferredJit.Proofs.Engine.Books

/-! The counters of the cache against a record of what was asked of it. A call for an executable first looks
its key up and does the rest later, and anything may happen in between. -/

set_option autoImplicit false

namespace DeferredJit.Engine

open Act (Leaves)
open Async (CellId)

/-! ## Parts of a call -/

/-- What a call does that has found no entry: it makes one, unless there is one by now, and enqueues the
compilation if it did. -/
def supply (setup : Setup) (key : CacheKey) (compilation : Compilation) : Run CellId := do
  let (cell, allocated) ← allocate key
  if allocated then schedule setup key cell compilation
  return cell

theorem getOrCompile_eq (setup : Setup) (key : CacheKey) (compilation : Compilation) :
    getOrCompile setup key compilation = find key >>= fun found =>
      match found with
      | some cell => pure cell
      | none => supply setup key compilation := rfl

/-- What a compilation comes to. -/
def Compilation.made (setup : Setup) : Compilation → Made Artifact
  | request asked => setup.compiler asked setup.workers
  | given artifact => artifact

/-- The task compiles, and its compilation fails or panics. -/
def Job.fails (setup : Setup) : Job → Bool
  | compile _ _ compilation => (contained "compiler" (compilation.made setup)).toOption.isNone
  | specialize .. | settle .. => false

/-! ## What each part does to the books -/

def Books.hit (books : Books) : Books := { books with cache := books.cache.recordHit }

def Books.enter (books : Books) (key : CacheKey) (cell : CellId) : Books :=
  { books with cache := books.cache.insert key cell }

/-- One task more, which has been counted. -/
def Books.order (books : Books) (waiting : List Job) : Books :=
  { books with cache := books.cache.recordCompilation, waiting := books.waiting ++ waiting }

/-- A task has run. -/
def Books.ran (setup : Setup) (books : Books) (job : Job) : Books :=
  { books with
    cache := if job.fails setup then books.cache.recordFailure else books.cache
    called := ((job.notice? setup).filter (·.compiles?.isSome)).toList ++ books.called }

/-- Compilations are called for by tasks that compile. -/
theorem Job.notice_filter (setup : Setup) (job : Job) :
    (job.notice? setup).filter (·.compiles?.isSome) = if job.compiles?.isSome then job.notice? setup else none := by
  cases job with
  | compile key target compilation => cases compilation <;> rfl
  | specialize => rfl
  | settle => rfl

theorem Books.cache_ran (setup : Setup) (books : Books) (job : Job) : (books.ran setup job).cache =
    { books.cache with failures := books.cache.failures + (job.fails setup).toNat } := by
  unfold ran
  cases job.fails setup <;> rfl

theorem Books.called_ran (setup : Setup) (books : Books) {job : Job} (compiles : job.compiles?.isSome) :
    (books.ran setup job).called = (job.notice? setup).toList ++ books.called := by
  unfold ran
  rw [job.notice_filter, if_pos compiles]

/-- Other tasks leave the books alone. -/
theorem Books.ran_other (setup : Setup) (books : Books) {job : Job} (other : job.compiles? = none) :
    books.ran setup job = books := by
  have fine : job.fails setup = false := by
    cases job with
    | compile => cases other
    | specialize | settle => rfl
  unfold ran
  rw [job.notice_filter, fine, other]
  rfl

section Parts

variable {setup : Setup} {world : EngineWorld} {key : CacheKey}

theorem books_find_hit {cell : CellId} (stored : world.outer.cache.lookup key = some cell) :
    ∃ next, find key world = (.ok (some cell), next) ∧ World.books next = (World.books world).hit := by
  have ran := find_apply world key
  rw [stored] at ran
  exact ⟨_, ran, rfl⟩

theorem books_allocate_hit {cell : CellId} (stored : world.outer.cache.lookup key = some cell) :
    ∃ next, allocate key world = (.ok (cell, false), next) ∧ World.books next = (World.books world).hit :=
  ⟨_, allocate_hit stored, rfl⟩

theorem World.books_enter (world : EngineWorld) (key : CacheKey) :
    World.books (World.enter world key none) = (World.books world).enter key world.store.cells.size := by
  have queue : (World.enter world key none).outer.queue = world.outer.queue := List.append_nil _
  unfold World.books
  rw [queue]
  rfl

theorem wrap_books (mode : SpecializationMode) (limit : Nat) (made : Outcome Artifact) :
    (wrap mode limit made).Ends world (fun outcome next => outcome.toOption.isNone = made.toOption.isNone ∧
      World.books next = World.books world) never := by
  have left := leaves_wrap mode limit made world
  cases made with
  | error failure => exact .of_ok rfl ⟨rfl, left⟩
  | ok artifact => exact .of_ok rfl ⟨rfl, left⟩

theorem compile_books (key : CacheKey) (target : CellId) (compilation : Compilation) :
    (compile setup key compilation).Ends world (fun outcome next =>
      outcome.toOption.isNone = (Job.compile key target compilation).fails setup ∧
      World.books next = { World.books world with
        called := ((Job.compile key target compilation).notice? setup).toList ++
          (World.books world).called }) never := by
  have noted (notice : Notice) (own : notice.compiles?.isSome) : World.books (world.log (.noted notice)) =
      { World.books world with called := notice :: (World.books world).called } := by
    have called : (World.notices (world.log (.noted notice))).filter (·.compiles?.isSome) =
        notice :: (World.notices world).filter (·.compiles?.isSome) := by
      rw [World.notices_log]
      exact List.filter_cons_of_pos own
    exact congrArg (Books.mk _ _) called
  cases compilation with
  | request request =>
    have begun : Async.note (.compiled key request setup.workers) world =
      (.ok (), world.log (.noted (.compiled key request setup.workers))) := rfl
    refine .after begun ?_
    exact (wrap_books _ _ _).mono (fun _ _ wrapped => ⟨wrapped.1, wrapped.2.trans (noted _ rfl)⟩) fun _ _ => id
  | given artifact =>
    have begun : Async.note (.fetched key) world = (.ok (), world.log (.noted (.fetched key))) := rfl
    refine .after begun ?_
    exact (wrap_books _ _ _).mono (fun _ _ wrapped => ⟨wrapped.1, wrapped.2.trans (noted _ rfl)⟩) fun _ _ => id

theorem prepared_books (key : CacheKey) (target : CellId) (compilation : Compilation) :
    (prepared setup (.compile key target compilation)).Ends world (fun _ next =>
      World.books next = (World.books world).ran setup (.compile key target compilation)) never := by
  refine (compile_books key target compilation).bind fun outcome next compiled => ?_
  obtain ⟨fails, books⟩ := compiled
  unfold Books.ran
  rw [Job.notice_filter, ← fails]
  split
  · exact .of_ok rfl (congrArg (fun books => Books.mk books.cache.recordFailure books.waiting books.called) books)
  · exact .of_ok rfl books

/-- Whatever becomes of a task, its compilation has been called once, and its failure has been counted. -/
theorem runJob_books {later : Later} (spares : later.Spares) (job : Job) :
    World.books (runJob setup later job world).2 = (World.books world).ran setup job := by
  cases job with
  | compile key target compilation =>
    rw [runJob_eq]
    have ends := @prepared_books setup world key target compilation
    rcases ran : prepared setup (.compile key target compilation) world with ⟨(cause | _) | outcome, between⟩
    · exact (ends.fails ran).elim
    · exact absurd (by rw [ran]) ends.not_exhausted
    · rw [Act.bind_ok ran]
      exact ((blind_books.resolve spares.1 _ _).discard between).trans (ends.holds ran)
  | specialize => exact leaves_runJob spares rfl world
  | settle => exact leaves_runJob spares rfl world

theorem runAt_books {place : Nat} {job : Job} (found : world.outer.queue[place]? = some job) :
    World.books (runAt setup place world).2 = (World.books (World.withdraw world place)).ran setup job := by
  rw [runAt_apply setup found]
  have ran : World.books (roomy setup 0 (fun later => runJob setup later job) (World.withdraw world place)).2 =
      (World.books (World.withdraw world place)).ran setup job := runJob_books (spares_within setup _) job
  rcases reply : roomy setup 0 (fun later => runJob setup later job) (World.withdraw world place) with ⟨stop | _, next⟩
  · rw [reply] at ran
    rw [Act.bind_error reply]
    exact ran
  · rw [reply] at ran
    rw [Act.bind_ok reply]
    exact ran

/-- The task has been counted, and waits or has run. -/
theorem schedule_books (key : CacheKey) (cell : CellId) (compilation : Compilation) :
    World.books (schedule setup key cell compilation world).2 =
      if setup.inline then ((World.books world).order []).ran setup (Job.compile key cell compilation)
      else (World.books world).order [Job.compile key cell compilation] := by
  let counted : EngineWorld :=
    { world with outer := { world.outer with cache := world.outer.cache.recordCompilation } }
  have books : World.books counted = (World.books world).order [] := by
    unfold Books.order
    rw [List.append_nil]
    rfl
  have same : schedule setup key cell compilation world =
      enqueue setup (within setup (world.store.weight Stage.weight + 0 + 1)) (.compile key cell compilation)
        counted := rfl
  rw [same]
  unfold enqueue
  split
  · rw [← books]
    exact runJob_books (spares_within setup _) _
  · have waiting : (world.outer.queue ++ [Job.compile key cell compilation]).filter (·.compiles?.isSome) =
        world.outer.queue.filter (·.compiles?.isSome) ++ [Job.compile key cell compilation] := List.filter_append ..
    exact congrArg (Books.mk _ · _) waiting

theorem supply_hit {cell : CellId} (compilation : Compilation) (stored : world.outer.cache.lookup key = some cell) :
    World.books (supply setup key compilation world).2 = (World.books world).hit := by
  unfold supply
  rw [Act.bind_ok (allocate_hit stored)]
  rfl

/-- The call makes the entry, and gives out its task. -/
theorem supply_miss (compilation : Compilation) (missing : world.outer.cache.lookup key = none) :
    let cell := world.store.cells.size
    World.books (supply setup key compilation world).2 =
      if setup.inline then (((World.books world).enter key cell).order []).ran setup (Job.compile key cell compilation)
      else ((World.books world).enter key cell).order [Job.compile key cell compilation] := by
  intro cell
  unfold supply
  rw [Act.bind_ok (allocate_miss missing), ← World.books_enter, ← schedule_books]
  change World.books ((schedule setup key cell compilation >>= fun _ => pure cell) _).2 = _
  rcases scheduled : schedule setup key cell compilation (World.enter world key none) with ⟨stop | _, next⟩
  · rw [Act.bind_error scheduled]
  · rw [Act.bind_ok scheduled]
    rfl

end Parts

/-- The operation is about neither the cache nor the queue. -/
def Operation.aside : Operation → Bool
  | call .. | select .. | wrap .. | make .. | settle .. | link .. | observe .. => true
  | compile _ | task _ | find _ | allocate _ | fetch .. => false

theorem Operation.leaves_books {operation : Operation} (aside : operation.aside = true) (setup : Setup) :
    Leaves World.books (operation.perform setup) := by
  cases operation with
  | call dispatcher handle operands count =>
    exact (leaves_roomy fun _ spares => leaves_start spares dispatcher handle operands count).discard
  | select id views => exact (leaves_roomy fun _ spares => leaves_select spares id views).discard
  | wrap made mode limit => exact (leaves_wrap mode limit made).discard
  | make kind outcome => exact (blind_books.onStore _).discard
  | settle cell outcome => exact (leaves_roomy fun _ spares => blind_books.resolve spares.1 cell outcome).discard
  | link source target => exact (leaves_roomy fun _ spares => blind_books.forward spares.1 source target).discard
  | observe cell panic => exact leaves_roomy fun _ spares => blind_books.register spares.1 cell _
  | compile | task | find | allocate | fetch => cases aside

/-- Requests that are not valid fail without a trace. -/
theorem compileRequest_invalid (setup : Setup) (world : EngineWorld) {request : Request} {fault : Request.Fault}
    (invalid : request.validate = .error fault) :
    compileRequest setup request world =
      (.ok world.store.cells.size, world.make { outcome := some (.error fault.failure) }) := by
  unfold compileRequest
  rw [invalid]
  rfl

/-! ## Visits -/

/-- What is on record of a visit to the cache. -/
inductive Mark where
  /-- Somebody has looked a key up, and has found an entry or not. -/
  | find (key : CacheKey) (found : Bool)
  /-- Somebody has asked for an entry, and has made it or not. -/
  | allocate (key : CacheKey) (made : Bool)
  /-- A call has begun. -/
  | look (key : CacheKey) (found : Bool)
  /-- A call that had found nothing has done the rest. If it has made the entry, there is a task. -/
  | supply (key : CacheKey) (job : Option Job)
  /-- A task has run, if there was one. -/
  | task (job : Option Job)
  /-- A request was not valid, or something else was done. -/
  | aside

/-- The engine, and the calls that have found nothing and have not gone on. -/
structure Desk where
  pending : List (CacheKey × Compilation)
  world : EngineWorld

inductive Visit (setup : Setup) : Desk → Mark → Desk → Prop where
  | find {pending world key found next} : find key world = (.ok found, next) →
      Visit setup ⟨pending, world⟩ (.find key found.isSome) ⟨pending, next⟩
  | allocate {pending world key cell made next} : allocate key world = (.ok (cell, made), next) →
      Visit setup ⟨pending, world⟩ (.allocate key made) ⟨pending, next⟩
  | look {pending world key compilation found next} : Engine.find key world = (.ok found, next) →
      Visit setup ⟨pending, world⟩ (.look key found.isSome)
        ⟨pending ++ if found.isSome then [] else [(key, compilation)], next⟩
  | supply {pending world place key compilation reply next} : pending[place]? = some (key, compilation) →
      supply setup key compilation world = (reply, next) →
      Visit setup ⟨pending, world⟩
        (.supply key (if (world.outer.cache.lookup key).isSome then none
          else some (.compile key world.store.cells.size compilation)))
        ⟨pending.eraseIdx place, next⟩
  | task {pending world place reply next} : runAt setup place world = (reply, next) →
      Visit setup ⟨pending, world⟩ (.task world.outer.queue[place]?) ⟨pending, next⟩
  | reject {pending world request fault reply next} : request.validate = .error fault →
      compileRequest setup request world = (reply, next) → Visit setup ⟨pending, world⟩ .aside ⟨pending, next⟩
  | other {pending world next} {operation : Operation} {reply} : operation.aside = true →
      operation.perform setup world = (reply, next) → Visit setup ⟨pending, world⟩ .aside ⟨pending, next⟩

/-- Any number of visits, with the marks that they leave, oldest first. -/
inductive Visits (setup : Setup) : List Mark → Desk → Prop where
  | opening : Visits setup [] ⟨[], initial⟩
  | visit {marks mark desk next} : Visits setup marks desk → Visit setup desk mark next →
      Visits setup (marks ++ [mark]) next

namespace Mark

/-- A look-up has found an entry. -/
def found : Mark → Bool
  | find _ hit | look _ hit => hit
  | allocate .. | supply .. | task _ | aside => false

/-- There was an entry already. -/
def met : Mark → Bool
  | allocate _ made => !made
  | supply _ job => job.isNone
  | find .. | look .. | task _ | aside => false

/-- The key that an entry was asked for. -/
def allocates? : Mark → Option CacheKey
  | allocate key _ | supply key _ => some key
  | find .. | look .. | task _ | aside => none

/-- The key of a new entry. -/
def enters? : Mark → Option CacheKey
  | allocate key made => if made then some key else none
  | supply key job => if job.isSome then some key else none
  | find .. | look .. | task _ | aside => none

/-- A call has begun. -/
def begins : Mark → Bool
  | look .. => true
  | find .. | allocate .. | supply .. | task _ | aside => false

/-- A call has found an entry, or has done the rest. -/
def ends : Mark → Bool
  | look _ hit => hit
  | supply .. => true
  | find .. | allocate .. | task _ | aside => false

/-- Not part of a call, and counted. -/
def alone : Mark → Bool
  | find _ hit => hit
  | allocate .. => true
  | look .. | supply .. | task _ | aside => false

/-- Somebody has made an entry without being part of a call. -/
def bare : Mark → Bool
  | allocate _ made => made
  | find .. | look .. | supply .. | task _ | aside => false

/-- The task that was given out. -/
def orders? : Mark → Option Job
  | supply _ job => job
  | find .. | allocate .. | look .. | task _ | aside => none

/-- The compilation that was run. Tasks that are not put off run when they are given out. -/
def runs? (setup : Setup) : Mark → Option Job
  | supply _ job => if setup.inline then job else none
  | task job => job.filter (·.compiles?.isSome)
  | find .. | allocate .. | look .. | aside => none

/-- Whatever is counted as a hit or makes an entry is an end of a call or stands alone. -/
theorem counted (marks : List Mark) :
    marks.countP found + marks.countP met + (marks.filterMap enters?).length =
      marks.countP alone + marks.countP ends := by
  induction marks with
  | nil => rfl
  | cons mark marks ih =>
    simp only [List.countP_cons, List.filterMap_cons]
    cases mark with
    | find key hit | look key hit => cases hit <;> simp [found, met, enters?, alone, ends] <;> omega
    | allocate key made => cases made <;> simp [found, met, enters?, alone, ends] <;> omega
    | supply key job => cases job <;> simp [found, met, enters?, alone, ends] <;> omega
    | task | aside => simpa [found, met, enters?, alone, ends] using ih

theorem allocates_of_enters {mark : Mark} {key : CacheKey} (entered : mark.enters? = some key) :
    mark.allocates? = some key := by
  cases mark with
  | allocate other made =>
    cases made <;> cases entered
    rfl
  | supply other job =>
    cases job <;> cases entered
    rfl
  | find | look | task | aside => cases entered

/-- Entries come with a task, unless they were made outside of calls. -/
theorem ordered (marks : List Mark) :
    (marks.filterMap enters?).length = (marks.filterMap orders?).length + marks.countP bare := by
  induction marks with
  | nil => rfl
  | cons mark marks ih =>
    simp only [List.countP_cons, List.filterMap_cons]
    cases mark with
    | allocate key made => cases made <;> simp [enters?, orders?, bare] <;> omega
    | supply key job => cases job <;> simp [enters?, orders?, bare] <;> omega
    | find | look | task | aside => simpa [enters?, orders?, bare] using ih

/-- A mark counts once at most. -/
theorem counted_le (marks : List Mark) : marks.countP found + marks.countP met +
    (marks.filterMap enters?).length ≤ marks.length := by
  induction marks with
  | nil => exact Nat.le_refl 0
  | cons mark marks ih =>
    simp only [List.countP_cons, List.filterMap_cons, List.length_cons]
    cases mark with
    | find key hit | look key hit => cases hit <;> simp [found, met, enters?] <;> omega
    | allocate key made => cases made <;> simp [found, met, enters?] <;> omega
    | supply key job => cases job <;> simp [found, met, enters?] <;> omega
    | task | aside => simp [found, met, enters?]; omega

end Mark

/-! ## Accounts -/

def Books.keys (books : Books) : List CacheKey := books.cache.entries.map Prod.fst

/-- The books, and the number of calls that have still to do the rest, change as the mark says. -/
structure Mark.Charges (setup : Setup) (mark : Mark) (before : Books) (waiting : Nat) (after : Books) (left : Nat) :
    Prop where
  keys : after.keys = before.keys ++ mark.enters?.toList
  fresh : ∀ key, mark.enters? = some key → key ∉ before.keys
  known : ∀ key, mark.allocates? = some key → key ∈ after.keys
  hits : after.cache.hits = before.cache.hits + mark.found.toNat + mark.met.toNat
  misses : after.cache.misses = before.cache.misses + mark.enters?.toList.length
  calls : waiting + mark.begins.toNat = left + mark.ends.toNat
  compilations : after.cache.compilations = before.cache.compilations + mark.orders?.toList.length
  tasks : (before.waiting ++ mark.orders?.toList).Perm ((mark.runs? setup).toList ++ after.waiting)
  failures : after.cache.failures = before.cache.failures + (mark.runs? setup).toList.countP (·.fails setup)
  called : after.called = ((mark.runs? setup).bind (·.notice? setup)).toList ++ before.called

theorem mem_keys_iff {world : EngineWorld} {key : CacheKey} :
    key ∈ (World.books world).keys ↔ world.outer.cache.lookup key ≠ none := by
  unfold Books.keys Cache.lookup
  rw [Ne, List.lookup_eq_none_iff]
  simp only [World.books, List.mem_map, bne_iff_ne, not_forall, not_not]
  exact ⟨fun ⟨entry, member, same⟩ => ⟨entry, member, same.symm⟩,
    fun ⟨entry, member, same⟩ => ⟨entry, member, same.symm⟩⟩

section Charges

variable {setup : Setup} {world next : EngineWorld} {books : Books} {waiting : Nat} {key : CacheKey}

/-- Nothing to write down. -/
theorem charges_silent {mark : Mark} (silent : mark = .aside ∨ mark = .task none ∨ ∃ key, mark = .find key false) :
    mark.Charges setup books waiting books waiting := by
  rcases silent with rfl | rfl | ⟨key, rfl⟩ <;>
    exact {
      keys := (List.append_nil _).symm, fresh := nofun, known := nofun, hits := rfl, misses := rfl, calls := rfl
      compilations := rfl, tasks := by simp [Mark.orders?, Mark.runs?], failures := rfl, called := rfl }

/-- An entry was there, and somebody got its cell. -/
theorem charges_hit {mark : Mark} {left : Nat} (stored : key ∈ books.keys)
    (calls : waiting + mark.begins.toNat = left + mark.ends.toNat)
    (hit : mark = .find key true ∨ mark = .look key true ∨ mark = .allocate key false ∨ mark = .supply key none) :
    mark.Charges setup books waiting books.hit left := by
  have met (other : CacheKey) (asked : mark.allocates? = some other) : other ∈ books.hit.keys := by
    rcases hit with rfl | rfl | rfl | rfl <;> cases asked <;> exact stored
  rcases hit with rfl | rfl | rfl | rfl <;>
    exact {
      keys := (List.append_nil _).symm, fresh := nofun, known := met, hits := rfl, misses := rfl, calls
      compilations := rfl, tasks := by simp [Mark.orders?, Mark.runs?, Books.hit]
      failures := by simp [Mark.runs?, Books.hit, Cache.recordHit]
      called := by simp [Mark.runs?, Books.hit] }

theorem charges_enter (cell : CellId) (missing : key ∉ books.keys) :
    (Mark.allocate key true).Charges setup books waiting (books.enter key cell) waiting where
  keys := List.map_append ..
  fresh _ same := by cases same; exact missing
  known _ same := by cases same; simp [Books.keys, Books.enter, Cache.insert]
  hits := rfl
  misses := rfl
  calls := rfl
  compilations := rfl
  tasks := by simp [Mark.orders?, Mark.runs?, Books.enter]
  failures := rfl
  called := rfl

/-- A new entry comes with a task, which waits or has run. -/
theorem charges_supply (cell : CellId) (compilation : Compilation) (missing : key ∉ books.keys) :
    let job : Job := .compile key cell compilation
    (Mark.supply key (some job)).Charges setup books (waiting + 1)
      (if setup.inline then ((books.enter key cell).order []).ran setup job else (books.enter key cell).order [job])
      waiting := by
  intro job
  have known (other : CacheKey) (same : (Mark.supply key (some job)).allocates? = some other) :
      other ∈ (books.enter key cell).keys := by
    cases same
    simp [Books.keys, Books.enter, Cache.insert]
  have fresh (other : CacheKey) (same : (Mark.supply key (some job)).enters? = some other) : other ∉ books.keys := by
    cases same
    exact missing
  have keys : (books.enter key cell).keys = books.keys ++ [key] := List.map_append
  -- Inline, the task is done before the caller goes on.
  split
  · rename_i now
    have runs : (Mark.supply key (some job)).runs? setup = some job := if_pos now
    constructor
    case fresh => exact fresh
    case keys =>
      simp only [Books.keys, Books.cache_ran]
      exact keys
    case known =>
      simp only [Books.keys, Books.cache_ran]
      exact known
    case hits | misses | compilations => rw [Books.cache_ran]; rfl
    case calls => rfl
    case tasks => simp [runs, Mark.orders?, Books.ran, Books.order, Books.enter]
    case failures =>
      rw [Books.cache_ran, runs]
      cases fails : job.fails setup <;> simp [fails, Books.order, Books.enter, Cache.recordCompilation, Cache.insert]
    case called =>
      rw [runs, Books.called_ran setup _ rfl]
      rfl
  · rename_i later
    have runs : (Mark.supply key (some job)).runs? setup = none := if_neg later
    constructor
    case fresh => exact fresh
    case keys => exact keys
    case known => exact known
    case hits | misses | compilations | calls => rfl
    case tasks => simp [runs, Mark.orders?, Books.order, Books.enter]
    case failures => simp [runs, Books.order, Books.enter, Cache.recordCompilation, Cache.insert]
    case called => simp [runs, Books.order, Books.enter]

/-- A task leaves the queue and runs. -/
theorem charges_task {place : Nat} {job : Job} (found : world.outer.queue[place]? = some job) :
    (Mark.task (some job)).Charges setup (World.books world) waiting
      ((World.books (World.withdraw world place)).ran setup job) waiting := by
  obtain ⟨before, after, whole, left⟩ := World.queue_withdraw found
  cases compiles : job.compiles? with
  | none =>
    have runs : (Mark.task (some job)).runs? setup = none := by simp [Mark.runs?, compiles]
    have same : World.books (World.withdraw world place) = World.books world := by
      unfold World.books
      rw [left, whole]
      simp only [List.filter_append, List.filter_cons, compiles]
      rfl
    rw [Books.ran_other setup _ compiles, same]
    exact {
      keys := (List.append_nil _).symm, fresh := nofun, known := nofun, hits := rfl, misses := rfl, calls := rfl
      compilations := rfl, tasks := by simp [Mark.orders?, runs], failures := by simp [runs], called := by simp [runs] }
  | some key =>
    have own : job.compiles?.isSome := by rw [compiles]; rfl
    have runs : (Mark.task (some job)).runs? setup = some job := by simp [Mark.runs?, compiles]
    constructor
    case fresh | known => exact nofun
    case keys => simp only [Books.keys, Books.cache_ran]; exact (List.append_nil _).symm
    case hits | misses | compilations => rw [Books.cache_ran]; rfl
    case calls => rfl
    case tasks =>
      rw [runs]
      simp only [World.books, Books.ran, whole, left, Mark.orders?, List.filter_append, List.filter_cons, own]
      simp
    case failures =>
      rw [Books.cache_ran, runs]
      cases fails : job.fails setup <;> simp [fails, World.books, World.withdraw]
    case called =>
      rw [runs, Books.called_ran setup _ own]
      rfl

end Charges

/-- What a visit does to the books is on its mark. -/
theorem Visit.charges {setup : Setup} {desk next : Desk} {mark : Mark} (visit : Visit setup desk mark next) :
    mark.Charges setup (World.books desk.world) desk.pending.length (World.books next.world) next.pending.length := by
  cases visit with
  | @find pending world key found next ran =>
    cases stored : world.outer.cache.lookup key with
    | none =>
      rw [find_apply, stored] at ran
      cases ran
      exact charges_silent (.inr (.inr ⟨key, rfl⟩))
    | some cell =>
      obtain ⟨after, hit, books⟩ := books_find_hit stored
      rw [hit] at ran
      cases ran
      rw [books]
      exact charges_hit (mem_keys_iff.2 (by simp [stored])) rfl (.inl rfl)
  | @allocate pending world key cell made next ran =>
    cases stored : world.outer.cache.lookup key with
    | none =>
      rw [allocate_miss stored] at ran
      cases ran
      rw [World.books_enter]
      exact charges_enter _ fun member => mem_keys_iff.1 member stored
    | some known =>
      obtain ⟨after, hit, books⟩ := books_allocate_hit stored
      rw [hit] at ran
      cases ran
      rw [books]
      exact charges_hit (mem_keys_iff.2 (by simp [stored])) rfl (.inr (.inr (.inl rfl)))
  -- A caller that misses here is on its way to `supply`.
  | @look pending world key compilation found next ran =>
    cases stored : world.outer.cache.lookup key with
    | none =>
      rw [find_apply, stored] at ran
      cases ran
      exact {
        keys := (List.append_nil _).symm, fresh := nofun, known := nofun, hits := rfl, misses := rfl
        calls := by simp [Mark.begins, Mark.ends], compilations := rfl, tasks := by simp [Mark.orders?, Mark.runs?]
        failures := rfl, called := rfl }
    | some cell =>
      obtain ⟨after, hit, books⟩ := books_find_hit stored
      rw [hit] at ran
      cases ran
      rw [books]
      exact charges_hit (mem_keys_iff.2 (by simp [stored])) (by simp [Mark.begins, Mark.ends]) (.inr (.inl rfl))
  | @supply pending world place key compilation reply next asked ran =>
    have reached : next = (Engine.supply setup key compilation world).2 := by rw [ran]
    have inside := (List.getElem?_eq_some_iff.1 asked).1
    have fewer : (pending.eraseIdx place).length + 1 = pending.length := by
      rw [List.length_eraseIdx_of_lt inside]
      omega
    cases stored : world.outer.cache.lookup key with
    | none =>
      rw [reached, supply_miss compilation stored, ← fewer]
      exact charges_supply _ compilation fun member => mem_keys_iff.1 member stored
    | some cell =>
      rw [reached, supply_hit compilation stored, ← fewer]
      exact charges_hit (mem_keys_iff.2 (by simp [stored])) rfl (.inr (.inr (.inr rfl)))
  | @task pending world place reply next ran =>
    have reached : next = (runAt setup place world).2 := by rw [ran]
    cases found : world.outer.queue[place]? with
    | none =>
      rw [reached, runAt_vacant setup found]
      exact charges_silent (.inr (.inl rfl))
    | some job =>
      rw [reached, runAt_books found]
      exact charges_task found
  | reject invalid ran =>
    rw [compileRequest_invalid setup _ invalid] at ran
    cases ran
    exact charges_silent (.inl rfl)
  | @other pending world next operation reply aside ran =>
    have same : World.books next = World.books world := by
      rw [← Operation.leaves_books aside setup world, ran]
    rw [same]
    exact charges_silent (.inl rfl)

/-- The books against all marks so far. -/
structure Balanced (setup : Setup) (marks : List Mark) (books : Books) (waiting : Nat) : Prop where
  keys : books.keys = marks.filterMap Mark.enters?
  nodup : books.keys.Nodup
  known : ∀ key ∈ marks.filterMap Mark.allocates?, key ∈ books.keys
  hits : books.cache.hits = marks.countP Mark.found + marks.countP Mark.met
  misses : books.cache.misses = books.keys.length
  calls : marks.countP Mark.begins = waiting + marks.countP Mark.ends
  compilations : books.cache.compilations = (marks.filterMap Mark.orders?).length
  tasks : (marks.filterMap Mark.orders?).Perm (marks.filterMap (Mark.runs? setup) ++ books.waiting)
  failures : books.cache.failures = (marks.filterMap (Mark.runs? setup)).countP (·.fails setup)
  called : books.called = ((marks.filterMap (Mark.runs? setup)).filterMap (·.notice? setup)).reverse

section Runs

variable {setup : Setup} {marks : List Mark} {mark : Mark}

theorem filterMap_snoc {α : Type} (pick : Mark → Option α) (marks : List Mark) (mark : Mark) :
    (marks ++ [mark]).filterMap pick = marks.filterMap pick ++ (pick mark).toList := by
  rw [List.filterMap_append, List.filterMap_cons]
  cases pick mark <;> rfl

theorem countP_snoc (test : Mark → Bool) (marks : List Mark) (mark : Mark) :
    (marks ++ [mark]).countP test = marks.countP test + (test mark).toNat := by
  rw [List.countP_append, List.countP_singleton]
  cases test mark <;> rfl

theorem Balanced.charge {before after : Books} {waiting left : Nat} (balanced : Balanced setup marks before waiting)
    (charges : mark.Charges setup before waiting after left) : Balanced setup (marks ++ [mark]) after left where
  keys := by rw [charges.keys, balanced.keys, filterMap_snoc]
  nodup := by
    rw [charges.keys]
    cases entered : mark.enters? with
    | none => simpa using balanced.nodup
    | some key =>
      have fresh := charges.fresh key entered
      rw [Option.toList_some, ← List.concat_eq_append]
      exact balanced.nodup.concat fresh
  known key asked := by
    rw [filterMap_snoc, List.mem_append] at asked
    rcases asked with early | now
    · rw [charges.keys]
      exact List.mem_append_left _ (balanced.known key early)
    · exact charges.known key (Option.mem_toList.1 now)
  hits := by
    rw [charges.hits, balanced.hits, countP_snoc, countP_snoc]
    omega
  misses := by rw [charges.misses, charges.keys, List.length_append, balanced.misses]
  calls := by
    have total := balanced.calls
    have one := charges.calls
    rw [countP_snoc, countP_snoc]
    omega
  compilations := by rw [charges.compilations, filterMap_snoc, List.length_append, balanced.compilations]
  tasks := by
    rw [filterMap_snoc, filterMap_snoc, List.append_assoc]
    refine (balanced.tasks.append_right _).trans ?_
    rw [List.append_assoc]
    exact charges.tasks.append_left _
  failures := by rw [charges.failures, filterMap_snoc, List.countP_append, balanced.failures]
  called := by
    rw [charges.called, filterMap_snoc, List.filterMap_append, List.reverse_append, ← balanced.called]
    cases mark.runs? setup with
    | none => rfl
    | some job => cases noticed : job.notice? setup <;> simp [noticed]

theorem Visits.balanced {desk : Desk} (visits : Visits setup marks desk) :
    Balanced setup marks (World.books desk.world) desk.pending.length := by
  induction visits with
  | opening => exact ⟨rfl, .nil, by simp, rfl, rfl, rfl, rfl, .nil, rfl, rfl⟩
  | visit _ visit ih => exact ih.charge visit.charges

/-- The counters of the cache, and its entries and tasks, in terms of what was asked of it. -/
structure Exact (setup : Setup) (marks : List Mark) (desk : Desk) : Prop where
  entries : desk.world.outer.cache.entries.length = desk.world.outer.cache.misses
  misses : desk.world.outer.cache.misses = (marks.filterMap Mark.allocates?).dedup.length
  hits : desk.world.outer.cache.hits = marks.countP Mark.found + marks.countP Mark.met
  /-- Calls that are done count once each, those that are pending do not count yet. -/
  calls : desk.world.outer.cache.hits + desk.world.outer.cache.misses + desk.pending.length =
    marks.countP Mark.alone + marks.countP Mark.begins
  compilations : desk.world.outer.cache.compilations = (marks.filterMap Mark.orders?).length
  /-- What was enqueued has run or waits. -/
  tasks : (marks.filterMap Mark.orders?).Perm
    (marks.filterMap (Mark.runs? setup) ++ desk.world.outer.queue.filter (·.compiles?.isSome))
  atMost : desk.world.outer.cache.compilations ≤ desk.world.outer.cache.misses
  equal : (∀ key, .allocate key true ∉ marks) → desk.world.outer.cache.compilations = desk.world.outer.cache.misses
  failures : desk.world.outer.cache.failures = (marks.filterMap (Mark.runs? setup)).countP (·.fails setup)
  fewer : desk.world.outer.cache.failures ≤ desk.world.outer.cache.compilations
  /-- What has run has called its compilation, and nothing else has. -/
  called : (World.notices desk.world).filter (·.compiles?.isSome) =
    ((marks.filterMap (Mark.runs? setup)).filterMap (·.notice? setup)).reverse
  bounded : desk.world.outer.cache.hits + desk.world.outer.cache.misses ≤ marks.length

theorem Balanced.exact {desk : Desk} (balanced : Balanced setup marks (World.books desk.world) desk.pending.length) :
    Exact setup marks desk := by
  have keys : (World.books desk.world).keys.length = desk.world.outer.cache.entries.length := List.length_map ..
  have entered := congrArg List.length balanced.keys
  have counted := Mark.counted marks
  have ordered := Mark.ordered marks
  have misses : desk.world.outer.cache.misses = (World.books desk.world).keys.length := balanced.misses
  have hits : desk.world.outer.cache.hits = marks.countP Mark.found + marks.countP Mark.met := balanced.hits
  have calls := balanced.calls
  have compilations : desk.world.outer.cache.compilations = (marks.filterMap Mark.orders?).length :=
    balanced.compilations
  have failures : desk.world.outer.cache.failures =
    (marks.filterMap (Mark.runs? setup)).countP (·.fails setup) := balanced.failures
  constructor
  case entries => omega
  case misses =>
    rw [misses]
    refine List.Perm.length_eq ((List.perm_ext_iff_of_nodup balanced.nodup (List.nodup_dedup _)).2 fun key => ?_)
    rw [List.mem_dedup]
    refine ⟨fun entered => ?_, balanced.known key⟩
    rw [balanced.keys] at entered
    obtain ⟨mark, member, made⟩ := List.mem_filterMap.1 entered
    exact List.mem_filterMap.2 ⟨mark, member, Mark.allocates_of_enters made⟩
  case hits => exact hits
  case calls => omega
  case compilations => exact compilations
  case tasks => exact balanced.tasks
  case atMost => omega
  case equal =>
    intro never
    have bare : marks.countP Mark.bare = 0 := List.countP_eq_zero.2 fun mark member bare => by
      cases mark with
      | allocate key made => exact never key (by rwa [← show made = true from bare])
      | find | look | supply | task | aside => cases bare
    omega
  case failures => exact failures
  case fewer =>
    have ran := balanced.tasks.length_eq
    have some := List.countP_le_length (p := (·.fails setup)) (l := marks.filterMap (Mark.runs? setup))
    rw [List.length_append] at ran
    omega
  case called => exact balanced.called
  case bounded =>
    have little := Mark.counted_le marks
    omega

/-- A call that nobody comes between is a visit, or two. -/
theorem Visits.getOrCompile {pending : List (CacheKey × Compilation)} {world next : EngineWorld} {key : CacheKey}
    {compilation : Compilation} {reply : Except Interrupt CellId} (visits : Visits setup marks ⟨pending, world⟩)
    (ran : getOrCompile setup key compilation world = (reply, next)) :
    ∃ more, Visits setup (marks ++ more) ⟨pending, next⟩ ∧
      more.countP Mark.begins = 1 ∧ more.countP Mark.alone = 0 := by
  have looks := find_apply world key
  cases stored : world.outer.cache.lookup key with
  | some cell =>
    rw [stored] at looks
    rw [getOrCompile_hit setup compilation stored] at ran
    cases ran
    have looked : Visits setup (marks ++ [.look key true]) ⟨pending ++ [], _⟩ :=
      visits.visit (@Visit.look setup _ _ _ compilation _ _ looks)
    rw [List.append_nil] at looked
    exact ⟨_, looked, rfl, rfl⟩
  | none =>
    rw [stored] at looks
    rw [getOrCompile_eq, Act.bind_ok looks] at ran
    have looked : Visits setup (marks ++ [.look key false]) ⟨pending ++ [(key, compilation)], world⟩ :=
      visits.visit (.look looks)
    have last : (pending ++ [(key, compilation)])[pending.length]? = some (key, compilation) :=
      List.getElem?_concat_length
    have supplied := looked.visit (.supply last ran)
    have done : (pending ++ [(key, compilation)]).eraseIdx pending.length = pending := by
      rw [List.eraseIdx_append_of_length_le (Nat.le_refl _), Nat.sub_self]
      exact List.append_nil _
    rw [done, List.append_assoc] at supplied
    exact ⟨_, supplied, rfl, rfl⟩

/-- After any visits the counters are exact. Calls that nobody comes between are visits as well; a valid request is
such a call, and one that is not valid leaves cache and queue as they are. -/
theorem cache_accounts {desk : Desk} (visits : Visits setup marks desk) :
    Exact setup marks desk ∧
    (∀ key compilation reply next, Engine.getOrCompile setup key compilation desk.world = (reply, next) →
      ∃ more, Visits setup (marks ++ more) ⟨desk.pending, next⟩ ∧
        more.countP Mark.begins = 1 ∧ more.countP Mark.alone = 0) ∧
    ∀ request : Request, match request.validate with
      | .ok () => compileRequest setup request =
          Engine.getOrCompile setup (request.key setup.config.keyPolicy) (.request request)
      | .error _ => ∀ world, (compileRequest setup request world).2.outer = world.outer ∧
          (compileRequest setup request world).2.history = world.history := by
  refine ⟨visits.balanced.exact, fun key compilation reply next ran => visits.getOrCompile ran, fun request => ?_⟩
  split
  · rename_i valid
    unfold compileRequest
    rw [valid]
  · rename_i fault invalid
    intro world
    rw [compileRequest_invalid setup world invalid]
    exact ⟨rfl, rfl⟩

/-- Two calls find nothing, the first of them makes the entry, and its task fails. -/
theorem cache_accounts_contested :
    let key : CacheKey := ⟨"main"⟩
    let compilation : Compilation := .given (.ok (.error (.compilation "unsupported")))
    let job : Job := .compile key 0 compilation
    let marks : List Mark :=
      [.look key false, .look key false, .supply key (some job), .supply key none, .task (some job)]
    ∃ desk, Visits failing marks desk ∧ Exact failing marks desk := by
  intro key compilation job marks
  let entered : EngineWorld := (supply failing key compilation initial).2
  let shared : EngineWorld := (supply failing key compilation entered).2
  have first : Visit failing ⟨[], initial⟩ (.look key false) ⟨[(key, compilation)], initial⟩ :=
    @Visit.look failing [] initial key compilation none initial rfl
  have second : Visit failing ⟨[(key, compilation)], initial⟩ (.look key false)
      ⟨[(key, compilation), (key, compilation)], initial⟩ :=
    @Visit.look failing _ initial key compilation none initial rfl
  have third : Visit failing ⟨[(key, compilation), (key, compilation)], initial⟩ (.supply key (some job))
      ⟨[(key, compilation)], entered⟩ :=
    @Visit.supply failing _ _ 0 key compilation _ _ rfl rfl
  have fourth : Visit failing ⟨[(key, compilation)], entered⟩ (.supply key none) ⟨[], shared⟩ :=
    @Visit.supply failing _ _ 0 key compilation _ _ rfl rfl
  have fifth : Visit failing ⟨[], shared⟩ (.task (some job)) ⟨[], _⟩ := @Visit.task failing _ _ 0 _ _ rfl
  have visits : Visits failing marks _ :=
    .visit (.visit (.visit (.visit (.visit .opening first) second) third) fourth) fifth
  exact ⟨_, visits, (cache_accounts visits).1⟩

end Runs

end DeferredJit.Engine
