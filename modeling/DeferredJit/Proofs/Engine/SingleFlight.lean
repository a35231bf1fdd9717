import DeferredJit.Proofs.Engine.Record
import DeferredJit.Proofs.Engine.Runs
import DeferredJit.Proofs.Engine.Service

/-! The cache over whole runs: every entry has one compilation, of the first request for its key. -/

set_option autoImplicit false

namespace DeferredJit.Engine

open Async (CellId Moment Routine Steps)

/-! ## Compilations on record -/

def compilationOf : Async.Event Payload Notice → Option (CacheKey × Request)
  | .noted notice => notice.compiled?
  | .registered .. | .ran .. | .opened _ | .converted _ => none

/-- What the compiler was called for, newest first. -/
def World.compilations (world : EngineWorld) : List (CacheKey × Request) :=
  world.history.filterMap compilationOf

/-- The requests that the compiler got for a key. -/
def World.compiledFor (world : EngineWorld) (key : CacheKey) : List Request :=
  ((World.compilations world).filter (·.1 == key)).map Prod.snd

theorem World.compilations_eq (world : EngineWorld) :
    World.compilations world = (World.notices world).filterMap Notice.compiled? := by
  unfold World.compilations World.notices
  rw [List.filterMap_filterMap]
  refine List.filterMap_congr fun event _ => ?_
  cases event <;> rfl

theorem World.compilations_congr {world next : EngineWorld} (same : World.notices next = World.notices world) :
    World.compilations next = World.compilations world := by
  rw [World.compilations_eq, World.compilations_eq, same]

theorem Adds.compilations {world next : EngineWorld} {scope : Scope} {budget : Nat}
    (adds : Adds scope world budget next) :
    World.compilations next = World.compilations world := by
  induction adds with
  | refl => rfl
  | tail _ step _ ih =>
    obtain ⟨more, same, none⟩ := step.notices
    rw [← ih, World.compilations_eq, World.compilations_eq, same, List.filterMap_append,
      List.filterMap_eq_nil_iff.2 none, List.nil_append]

theorem Adds.compile_mem {world next : EngineWorld} {scope : Scope} {budget : Nat}
    (adds : Adds scope world budget next) {key : CacheKey} {target : CellId} {compilation : Compilation}
    (member : .compile key target compilation ∈ next.outer.queue) :
    .compile key target compilation ∈ world.outer.queue := by
  obtain ⟨more, queue, new⟩ := adds.queue
  refine (List.mem_append.1 (queue ▸ member)).resolve_right fun late => ?_
  cases (new _ late).1

/-- What a task has the compiler compile. -/
def Job.compiling? : Job → Option (CacheKey × Request)
  | compile key _ (.request request) => some (key, request)
  | compile _ _ (.given _) | specialize .. | settle .. => none

theorem compilations_taken (setup : Setup) (world : EngineWorld) (place : Nat) (job : Job) :
    World.compilations (World.taken setup world place job) = job.compiling?.toList ++ World.compilations world := by
  have notices : World.notices (World.taken setup world place job) =
      (job.notice? setup).toList ++ World.notices world := World.notices_noted ..
  rw [World.compilations_eq, World.compilations_eq, notices, List.filterMap_append]
  congr 1
  cases job with
  | compile key target compilation => cases compilation <;> rfl
  | _ => rfl

theorem World.compiledFor_congr {world next : EngineWorld}
    (same : World.compilations next = World.compilations world) (key : CacheKey) :
    World.compiledFor next key = World.compiledFor world key := by
  unfold World.compiledFor
  rw [same]

/-! ## The invariant -/

/-- The cache, the tasks and the compilations on record belong together. -/
structure Ledger (asks : CacheKey → Request → Prop) (moment : EngineMoment) : Prop where
  served : ∀ entry ∈ moment.world.outer.cache.entries, Served .any moment entry.2
  keys : (moment.world.outer.cache.entries.map Prod.fst).Nodup
  cells : (moment.world.outer.cache.entries.map Prod.snd).Nodup
  jobs : ∀ entry ∈ moment.world.outer.cache.entries, ∀ job ∈ moment.world.outer.serving entry.2,
    ∃ request, job = .compile entry.1 entry.2 (.request request) ∧ asks entry.1 request
  /-- Nothing else is compiled. -/
  entered : ∀ key target compilation, .compile key target compilation ∈ moment.world.outer.queue →
    (key, target) ∈ moment.world.outer.cache.entries
  waiting : ∀ entry ∈ moment.world.outer.cache.entries, moment.world.outer.serving entry.2 ≠ [] →
    World.compiledFor moment.world entry.1 = []
  compiled : ∀ entry ∈ moment.world.outer.cache.entries, moment.world.outer.serving entry.2 = [] →
    ∃ request, asks entry.1 request ∧ World.compiledFor moment.world entry.1 = [request]
  unknown : ∀ key, key ∉ moment.world.outer.cache.entries.map Prod.fst →
    World.compiledFor moment.world key = []

/-- What the ledger has on one entry: the compilation is ahead, or has been made. -/
structure Booked (asks : CacheKey → Request → Prop) (world : EngineWorld) (entry : CacheKey × CellId) : Prop where
  jobs : ∀ job ∈ world.outer.serving entry.2,
    ∃ request, job = .compile entry.1 entry.2 (.request request) ∧ asks entry.1 request
  waiting : world.outer.serving entry.2 ≠ [] → World.compiledFor world entry.1 = []
  compiled : world.outer.serving entry.2 = [] →
    ∃ request, asks entry.1 request ∧ World.compiledFor world entry.1 = [request]

theorem Booked.congr {asks : CacheKey → Request → Prop} {world next : EngineWorld} {entry : CacheKey × CellId}
    (booked : Booked asks world entry) (serving : next.outer.serving entry.2 = world.outer.serving entry.2)
    (compiled : World.compiledFor next entry.1 = World.compiledFor world entry.1) : Booked asks next entry where
  jobs job due := booked.jobs job (serving ▸ due)
  waiting due := compiled.trans (booked.waiting (serving ▸ due))
  compiled idle := compiled ▸ booked.compiled (serving ▸ idle)

/-- Outside parties leave the cells of the cache alone, and make no entries. -/
structure Rules.Respectful (rules : Rules) : Prop where
  untouched : ∀ {world entry}, entry ∈ world.outer.cache.entries → ¬ rules.touches world entry.2
  closed : ¬ rules.caches

namespace Ledger

variable {setup : Setup} {rules : Rules} {asks : CacheKey → Request → Prop} {before after : EngineMoment}
  {world next : EngineWorld}

theorem booked (ledger : Ledger asks before) {entry : CacheKey × CellId}
    (member : entry ∈ before.world.outer.cache.entries) : Booked asks before.world entry :=
  ⟨ledger.jobs entry member, ledger.waiting entry member, ledger.compiled entry member⟩

/-- The cache stays as it is. -/
theorem of_booked (ledger : Ledger asks before)
    (entries : after.world.outer.cache.entries = before.world.outer.cache.entries)
    (served : ∀ entry ∈ before.world.outer.cache.entries, Served .any after entry.2)
    (booked : ∀ entry ∈ before.world.outer.cache.entries, Booked asks after.world entry)
    (queue : ∀ key target compilation, .compile key target compilation ∈ after.world.outer.queue →
      .compile key target compilation ∈ before.world.outer.queue)
    (unknown : ∀ key, key ∉ before.world.outer.cache.entries.map Prod.fst →
      World.compiledFor after.world key = World.compiledFor before.world key) : Ledger asks after where
  served := entries ▸ served
  keys := entries ▸ ledger.keys
  cells := entries ▸ ledger.cells
  jobs entry member := (booked entry (entries ▸ member)).jobs
  entered key target compilation member :=
    entries ▸ ledger.entered key target compilation (queue key target compilation member)
  waiting entry member := (booked entry (entries ▸ member)).waiting
  compiled entry member := (booked entry (entries ▸ member)).compiled
  unknown key missing := by
    rw [entries] at missing
    exact (unknown key missing).trans (ledger.unknown key missing)

/-- Nothing that concerns the cache is done. -/
theorem congr (ledger : Ledger asks before)
    (entries : after.world.outer.cache.entries = before.world.outer.cache.entries)
    (served : ∀ entry ∈ before.world.outer.cache.entries, Served .any after entry.2)
    (serving : ∀ entry ∈ before.world.outer.cache.entries,
      after.world.outer.serving entry.2 = before.world.outer.serving entry.2)
    (queue : ∀ key target compilation, .compile key target compilation ∈ after.world.outer.queue →
      .compile key target compilation ∈ before.world.outer.queue)
    (compilations : World.compilations after.world = World.compilations before.world) : Ledger asks after :=
  ledger.of_booked entries served
    (fun entry member => (ledger.booked member).congr (serving entry member) (World.compiledFor_congr compilations _))
    queue fun key _ => World.compiledFor_congr compilations key

theorem adds {duties : List EngineDuty} {scope : Scope} {budget : Nat} (ledger : Ledger asks ⟨duties, world⟩)
    (ready : Ready world) (adds : Adds scope world budget next) : Ledger asks ⟨duties, next⟩ := by
  exact ledger.congr adds.entries (fun entry member => (ledger.served entry member).adds ready adds)
    (fun entry member => adds.serving (ledger.served entry member).lt_size) (fun _ _ _ => adds.compile_mem)
    adds.compilations

/-- The compilation of a new entry is in the queue. -/
theorem enter {key : CacheKey} {request : Request} (ledger : Ledger asks ⟨[], world⟩) (fit : Fit ⟨[], world⟩)
    (kept : ∀ entry ∈ world.outer.cache.entries,
      Served .any ⟨[], World.enter world key (some (.request request))⟩ entry.2)
    (missing : world.outer.cache.lookup key = none) (asked : asks key request) :
    Ledger asks ⟨[], World.enter world key (some (.request request))⟩ := by
  obtain ⟨servedNew, servingNew⟩ : Served .any _ _ ∧ _ := served_enter fit key (.request request) trivial
  have fresh : key ∉ world.outer.cache.entries.map Prod.fst := by
    intro among
    obtain ⟨entry, member, same⟩ := List.mem_map.1 among
    have apart := List.lookup_eq_none_iff.1 missing entry member
    simp [same] at apart
  have entries : (World.enter world key (some (.request request))).outer.cache.entries =
      world.outer.cache.entries ++ [(key, world.store.cells.size)] := rfl
  have booked : ∀ entry ∈ (World.enter world key (some (.request request))).outer.cache.entries,
      Served .any ⟨[], World.enter world key (some (.request request))⟩ entry.2 ∧
        Booked asks (World.enter world key (some (.request request))) entry := by
    intro entry member
    rcases List.mem_append.1 member with old | new
    · exact ⟨kept entry old, (ledger.booked old).congr (World.serving_enter (fit.tidy.entries entry old) key _) rfl⟩
    · rw [List.mem_singleton.1 new]
      refine ⟨servedNew, fun job due => ?_, fun _ => ledger.unknown key fresh, fun idle => ?_⟩
      · rw [servingNew] at due
        exact ⟨request, List.mem_singleton.1 due, asked⟩
      · rw [servingNew] at idle
        cases idle
  -- Key and cell are new, so both stay distinct.
  refine ⟨fun entry member => (booked entry member).1, ?_, ?_, fun entry member => (booked entry member).2.jobs, ?_,
    fun entry member => (booked entry member).2.waiting, fun entry member => (booked entry member).2.compiled, ?_⟩
  · rw [entries, List.map_append]
    refine List.nodup_append.2 ⟨ledger.keys, List.nodup_singleton _, ?_⟩
    rintro first member second among rfl
    rw [List.mem_singleton.1 among] at member
    exact fresh member
  · rw [entries, List.map_append]
    refine List.nodup_append.2 ⟨ledger.cells, List.nodup_singleton _, ?_⟩
    rintro first member second among rfl
    obtain ⟨entry, there, same⟩ := List.mem_map.1 member
    have inside := fit.tidy.entries entry there
    rw [same, List.mem_singleton.1 among] at inside
    exact absurd inside (Nat.lt_irrefl _)
  · intro other target compilation member
    rw [entries]
    rcases List.mem_append.1 member with before | new
    · exact List.mem_append_left _ (ledger.entered other target compilation before)
    · cases List.mem_singleton.1 new
      exact List.mem_append_right _ List.mem_cons_self
  · intro other absent
    refine ledger.unknown other fun among => absent ?_
    rw [entries, List.map_append]
    exact List.mem_append_left _ among

/-- A task leaves the queue; the compiler is called if it is a compilation. -/
theorem take {place : Nat} {job : Job} {outcome : Outcome Payload} (ledger : Ledger asks ⟨[], world⟩)
    (fit : Fit ⟨[], world⟩) (found : world.outer.queue[place]? = some job)
    (ran : prepared setup job (World.withdraw world place) = (.ok outcome, next)) :
    Ledger asks ⟨[.give job.target outcome], next⟩ := by
  obtain ⟨adds, -⟩ := fit.prepares found ran
  have among := List.mem_of_getElem? found
  have entries : next.outer.cache.entries = world.outer.cache.entries := by rw [adds.entries, World.outer_taken]
  have served : ∀ entry ∈ world.outer.cache.entries, Served .any ⟨[.give job.target outcome], next⟩ entry.2 :=
    fun entry member => (ledger.served entry member).take (Errand.sound_any setup) fit found ran
  have aside {entry : CacheKey × CellId} (member : entry ∈ world.outer.cache.entries) (apart : ¬ job.target = entry.2) :
      next.outer.serving entry.2 = world.outer.serving entry.2 := by
    have taken := World.serving_taken setup found entry.2
    rw [if_neg apart] at taken
    have old : entry.2 < (World.taken setup world place job).store.cells.size := by
      rw [World.store_taken]
      exact (ledger.served entry member).lt_size
    exact (adds.serving old).trans taken
  have kept : ∀ key target compilation, .compile key target compilation ∈ next.outer.queue →
      .compile key target compilation ∈ world.outer.queue := by
    intro key target compilation member
    have left := adds.compile_mem member
    rw [World.outer_taken] at left
    exact List.mem_of_mem_eraseIdx left
  have compilations : World.compilations next = job.compiling?.toList ++ World.compilations world :=
    adds.compilations.trans (compilations_taken ..)
  by_cases own : ∃ entry ∈ world.outer.cache.entries, job.target = entry.2
  · -- The task is the one of an entry, so it compiles the request for it.
    obtain ⟨entry, member, target⟩ := own
    have due : job ∈ world.outer.serving entry.2 := State.mem_serving.2 ⟨among, target⟩
    obtain ⟨request, rfl, asked⟩ := ledger.jobs entry member job due
    have compiledFor (key : CacheKey) : World.compiledFor next key =
        (if entry.1 = key then [request] else []) ++ World.compiledFor world key := by
      unfold World.compiledFor
      rw [compilations]
      by_cases same : entry.1 = key <;> simp [Job.compiling?, same]
    have gone : next.outer.serving entry.2 = [] := by
      cases (served entry member).flight with
      | queued _ _ _ away => exact absurd List.mem_cons_self (away outcome)
      | landing _ none => exact none
      | landed _ none => exact none
    refine ledger.of_booked entries served (fun other there => ?_) kept fun key absent => ?_
    · by_cases same : other = entry
      · rw [same]
        have waited : World.compiledFor world entry.1 = [] := ledger.waiting entry member (List.ne_nil_of_mem due)
        refine ⟨fun job late => ?_, fun busy => absurd gone busy, fun _ => ⟨request, asked, ?_⟩⟩
        · rw [gone] at late
          cases late
        · rw [compiledFor, if_pos rfl, waited, List.append_nil]
      · have cell : ¬ entry.2 = other.2 := fun shared =>
          same (List.inj_on_of_nodup_map ledger.cells there member shared.symm)
        have key : ¬ entry.1 = other.1 := fun shared =>
          same (List.inj_on_of_nodup_map ledger.keys there member shared.symm)
        refine (ledger.booked there).congr (aside there cell) ?_
        rw [compiledFor, if_neg key, List.nil_append]
    · have apart : ¬ entry.1 = key := by
        rintro rfl
        exact absent (List.mem_map_of_mem member)
      rw [compiledFor, if_neg apart, List.nil_append]
  · have apart {entry : CacheKey × CellId} (member : entry ∈ world.outer.cache.entries) :
        ¬ job.target = entry.2 := fun same => own ⟨entry, member, same⟩
    have nothing : job.compiling? = none := by
      cases job with
      | compile key target compilation => exact absurd rfl (apart (ledger.entered key target compilation among))
      | specialize => rfl
      | settle => rfl
    refine ledger.congr entries served (fun entry member => aside member (apart member)) kept ?_
    rw [compilations, nothing]
    rfl

theorem step (ledger : Ledger rules.asks before) (fit : Fit before) (respectful : rules.Respectful)
    (step : Step setup rules before after) : Ledger rules.asks after := by
  have served : ∀ entry ∈ before.world.outer.cache.entries, Served .any after entry.2 := fun entry member =>
    (ledger.served entry member).step (Errand.sound_any setup) fit (respectful.untouched member) step
  cases step with
  | routine step =>
    have outer := Fit.outer_routine step
    exact ledger.congr (by rw [outer]) served (fun _ _ => by rw [outer])
      (fun _ _ _ member => outer ▸ member) (World.compilations_congr (notices_routine step))
  | stage ran =>
    have proceeds := fit.proceeds ran
    have added := ledger.adds fit.ready proceeds.adds
    exact added.congr rfl (fun entry member => served entry (proceeds.adds.entries ▸ member))
      (fun _ _ => rfl) (fun _ _ _ member => member) rfl
  | falter => exact ledger.congr rfl served (fun _ _ => rfl) (fun _ _ _ member => member) rfl
  | settle => exact ledger.congr rfl served (fun _ _ => rfl) (fun _ _ _ member => member) rfl
  | link => exact ledger.congr rfl served (fun _ _ => rfl) (fun _ _ _ member => member) rfl
  | observe => exact ledger.congr rfl served (fun _ _ => rfl) (fun _ _ _ member => member) rfl
  | grow adds => exact ledger.adds fit.ready adds
  | enter missing allowed =>
    rcases allowed with opened | ⟨request, rfl, asked⟩
    · exact absurd opened respectful.closed
    · exact ledger.enter fit served missing asked
  | take found ran => exact ledger.take fit found ran

theorem steps (ledger : Ledger rules.asks before) (fit : Fit before) (respectful : rules.Respectful)
    (steps : Steps (Step setup rules) before after) : Ledger rules.asks after :=
  fit.carry (Ledger rules.asks) steps ledger fun step fit ledger => ledger.step fit respectful step

end Ledger

/-! ## Entries and tasks that stay -/

section Stays

variable {setup : Setup} {rules : Rules} {before after : EngineMoment} {world next : EngineWorld}

/-- Entries are only added. -/
theorem Step.entries (step : Step setup rules before after) (fit : Fit before) :
    ∃ more, after.world.outer.cache.entries = before.world.outer.cache.entries ++ more := by
  cases step with
  | routine step => exact ⟨[], by rw [Fit.outer_routine step, List.append_nil]⟩
  | stage ran =>
    have proceeds := fit.proceeds ran
    exact ⟨[], by rw [proceeds.adds.entries, List.append_nil]⟩
  | grow adds => exact ⟨[], by rw [adds.entries, List.append_nil]⟩
  | enter => exact ⟨_, rfl⟩
  | take found ran =>
    have adds := (fit.prepares found ran).1
    exact ⟨[], by rw [adds.entries, World.outer_taken, List.append_nil]⟩
  | _ => exact ⟨[], (List.append_nil _).symm⟩

theorem entries_steps (steps : Steps (Step setup rules) before after) (fit : Fit before) :
    ∃ more, after.world.outer.cache.entries = before.world.outer.cache.entries ++ more := by
  refine fit.carry (fun moment => ∃ more, moment.world.outer.cache.entries = before.world.outer.cache.entries ++ more)
    steps ⟨[], (List.append_nil _).symm⟩ fun step fit held => ?_
  obtain ⟨more, same⟩ := held
  obtain ⟨others, further⟩ := step.entries fit
  exact ⟨more ++ others, by rw [further, same, List.append_assoc]⟩

theorem lookup_steps {key : CacheKey} {cell : CellId} (steps : Steps (Step setup rules) before after)
    (fit : Fit before) (found : before.world.outer.cache.lookup key = some cell) :
    after.world.outer.cache.lookup key = some cell := by
  obtain ⟨more, same⟩ := entries_steps steps fit
  unfold Cache.lookup at found ⊢
  rw [same, List.lookup_append, found]
  rfl

/-- New tasks are for new cells. -/
theorem Step.queue (step : Step setup rules before after) (fit : Fit before) :
    ∀ job ∈ after.world.outer.queue,
      job ∈ before.world.outer.queue ∨ before.world.store.cells.size ≤ job.target := by
  have added {world next : EngineWorld} {scope : Scope} {budget : Nat} (adds : Adds scope world budget next) :
      ∀ job ∈ next.outer.queue, job ∈ world.outer.queue ∨ world.store.cells.size ≤ job.target := by
    obtain ⟨more, same, new⟩ := adds.queue
    intro job member
    rw [same] at member
    exact (List.mem_append.1 member).imp_right fun late => (new job late).2.1
  intro job member
  cases step with
  | routine step => exact .inl (Fit.outer_routine step ▸ member)
  | stage ran =>
    have proceeds := fit.proceeds ran
    exact added proceeds.adds job member
  | grow adds => exact added adds job member
  | enter =>
    refine (List.mem_append.1 member).imp_right fun new => ?_
    obtain ⟨compilation, -, rfl⟩ := Option.map_eq_some_iff.1 (Option.mem_toList.1 new)
    exact Nat.le_refl _
  | take found ran =>
    have late := added (fit.prepares found ran).1 job member
    rw [World.outer_taken, World.store_taken] at late
    exact late.imp_left List.mem_of_mem_eraseIdx
  | _ => exact .inl member

/-- A cell without a task gets none. -/
theorem serving_steps {cell : CellId} (steps : Steps (Step setup rules) before after) (fit : Fit before)
    (inside : cell < before.world.store.cells.size) (idle : before.world.outer.serving cell = []) :
    after.world.outer.serving cell = [] := by
  have kept : Fit after ∧ cell < after.world.store.cells.size ∧ after.world.outer.serving cell = [] := by
    induction steps with
    | refl => exact ⟨fit, inside, idle⟩
    | tail _ step ih =>
      obtain ⟨fit, inside, idle⟩ := ih
      refine ⟨fit.step step, Nat.lt_of_lt_of_le inside (step.keeps fit).size_le, ?_⟩
      refine List.eq_nil_iff_forall_not_mem.2 fun job member => ?_
      obtain ⟨among, target⟩ := State.mem_serving.1 member
      rcases step.queue fit job among with old | young
      · exact List.not_mem_nil (idle ▸ State.mem_serving.2 ⟨old, target⟩)
      · exact absurd inside (Nat.not_lt.2 (target ▸ young))
  exact kept.2.2

end Stays

theorem ledger_initial (asks : CacheKey → Request → Prop) : Ledger asks ⟨[], initial⟩ where
  served _ member := by cases member
  keys := .nil
  cells := .nil
  jobs _ member := by cases member
  entered _ _ _ member := by cases member
  waiting _ member := by cases member
  compiled _ member := by cases member
  unknown _ _ := rfl

/-! ## Runs -/

/-- Outside parties may do everything but resolve or link handles of the cache and make entries. -/
def Rules.undisturbed (asks : CacheKey → Request → Prop) : Rules where
  panics := True
  touches world id := ∀ entry ∈ world.outer.cache.entries, entry.2 ≠ id
  asks
  caches := False
  calls := True

theorem Rules.respectful_undisturbed (asks : CacheKey → Request → Prop) :
    (Rules.undisturbed asks).Respectful where
  untouched member allowed := allowed _ member rfl
  closed := id

theorem Operation.Allowed.undisturbed {asks others : CacheKey → Request → Prop} {world : EngineWorld}
    {operation : Operation} (allowed : operation.Allowed (.undisturbed asks) world) :
    operation.Allowed (.undisturbed others) world := by
  cases operation <;> exact allowed

/-- Any requests. -/
abbrev Rules.alone : Rules := .undisturbed fun _ _ => True

/-- The first valid request for a key. -/
def firstRequest (policy : KeyPolicy) (operations : List Operation) (key : CacheKey) : Option Request :=
  (operations.filterMap (·.asked? policy)).lookup key

theorem snd_discard {result : Type} (action : Run result) (world : EngineWorld) :
    ((Functor.discard action : Run PUnit) world).2 = (action world).2 := by
  have same : (Functor.discard action : Run PUnit) = action >>= fun _ => pure PUnit.unit := rfl
  rw [same, Act.bind_apply]
  rcases action world with ⟨_ | _, next⟩ <;> rfl

section Requests

variable {setup : Setup} {world : EngineWorld} {request : Request}

/-- A valid request returns the cell of its key, whatever happens to be done at once. -/
theorem compileRequest_returns (setup : Setup) (rules : Rules) (fit : Fit ⟨[], world⟩)
    (valid : request.validate = .ok ()) :
    ∃ cell next, compileRequest setup request world = (.ok cell, next) ∧
      next.outer.cache.lookup (request.key setup.config.keyPolicy) = some cell := by
  unfold compileRequest
  rw [valid]
  cases found : world.outer.cache.lookup (request.key setup.config.keyPolicy) with
  | some cell => exact ⟨cell, _, getOrCompile_hit setup (.request request) found, found⟩
  | none =>
    let asking : Rules := { rules with asks := fun _ _ => True }
    obtain ⟨next, made, steps⟩ := getOrCompile_makes (.request request) setup asking found
    have scheduled : Steps (Step setup asking) ⟨[], world⟩ _ :=
      scheduled_steps found (.inr ⟨request, rfl, trivial⟩)
    refine ⟨_, next, made, lookup_steps steps (fit.steps scheduled).1 ?_⟩
    have inserted := Cache.lookup_insert world.outer.cache (request.key setup.config.keyPolicy) world.store.cells.size
    rw [found] at inserted
    exact inserted

/-- A request for a known key only counts as a hit. -/
def World.hit (world : EngineWorld) : EngineWorld :=
  { world with outer := { world.outer with cache := world.outer.cache.recordHit } }

theorem compileRequest_hit {cell : CellId} (valid : request.validate = .ok ())
    (found : world.outer.cache.lookup (request.key setup.config.keyPolicy) = some cell) :
    compileRequest setup request world = (.ok cell, World.hit world) := by
  unfold compileRequest
  rw [valid]
  exact getOrCompile_hit setup (.request request) found

end Requests

/-- A run keeps the ledger of the requests that it is part of. -/
theorem Runs.ledger {setup : Setup} {world next : EngineWorld} {done operations all : List Operation}
    (run : Runs setup .alone world operations next) (part : done ++ operations <+: all)
    (fit : Fit ⟨[], world⟩)
    (ledger : Ledger (fun key request => firstRequest setup.config.keyPolicy all key = some request) ⟨[], world⟩)
    (known : ∀ key request, (key, request) ∈ done.filterMap (·.asked? setup.config.keyPolicy) →
      (world.outer.cache.lookup key).isSome) :
    Fit ⟨[], next⟩ ∧ world.store.Keeps next.store ∧
      Ledger (fun key request => firstRequest setup.config.keyPolicy all key = some request) ⟨[], next⟩ ∧
      ∀ key request, (key, request) ∈ (done ++ operations).filterMap (·.asked? setup.config.keyPolicy) →
        (next.outer.cache.lookup key).isSome := by
  let asks := fun key request => firstRequest setup.config.keyPolicy all key = some request
  induction run generalizing done with
  | nil => exact ⟨fit, .refl _, ledger, by simpa using known⟩
  | @cons world operation reply between operations next allowed ran calm later ih =>
    -- Whoever asks for a key that the cache does not know is the first to ask for it.
    have first {key : CacheKey} {request : Request}
        (asked : operation.asked? setup.config.keyPolicy = some (key, request))
        (missing : world.outer.cache.lookup key = none) : asks key request := by
      obtain ⟨rest, rfl⟩ := part
      have before : (done.filterMap (·.asked? setup.config.keyPolicy)).lookup key = none := by
        refine List.lookup_eq_none_iff.2 fun pair member => ?_
        have known := known pair.1 pair.2 member
        by_contra same
        have here : key = pair.1 := by simpa using same
        rw [← here, missing] at known
        cases known
      simp only [asks, firstRequest, List.append_assoc, List.filterMap_append, List.cons_append,
        List.filterMap_cons, asked, List.lookup_append, before, List.lookup_cons, beq_self_eq_true]
      rfl
    have steps : Steps (Step setup (.undisturbed asks)) ⟨[], world⟩ ⟨[], between⟩ :=
      (Operation.steps fit allowed.undisturbed (fun _ => trivial) first ran (.inl trivial)).2
    obtain ⟨fitBetween, keeps⟩ := fit.steps steps
    have ledgerBetween := ledger.steps fit (Rules.respectful_undisturbed asks) steps
    have knownBetween : ∀ key request,
        (key, request) ∈ (done ++ [operation]).filterMap (·.asked? setup.config.keyPolicy) →
          (between.outer.cache.lookup key).isSome := by
      intro key request member
      rw [List.filterMap_append] at member
      rcases List.mem_append.1 member with old | new
      · obtain ⟨cell, found⟩ := Option.isSome_iff_exists.1 (known key request old)
        rw [lookup_steps steps fit found]
        rfl
      · obtain ⟨same, among, asked⟩ := List.mem_filterMap.1 new
        rw [List.mem_singleton.1 among] at asked
        cases operation with
        | compile other =>
          simp only [Operation.asked?] at asked
          cases valid : other.validate with
          | error =>
            rw [valid] at asked
            cases asked
          | ok =>
            rw [valid] at asked
            cases asked
            obtain ⟨cell, after, returned, found⟩ := compileRequest_returns setup (.undisturbed asks) fit valid
            have performed := snd_discard (compileRequest setup request) world
            rw [returned] at performed
            have same : between = after := (congrArg Prod.snd ran).symm.trans performed
            rw [same, found]
            rfl
        | _ => cases asked
    obtain ⟨fitNext, keepsNext, ledgerNext, knownNext⟩ :=
      ih (by simpa using part) fitBetween ledgerBetween knownBetween
    exact ⟨fitNext, keeps.trans keepsNext, ledgerNext, by simpa using knownNext⟩

/-! ## Every entry is compiled once -/

/-- The entry waits for its one compilation, or has had it. -/
def Entered (world : EngineWorld) (entry : CacheKey × CellId) (request : Request) : Prop :=
  (world.store.state entry.2 = none ∧ World.compiledFor world entry.1 = [] ∧
    world.outer.serving entry.2 = [.compile entry.1 entry.2 (.request request)]) ∨
  ((world.store.state entry.2).isSome ∧ World.compiledFor world entry.1 = [request] ∧
    world.outer.serving entry.2 = [])

namespace Ledger

variable {asks : CacheKey → Request → Prop} {world : EngineWorld} {entry : CacheKey × CellId}

theorem entered_of_mem (ledger : Ledger asks ⟨[], world⟩) (sound : world.store.Sound)
    (member : entry ∈ world.outer.cache.entries) : ∃ request, asks entry.1 request ∧ Entered world entry request := by
  rcases (ledger.served entry member).settled_or_queued sound with
    ⟨pending, job, one, -⟩ | ⟨outcome, shown, none, -⟩
  · obtain ⟨request, rfl, asked⟩ := ledger.jobs entry member job (by rw [one]; exact List.mem_cons_self)
    have unheard := ledger.waiting entry member (by rw [one]; exact List.cons_ne_nil _ _)
    exact ⟨request, asked, .inl ⟨pending, unheard, one⟩⟩
  · obtain ⟨request, asked, compiled⟩ := ledger.compiled entry member none
    exact ⟨request, asked, .inr ⟨by rw [shown]; rfl, compiled, none⟩⟩

theorem mem_of_lookup {key : CacheKey} {cell : CellId} (found : world.outer.cache.lookup key = some cell) :
    (key, cell) ∈ world.outer.cache.entries := by
  obtain ⟨before, after, same, -⟩ := List.lookup_eq_some_iff.1 found
  rw [same]
  exact List.mem_append_right _ List.mem_cons_self

/-- The task of an entry resolves it. -/
theorem task_resolves {setup : Setup} (ledger : Ledger asks ⟨[], world⟩) (fit : Fit ⟨[], world⟩)
    (member : entry ∈ world.outer.cache.entries) {place : Nat} {job : Job}
    (found : world.outer.queue[place]? = some job) (target : job.target = entry.2) :
    (((Operation.task place).perform setup world).2.store.state entry.2).isSome := by
  let rules := Rules.undisturbed asks
  have performed : ((Operation.task place).perform setup world).2 =
      (roomy setup 0 (fun later => runJob setup later job) (World.withdraw world place)).2 := by
    refine (snd_discard (runAt setup place) world).trans ?_
    rw [runAt_apply setup found, Act.bind_apply]
    rcases roomy setup 0 (fun later => runJob setup later job) (World.withdraw world place) with ⟨_ | _, next⟩ <;> rfl
  rcases ran : roomy setup 0 (fun later => runJob setup later job) (World.withdraw world place) with ⟨reply, next⟩
  rw [performed, ran]
  obtain ⟨-, outcome, between, prepares, steps⟩ := job_steps rules fit found ran (.inl trivial)
  have taken : Step setup rules ⟨[], world⟩ ⟨[.give job.target outcome], between⟩ := .take found prepares
  have whole : Steps (Step setup rules) ⟨[], world⟩ ⟨[], next⟩ := .head taken steps
  have respectful := Rules.respectful_undisturbed asks
  have fitBetween := fit.step taken
  have there : entry ∈ next.outer.cache.entries := by
    obtain ⟨more, same⟩ := entries_steps whole fit
    exact same ▸ List.mem_append_left more member
  have served := (ledger.steps fit respectful whole).served entry there
  -- The one task for the cell has left the queue, and none is added later.
  have idle : between.outer.serving entry.2 = [] := by
    have served := (ledger.served entry member).take (Errand.sound_any setup) fit found prepares
    cases served.flight with
    | queued _ _ _ away => exact absurd (target ▸ List.mem_cons_self) (away outcome)
    | landing _ none => exact none
    | landed _ none => exact none
  have left := serving_steps steps fitBetween
    (Nat.lt_of_lt_of_le (fit.tidy.entries entry member) (taken.keeps fit).size_le) idle
  rcases served.settled_or_queued (fit.steps whole).1.orderly.sound with
    ⟨-, job, one, -⟩ | ⟨given, shown, -⟩
  · rw [left] at one
    cases one
  · rw [shown]
    rfl

end Ledger

/-- After any run, in which outside parties leave the handles of the cache alone: every entry of the
cache has one compilation, of the first valid request for its key, which is the one task that will
resolve its cell or has resolved it, and nothing else is compiled. A valid request returns the cell of
its key. From then on all requests for the key return this cell and leave no other trace than a hit;
and once the cell shows an outcome it does so for good, without another compilation or task. -/
theorem compiled_once (setup : Setup) (operations : List Operation) (world : EngineWorld)
    (run : Runs setup .alone initial operations world) :
    let policy := setup.config.keyPolicy
    (∀ entry ∈ world.outer.cache.entries, ∃ request,
      firstRequest policy operations entry.1 = some request ∧ Entered world entry request ∧
      ∀ place job, world.outer.queue[place]? = some job → job.target = entry.2 →
        (((Operation.task place).perform setup world).2.store.state entry.2).isSome) ∧
    (∀ key target compilation, .compile key target compilation ∈ world.outer.queue →
      (key, target) ∈ world.outer.cache.entries) ∧
    (∀ key, key ∉ world.outer.cache.entries.map Prod.fst → World.compiledFor world key = []) ∧
    ∀ request, request.validate = .ok () →
      let key := request.key policy
      ∃ cell after, compileRequest setup request world = (.ok cell, after) ∧
        ∀ more later, Runs setup .alone after more later →
          (∀ again, again.validate = .ok () → again.key policy = key →
            compileRequest setup again later = (.ok cell, World.hit later)) ∧
          ∀ outcome, later.store.state cell = some outcome →
            ∀ further last, Runs setup .alone later further last →
              last.store.state cell = some outcome ∧
              World.compiledFor last key = World.compiledFor later key ∧
              later.outer.serving cell = [] ∧ last.outer.serving cell = [] := by
  intro policy
  have nobody : ∀ key request, (key, request) ∈ ([] : List Operation).filterMap (·.asked? policy) →
      (initial.outer.cache.lookup key).isSome := fun _ _ member => by cases member
  obtain ⟨fit, -, ledger, -⟩ := run.ledger (List.prefix_refl _) fit_initial (ledger_initial _) nobody
  refine ⟨fun entry member => ?_, ledger.entered, ledger.unknown, fun request valid => ?_⟩
  · obtain ⟨request, asked, entered⟩ := ledger.entered_of_mem fit.orderly.sound member
    exact ⟨request, asked, entered, fun place job found target => ledger.task_resolves fit member found target⟩
  · obtain ⟨cell, after, returned, entered⟩ := compileRequest_returns setup .alone fit valid
    -- The call is one more operation of the run.
    have performed : (Operation.compile request).perform setup world = (.ok (), after) := by
      change (Functor.discard (compileRequest setup request) : Run PUnit) world = _
      exact (Act.bind_ok returned : (compileRequest setup request >>= fun _ => pure PUnit.unit) world = _)
    have called : Runs setup .alone initial (operations ++ [.compile request]) after :=
      run.trans (.cons trivial performed (.inl trivial) .nil)
    refine ⟨cell, after, returned, fun more later onward => ⟨fun again fine same => ?_, ?_⟩⟩
    · obtain ⟨fitAfter, -, -, -⟩ := called.ledger (List.prefix_refl _) fit_initial (ledger_initial _) nobody
      have steps := onward.steps trivial (fun _ _ => trivial) fitAfter
      refine compileRequest_hit fine ?_
      rw [same]
      exact lookup_steps steps fitAfter entered
    · intro outcome shown further last rest
      have whole := (called.trans onward).trans rest
      -- All moments are seen as parts of the longest run.
      let all := operations ++ [.compile request] ++ more ++ further
      have part : [] ++ (operations ++ [.compile request] ++ more) <+: all := List.prefix_append _ further
      have wholePart : [] ++ all <+: all := List.prefix_refl all
      obtain ⟨fitAfter, -, -, -⟩ := called.ledger (List.prefix_refl _) fit_initial (ledger_initial _) nobody
      obtain ⟨fitLater, -, ledger, -⟩ :=
        (called.trans onward).ledger part fit_initial (ledger_initial _) nobody
      obtain ⟨fitLast, -, ledgerLast, -⟩ := whole.ledger wholePart fit_initial (ledger_initial _) nobody
      have stepsLater := onward.steps trivial (fun _ _ => trivial) fitAfter
      have stepsLast := rest.steps trivial (fun _ _ => trivial) fitLater
      have found := lookup_steps stepsLater fitAfter entered
      have foundLast := lookup_steps stepsLast fitLater found
      have shownLast := (fitLater.steps stepsLast).2.state shown
      have settled {world : EngineWorld} {first : Request}
          (entered : Entered world (request.key policy, cell) first)
          (shown : world.store.state cell = some outcome) :
          World.compiledFor world (request.key policy) = [first] ∧ world.outer.serving cell = [] := by
        rcases entered with ⟨pending, -, -⟩ | ⟨-, compiled, idle⟩
        · rw [shown] at pending
          cases pending
        · exact ⟨compiled, idle⟩
      obtain ⟨first, asked, status⟩ :=
        ledger.entered_of_mem fitLater.orderly.sound (Ledger.mem_of_lookup found)
      obtain ⟨same, askedLast, statusLast⟩ :=
        ledgerLast.entered_of_mem fitLast.orderly.sound (Ledger.mem_of_lookup foundLast)
      rw [asked] at askedLast
      cases askedLast
      obtain ⟨compiled, idle⟩ := settled status shown
      obtain ⟨compiledLast, idleLast⟩ := settled statusLast shownLast
      exact ⟨shownLast, compiledLast.trans compiled.symm, idle, idleLast⟩

/-- Two calls with one request and a task between them. -/
theorem compiled_once_failing :
    let request : Request := ⟨"module", "main", {}, none⟩
    let operations : List Operation := [.compile request, .task 0, .compile request]
    ∃ world, Runs failing .alone initial operations world ∧
      ∀ entry ∈ world.outer.cache.entries, ∃ first,
        firstRequest .content operations entry.1 = some first ∧ Entered world entry first := by
  intro request operations
  have run : Runs failing .alone initial operations _ :=
    .cons trivial rfl (.inl trivial) (.cons trivial rfl (.inl trivial)
      (.cons trivial rfl (.inl trivial) .nil))
  refine ⟨_, run, fun entry member => ?_⟩
  obtain ⟨first, asked, entered, -⟩ := (compiled_once failing operations _ run).1 entry member
  exact ⟨first, asked, entered⟩

end DeferredJit.Engine
