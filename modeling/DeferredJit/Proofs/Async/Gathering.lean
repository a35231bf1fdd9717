import DeferredJit.Proofs.Async.ScriptRuns

/-! Continuations that wait for several cells run once all of them are available, and once only: their
latch misses one arrival for each registration, and each registration arrives once. -/

set_option autoImplicit false

namespace DeferredJit.Async

variable {α β ε ω : Type}

def Event.opening? : Event α ε → Option LatchId
  | .opened latch => some latch
  | .registered .. | .ran .. | .converted _ | .noted _ => none

/-- How often a latch has opened and its body was called. -/
def World.timesOpened (world : World α β ε ω) (latch : LatchId) : Nat :=
  (world.history.filterMap Event.opening?).count latch

theorem World.timesOpened_log (world : World α β ε ω) (event : Event α ε) (latch : LatchId) :
    (world.log event).timesOpened latch =
      world.timesOpened latch + if event.opening? = some latch then 1 else 0 := by
  unfold timesOpened log
  rw [List.filterMap_cons]
  cases opening : event.opening? with
  | none => simp
  | some other => simp [List.count_cons]

/-- A latch opens at the arrival that it misses last. -/
theorem Store.arriveAt_fst (store : Store α β) (latch : LatchId) :
    (store.arriveAt latch).1 = if store.missing latch = 1 then (store.latches[latch]?).map (·.body) else none := by
  unfold arriveAt missing
  cases store.latches[latch]? with
  | none => rfl
  | some found => rfl

theorem Store.arriveAt_held (store : Store α β) (latch other : LatchId) :
    ((store.arriveAt latch).2.latches[other]?).map (·.body) = (store.latches[other]?).map (·.body) := by
  unfold arriveAt
  cases found : store.latches[latch]? with
  | none => rfl
  | some selected =>
    obtain ⟨bound, here⟩ := List.getElem?_eq_some_iff.1 found
    by_cases same : other = latch
    · simp [same, bound, here]
    · simp [List.getElem?_set_ne (Ne.symm same)]

theorem Store.length_arriveAt (store : Store α β) (latch : LatchId) :
    (store.arriveAt latch).2.latches.length = store.latches.length := by
  unfold arriveAt
  split <;> simp

/-- Once everybody has arrived. -/
def Store.spent (store : Store α β) (latch : LatchId) : Nat := if store.missing latch = 0 then 1 else 0

theorem Store.spent_congr {store next : Store α β} (same : next.latches = store.latches) (latch : LatchId) :
    next.spent latch = store.spent latch := by
  unfold spent missing
  rw [same]

/-- An arrival spends a latch that then calls its body, and no other. -/
theorem Store.spent_arriveAt {store next : Store α β} {latch other : LatchId} {called : Option β}
    (arrived : store.arriveAt other = (called, next)) (held : latch < store.latches.length) :
    next.spent latch = store.spent latch + if called.isSome ∧ other = latch then 1 else 0 := by
  have left : next = (store.arriveAt other).2 := by rw [arrived]
  have answer : called = (store.arriveAt other).1 := by rw [arrived]
  unfold spent
  rw [answer, Store.arriveAt_fst, left, store.missing_arriveAt other latch]
  by_cases same : latch = other
  · subst same
    have found : (store.latches[latch]?).isSome := by simp [held]
    obtain ⟨here, there⟩ := Option.isSome_iff_exists.1 found
    rw [there, if_pos rfl]
    by_cases one : store.missing latch = 1
    · simp [one]
    · have still : store.missing latch - 1 = 0 ↔ store.missing latch = 0 := by omega
      simp [one, still]
  · simp [same, Ne.symm same]

theorem World.WaitsEach.timesOpened {continuation : Continuation α β} {ids : List CellId} {world next : World α β ε ω}
    (waits : World.WaitsEach continuation ids world next) (latch : LatchId) :
    next.timesOpened latch = world.timesOpened latch := by
  induction waits with
  | nil => rfl
  | cons _ waits _ ih =>
    refine ih.trans ?_
    unfold World.timesOpened
    rw [waits.history]
    rfl

/-- Clients open new latches only. -/
theorem Deed.timesOpened {gives : CellId → Prop} {world next : World α β ε ω} {added : List (Duty α β)}
    (deed : Deed gives world added next) (latch : LatchId) :
    next.timesOpened latch = world.timesOpened latch ∨
      latch = world.store.latches.length ∧ latch < next.store.latches.length := by
  cases deed with
  | derive _ waits =>
    left
    unfold World.timesOpened
    rw [waits.history]
    rfl
  | gather _ waits => exact .inl ((waits.timesOpened latch).trans rfl)
  | @pass body =>
    by_cases same : latch = world.store.latches.length
    · exact .inr ⟨same, by simp [same, World.latch, Store.makeLatch]⟩
    · left
      rw [World.timesOpened_log, if_neg (by simpa [Event.opening?] using Ne.symm same)]
      rfl
  | _ => exact .inl rfl

/-- No step of an operation in progress changes what a latch calls. -/
theorem Routine.held {mayPanic : Prop} {before after : Moment α β ε ω} (step : Routine mayPanic before after)
    (latch : LatchId) : (after.world.store.latches[latch]?).map (·.body) =
      (before.world.store.latches[latch]?).map (·.body) := by
  cases step with
  | park parked => rw [(Store.aligned_park parked).latches]
  | give settled => rw [(Store.aligned_settle settled).latches]
  | link _ linked => rw [(Store.aligned_linkTo linked).latches]
  | @arrive _ other _ world _ _ arrived | @opens _ other _ world _ _ _ arrived =>
    have held := world.store.arriveAt_held other latch
    rwa [arrived] at held
  | _ => rfl

/-- No step of an operation in progress makes latches. -/
theorem Routine.length_latches {mayPanic : Prop} {before after : Moment α β ε ω} (step : Routine mayPanic before after) :
    after.world.store.latches.length = before.world.store.latches.length := by
  cases step with
  | park parked => rw [(Store.aligned_park parked).latches]
  | give settled => rw [(Store.aligned_settle settled).latches]
  | link _ linked => rw [(Store.aligned_linkTo linked).latches]
  | @arrive _ other _ world _ _ arrived | @opens _ other _ world _ _ _ arrived =>
    have same := world.store.length_arriveAt other
    rwa [arrived] at same
  | _ => rfl

/-- A latch has opened just if it misses nobody, and a step of an operation in progress leaves it so. -/
theorem Routine.opened {mayPanic : Prop} {before after : Moment α β ε ω} (step : Routine mayPanic before after)
    {latch : LatchId} (made : latch < before.world.store.latches.length)
    (opened : before.world.timesOpened latch = before.world.store.spent latch) :
    after.world.timesOpened latch = after.world.store.spent latch := by
  -- Only arrivals change latches, and only they call bodies.
  have aside (same : after.world.store.latches = before.world.store.latches)
      (silent : after.world.timesOpened latch = before.world.timesOpened latch) :
      after.world.timesOpened latch = after.world.store.spent latch := by
    rw [silent, opened, Store.spent_congr same]
  have arrives {other : LatchId} {called : Option β} {store : Store α β}
      (arrived : before.world.store.arriveAt other = (called, store)) (reached : after.world.store = store)
      (calls : after.world.timesOpened latch =
        before.world.timesOpened latch + if called.isSome ∧ other = latch then 1 else 0) :
      after.world.timesOpened latch = after.world.store.spent latch := by
    rw [calls, opened, reached, Store.spent_arriveAt arrived made]
  cases step with
  | park parked => exact aside (Store.aligned_park parked).latches rfl
  | give settled => exact aside (Store.aligned_settle settled).latches rfl
  | link _ linked => exact aside (Store.aligned_linkTo linked).latches rfl
  | arrive _ arrived =>
    refine arrives arrived rfl ?_
    rw [if_neg (by simp)]
    rfl
  | opens _ arrived =>
    refine arrives arrived rfl ((World.timesOpened_log ..).trans ?_)
    simp only [Event.opening?, Option.some.injEq, Option.isSome_some, true_and]
    rfl
  | _ => exact aside rfl rfl

/-- Clients leave the latches alone that are there. -/
theorem Deed.getElem?_latches {gives : CellId → Prop} {world next : World α β ε ω} {added : List (Duty α β)}
    (deed : Deed gives world added next) {latch : LatchId} (made : latch < world.store.latches.length) :
    next.store.latches[latch]? = world.store.latches[latch]? := by
  obtain ⟨more, same⟩ := deed.latches
  rw [same, List.getElem?_append_left made]

theorem Deed.opened {gives : CellId → Prop} {world next : World α β ε ω} {added : List (Duty α β)}
    (deed : Deed gives world added next) {latch : LatchId} (made : latch < world.store.latches.length)
    (opened : world.timesOpened latch = world.store.spent latch) : next.timesOpened latch = next.store.spent latch := by
  have spent : next.store.spent latch = world.store.spent latch := by
    unfold Store.spent Store.missing
    rw [deed.getElem?_latches made]
  rw [spent, ← opened]
  exact (deed.timesOpened latch).resolve_right fun fresh => absurd fresh.1 (Nat.ne_of_lt made)

theorem World.missing_latch (world : World α β ε ω) (latch : Latch β) :
    (world.latch latch).store.missing world.store.latches.length = latch.missing := by
  simp [Store.missing, World.latch, Store.makeLatch]

namespace Moment

theorem Latched.nobody {moment : Moment α β ε ω} (latched : moment.Latched) {latch : LatchId}
    (none : moment.world.store.missing latch = 0) {waiter : Waiter α β} (member : waiter ∈ moment.outstanding) :
    waiter.continuation ≠ .arrive latch := by
  intro kind
  have counted := latched latch
  rw [none] at counted
  exact List.count_eq_zero.1 counted (List.mem_filterMap.2 ⟨waiter, member, by rw [kind]; rfl⟩)

/-- A latch for some cells: those that are not available have somebody on the way to the latch, and
it has opened if nobody is. -/
structure Awaits (moment : Moment α β ε ω) (latch : LatchId) (body : β) (cells : List CellId) : Prop where
  latched : moment.Latched
  held : (moment.world.store.latches[latch]?).map (·.body) = some body
  opened : moment.world.timesOpened latch = moment.world.store.spent latch
  homes : ∀ waiter ∈ moment.outstanding, waiter.continuation = .arrive latch → waiter.home ∈ cells
  watched : ∀ cell ∈ cells, (moment.world.store.state cell).isSome ∨
    ∃ waiter ∈ moment.outstanding, waiter.continuation = .arrive latch ∧ waiter.home = cell

namespace Awaits

variable {gives : CellId → Prop} {before after : Moment α β ε ω} {latch : LatchId} {body : β} {cells : List CellId}

theorem made (awaits : before.Awaits latch body cells) : latch < before.world.store.latches.length := by
  obtain ⟨found, here, -⟩ := Option.map_eq_some_iff.1 awaits.held
  exact (List.getElem?_eq_some_iff.1 here).1

/-- Nobody who was on the way to the latch is lost, and nobody joins them. -/
theorem next {gone new : List (Waiter α β)} (awaits : before.Awaits latch body cells)
    (latched : after.Latched)
    (held : (after.world.store.latches[latch]?).map (·.body) = (before.world.store.latches[latch]?).map (·.body))
    (opened : after.world.timesOpened latch = after.world.store.spent latch)
    (keeps : before.world.store.Keeps after.world.store)
    (moved : (gone ++ after.outstanding).Perm (new ++ before.outstanding))
    (ready : ∀ waiter ∈ gone, (before.world.store.state waiter.home).isSome)
    (others : ∀ waiter ∈ new, waiter.continuation ≠ .arrive latch) : after.Awaits latch body cells where
  latched := latched
  held := held.trans awaits.held
  opened := opened
  homes waiter member kind := by
    rcases List.mem_append.1 (moved.mem_iff.1 (List.mem_append_right _ member)) with fresh | old
    · exact absurd kind (others waiter fresh)
    · exact awaits.homes waiter old kind
  watched cell listed := by
    rcases awaits.watched cell listed with shown | ⟨waiter, old, kind, rfl⟩
    · exact .inl (keeps.isSome_state shown)
    · rcases List.mem_append.1 (moved.mem_iff.2 (List.mem_append_right _ old)) with done | still
      · exact .inl (keeps.isSome_state (ready waiter done))
      · exact .inr ⟨waiter, still, kind, rfl⟩

theorem routine {mayPanic : Prop} (awaits : before.Awaits latch body cells) (orderly : before.Orderly)
    (step : Routine mayPanic before after) : after.Awaits latch body cells := by
  have ready : ∀ waiter ∈ before.running, (before.world.store.state waiter.home).isSome := by
    intro waiter member
    obtain ⟨duties, world⟩ := before
    cases duties with
    | nil => cases member
    | cons duty rest =>
      cases duty with
      | fire other =>
        rw [List.mem_singleton.1 member]
        exact orderly.duties (.fire other) List.mem_cons_self
      | _ => cases member
  have moved : (before.running ++ after.outstanding).Perm ([] ++ before.outstanding) := step.outstanding.symm
  exact awaits.next (awaits.latched.routine step) (step.held latch) (step.opened awaits.made awaits.opened)
    (step.keeps orderly.sound) moved ready (by simp)

theorem stride (awaits : before.Awaits latch body cells) (orderly : before.Orderly)
    (stride : Stride gives before after) : after.Awaits latch body cells := by
  have keeps := (orderly.strides (.single stride)).2
  cases stride with
  | routine step => exact awaits.routine orderly step
  | begin => exact ⟨awaits.latched, awaits.held, awaits.opened, awaits.homes, awaits.watched⟩
  | @deed duties world added next calm deed =>
    have made : latch < world.store.latches.length := awaits.made
    obtain ⟨new, moved, newcomers⟩ := deed.outstanding duties
    rw [← List.nil_append (Moment.outstanding _)] at moved
    refine awaits.next (deed.latched awaits.latched) (congrArg _ (deed.getElem?_latches made))
      (deed.opened made awaits.opened) keeps moved (by simp) ?_
    intro waiter member kind
    have fresh := newcomers waiter member
    rw [kind] at fresh
    exact absurd fresh (Nat.ne_of_lt made)

theorem strides (awaits : before.Awaits latch body cells) (orderly : before.Orderly)
    (strides : Steps (Stride gives) before after) : after.Awaits latch body cells := by
  induction strides with
  | refl => exact awaits
  | tail earlier last ih => exact ih.stride (orderly.strides earlier).1 last

/-- Once the body was called, all cells are available. -/
theorem available (awaits : before.Awaits latch body cells) (called : before.world.timesOpened latch ≠ 0) :
    ∀ cell ∈ cells, (before.world.store.state cell).isSome := by
  intro cell listed
  have none : before.world.store.missing latch = 0 := by
    rw [awaits.opened] at called
    unfold Store.spent at called
    by_contra some
    rw [if_neg some] at called
    exact called rfl
  rcases awaits.watched cell listed with shown | ⟨waiter, member, kind, -⟩
  · exact shown
  · exact absurd kind (awaits.latched.nobody none member)

theorem timesOpened_le_one (awaits : before.Awaits latch body cells) : before.world.timesOpened latch ≤ 1 := by
  rw [awaits.opened]
  unfold Store.spent
  split <;> omega

/-- With nothing in progress, the body was called if all cells are available. -/
theorem at_rest {world : World α β ε ω} (awaits : Awaits ⟨[], world⟩ latch body cells) (orderly : Orderly ⟨[], world⟩) :
    world.timesOpened latch = if cells.all world.store.isAvailable then 1 else 0 := by
  by_cases called : world.timesOpened latch = 0
  · rw [called, if_neg]
    intro all
    -- Somebody has still to arrive, and waits for one of the cells.
    have some : world.store.missing latch ≠ 0 := by
      intro none
      have opened : world.timesOpened latch = world.store.spent latch := awaits.opened
      rw [Store.spent, if_pos none, called] at opened
      cases opened
    have counted := awaits.latched latch
    have among : latch ∈ Moment.arrivals ⟨[], world⟩ :=
      List.count_pos_iff.1 (by rw [counted]; exact Nat.pos_of_ne_zero some)
    obtain ⟨waiter, member, arrives⟩ := List.mem_filterMap.1 among
    have listed := awaits.homes waiter member (Continuation.arrival?_eq_some.1 arrives)
    have shown := List.all_eq_true.1 all waiter.home listed
    have waits : world.store.state waiter.home = none := orderly.state_of_waiting member
    rw [Store.isAvailable, waits] at shown
    cases shown
  · have once := awaits.timesOpened_le_one
    have all : cells.all world.store.isAvailable := List.all_eq_true.2 (awaits.available called)
    rw [if_pos all]
    change world.timesOpened latch ≤ 1 at once
    omega

end Awaits

/-- Latches miss who is on the way to them, and those that opened are there. -/
structure Latching (moment : Moment α β ε ω) : Prop where
  latched : moment.Latched
  unborn : ∀ latch, moment.world.store.latches.length ≤ latch → moment.world.timesOpened latch = 0

namespace Latching

variable {gives : CellId → Prop} {before after : Moment α β ε ω}

theorem start (outer : ω) : Latching (⟨[], { outer }⟩ : Moment α β ε ω) where
  latched _ := rfl
  unborn _ _ := rfl

theorem stride (latching : before.Latching) (stride : Stride gives before after) : after.Latching := by
  cases stride with
  | begin => exact ⟨latching.latched, latching.unborn⟩
  | @deed duties world added next calm deed =>
    refine ⟨deed.latched latching.latched, fun latch beyond => ?_⟩
    obtain ⟨more, same⟩ := deed.latches
    change next.store.latches.length ≤ latch at beyond
    have early : world.timesOpened latch = 0 := by
      refine latching.unborn latch (Nat.le_trans ?_ beyond)
      rw [same, List.length_append]
      exact Nat.le_add_right ..
    rw [← early]
    exact (deed.timesOpened latch).resolve_right fun fresh => absurd fresh.2 (Nat.not_lt.2 beyond)
  | routine step =>
    refine ⟨latching.latched.routine step, fun latch beyond => ?_⟩
    rw [step.length_latches] at beyond
    have early := latching.unborn latch beyond
    cases step with
    | @opens _ other _ world store _ _ arrived =>
      -- Only a latch that is there opens.
      have opened : (world.store.arriveAt other).1 ≠ none := by simp [arrived]
      rw [Store.arriveAt_fst] at opened
      have there : other < world.store.latches.length := by
        by_contra missing
        rw [List.getElem?_eq_none (Nat.not_lt.1 missing)] at opened
        simp at opened
      have apart : (Event.opened other : Event α ε).opening? ≠ some latch := by
        intro same
        cases same
        exact absurd there (Nat.not_lt.2 beyond)
      refine (World.timesOpened_log ..).trans ?_
      rw [if_neg apart]
      exact early
    | _ => exact early

theorem strides (latching : before.Latching) (strides : Steps (Stride gives) before after) : after.Latching :=
  strides.keep (fun stride latching => latching.stride stride) latching

section Calls

variable {duties : List (Duty α β)} {world next : World α β ε ω} {cells : List CellId} {body : β}

/-- A latch that misses nobody has opened at once. -/
theorem opened_pass (latching : Latching ⟨duties, world⟩) (body : β) :
    ((world.latch ⟨0, body⟩).log (.opened world.store.latches.length)).timesOpened world.store.latches.length =
      (world.latch ⟨0, body⟩).store.spent world.store.latches.length := by
  have before : (world.latch ⟨0, body⟩).timesOpened world.store.latches.length = 0 :=
    latching.unborn _ (Nat.le_refl _)
  have spent : (world.latch ⟨0, body⟩).store.spent world.store.latches.length = 1 :=
    if_pos (world.missing_latch ⟨0, body⟩)
  rw [World.timesOpened_log, before, spent]
  simp [Event.opening?]

theorem missing_gather {missing : List CellId}
    (waits : World.WaitsEach (.arrive world.store.latches.length) missing (world.latch ⟨missing.length, body⟩) next) :
    next.store.missing world.store.latches.length = missing.length := by
  have first := world.missing_latch ⟨missing.length, body⟩
  unfold Store.missing at first ⊢
  rwa [waits.latches]

/-- A latch that misses somebody has not opened. -/
theorem opened_gather {missing : List CellId} (latching : Latching ⟨duties, world⟩) (some : missing ≠ [])
    (waits : World.WaitsEach (.arrive world.store.latches.length) missing (world.latch ⟨missing.length, body⟩) next) :
    next.timesOpened world.store.latches.length = next.store.spent world.store.latches.length := by
  have before : (world.latch ⟨missing.length, body⟩).timesOpened world.store.latches.length = 0 :=
    latching.unborn _ (Nat.le_refl _)
  rw [waits.timesOpened, before, Store.spent, missing_gather waits, if_neg]
  simpa using some

/-- All cells are available. -/
theorem pass (latching : Latching ⟨duties, world⟩) (all : cells.all world.store.isAvailable) :
    Awaits ⟨duties, (world.latch ⟨0, body⟩).log (.opened world.store.latches.length)⟩
      world.store.latches.length body cells := by
  have deed : Deed anyCell world [] ((world.latch ⟨0, body⟩).log (.opened world.store.latches.length)) := .pass
  have latched := deed.latched latching.latched
  have missing := world.missing_latch ⟨0, body⟩
  refine ⟨latched, by simp [World.latch, Store.makeLatch], latching.opened_pass body, ?_, fun cell member => .inl ?_⟩
  · exact fun waiter member kind => absurd kind (latched.nobody missing member)
  · have shown : (world.store.state cell).isSome := List.all_eq_true.1 all cell member
    rwa [← world.state_latch ⟨0, body⟩] at shown

/-- Some cells are not available, and the call waits for them. -/
theorem gather {missing : List CellId} (latching : Latching ⟨duties, world⟩) (sound : world.store.Sound)
    (chosen : cells.filter (fun id => !world.store.isAvailable id) = missing) (some : missing ≠ [])
    (waits : World.WaitsEach (.arrive world.store.latches.length) missing (world.latch ⟨missing.length, body⟩) next) :
    Awaits ⟨duties, next⟩ world.store.latches.length body cells := by
  have deed : Deed anyCell world [] next := .gather some waits
  have latched : Latched ⟨duties, next⟩ := deed.latched latching.latched
  refine ⟨latched, ?_, latching.opened_gather some waits, fun waiter member kind => ?_, fun cell member => ?_⟩
  · rw [waits.latches]
    simp [World.latch, Store.makeLatch]
  · have home := waits.home_mem latched (missing_gather waits) member kind
    rw [← chosen] at home
    exact (List.mem_filter.1 home).1
  · have same : next.store.state cell = world.store.state cell :=
      (waits.state (sound.of_cells_eq rfl) cell).trans (world.state_latch _ cell)
    by_cases shown : (world.store.state cell).isSome
    · exact .inl (same ▸ shown)
    · refine .inr (waits.mem_outstanding duties ?_)
      rw [← chosen]
      exact List.mem_filter.2 ⟨member, by simpa [Store.isAvailable] using shown⟩

/-- A call leaves a latch for its cells, and has called its body if none of them is missing. -/
theorem call (latching : Latching ⟨duties, world⟩) (sound : world.store.Sound)
    (inside : ∀ cell ∈ cells, cell < world.store.cells.size) (fire : Fire α β ε ω) (now : Action α β ε ω Unit) :
    ∃ asked, whenAll fire cells body now world =
        (if cells.all world.store.isAvailable then now asked else (.ok (), asked)) ∧
      Deed anyCell world [] asked ∧ Awaits ⟨duties, asked⟩ world.store.latches.length body cells := by
  generalize chosen : cells.filter (fun id => !world.store.isAvailable id) = missing
  cases missing with
  | nil =>
    have all : cells.all world.store.isAvailable := by simpa [List.filter_eq_nil_iff] using chosen
    exact ⟨_, by rw [whenAll_passes fire body now all, if_pos all], .pass, latching.pass all⟩
  | cons cell others =>
    obtain ⟨next, ran, waits⟩ := whenAll_waits fire body now sound inside chosen (by simp)
    have some : ¬ cells.all world.store.isAvailable := by
      intro all
      have nobody : cells.filter (fun id => !world.store.isAvailable id) = [] := by
        simpa [List.filter_eq_nil_iff] using all
      rw [nobody] at chosen
      cases chosen
    exact ⟨next, by rw [ran, if_neg some], .gather (by simp) waits, latching.gather sound chosen (by simp) waits⟩

end Calls

end Latching

/-- Latches have opened just if they miss nobody any more. -/
structure Tallied (moment : Moment α β ε ω) : Prop extends Latching moment where
  opened : ∀ latch < moment.world.store.latches.length,
    moment.world.timesOpened latch = moment.world.store.spent latch

namespace Tallied

variable {gives : CellId → Prop} {before after : Moment α β ε ω}

theorem start (outer : ω) : Tallied (⟨[], { outer }⟩ : Moment α β ε ω) where
  toLatching := .start outer
  opened _ inside := absurd inside (Nat.not_lt_zero _)

theorem stride (tallied : before.Tallied) (stride : Stride gives before after) : after.Tallied := by
  refine ⟨tallied.toLatching.stride stride, fun latch inside => ?_⟩
  cases stride with
  | begin => exact tallied.opened latch inside
  | routine step =>
    have made : latch < before.world.store.latches.length := step.length_latches ▸ inside
    exact step.opened made (tallied.opened latch made)
  | @deed duties world added next calm deed =>
    by_cases made : latch < world.store.latches.length
    · exact deed.opened made (tallied.opened latch made)
    -- A latch that is new.
    · cases deed with
      | @gather _ body _ some waits =>
        have here : latch = world.store.latches.length := by
          have latches : next.store.latches = world.store.latches ++ [_] := waits.latches
          rw [latches, List.length_append, List.length_singleton] at inside
          omega
        rw [here]
        exact tallied.toLatching.opened_gather some waits
      | @pass body =>
        have here : latch = world.store.latches.length := by
          have latches : (world.latch ⟨0, body⟩).store.latches = world.store.latches ++ [_] := rfl
          rw [World.log_store, latches, List.length_append, List.length_singleton] at inside
          omega
        rw [here]
        exact tallied.toLatching.opened_pass body
      | settle _ settled => exact absurd ((Store.aligned_settle settled).latches ▸ inside) made
      | link _ linked => exact absurd ((Store.aligned_linkTo linked).latches ▸ inside) made
      | derive _ waits => exact absurd (waits.latches ▸ inside) made
      | _ => exact absurd inside made

/-- Latches that miss as many have opened as often. -/
theorem timesOpened_eq (tallied : before.Tallied) (latch : LatchId) :
    before.world.timesOpened latch =
      if latch < before.world.store.latches.length then before.world.store.spent latch else 0 := by
  split
  · exact tallied.opened latch ‹_›
  · exact tallied.unborn latch (Nat.not_lt.1 ‹_›)

end Tallied

end Moment

namespace Script

variable {α : Type}

theorem latching_worldAfter (valueText : α → String) (script : List (Op α)) :
    Moment.Latching ⟨[], worldAfter valueText script⟩ :=
  (Moment.Latching.start _).strides (strides_worldAfter valueText script)

theorem tallied_worldAfter (valueText : α → String) (script : List (Op α)) :
    Moment.Tallied ⟨[], worldAfter valueText script⟩ :=
  (strides_worldAfter valueText script).keep (fun stride tallied => tallied.stride stride) (.start _)

/-- The step of a script that has a callback wait for several cells, with room for the callback. -/
theorem step_whenAll (valueText : α → String) {world : Scene α} {ids : List Nat} {cells : List CellId}
    (found : namedAll ids world = (.ok cells, world)) (callback : Callback α) : ∃ depth,
    callback.weight + world.store.weight Reaction.weight ≤ depth ∧
      (step valueText (.whenAll ids callback) world).2 =
        (whenAll (fireWithin (react valueText) depth) cells ⟨false, callback⟩
          (answer valueText (fireWithin (react valueText) depth) callback) world).2 := by
  refine ⟨(Op.whenAll ids callback).weight + world.store.weight Reaction.weight, ?_, ?_⟩
  · simp only [Op.weight]
    omega
  · have same : step valueText (.whenAll ids callback) world = perform valueText (fireWithin (react valueText)
        ((Op.whenAll ids callback).weight + world.store.weight Reaction.weight)) (.whenAll ids callback) world := rfl
    rw [same, perform, Act.bind_ok found, Act.bind_apply]
    split <;> simp_all [Act.pure_apply]

/-- If all cells are available, the callback is what is left of the step. -/
theorem strides_answer (valueText : α → String) {world : Scene α} (ready : Ready [] world) {depth : Nat}
    {callback : Callback α} (enough : callback.weight + world.store.weight Reaction.weight ≤ depth) :
    let asked := (world.latch ⟨0, ⟨false, callback⟩⟩).log (.opened world.store.latches.length)
    Steps (Stride anyCell) ⟨[], asked⟩
      ⟨[], (answer valueText (fireWithin (react valueText) depth) callback asked).2⟩ := by
  intro asked
  have passed : Ready [] asked := (ready.deed .pass ((ready.toTidy.latch rfl).log rfl)).2
  have does := answer_does valueText (Regime.fireWithin_does (react_does valueText) depth) callback passed
  have light := regime.tariff.store_makeLatch world.store ⟨0, ⟨false, callback⟩⟩
  have stored : regime.tariff.store world.store = world.store.weight Reaction.weight :=
    tariff_store Reaction.weight world.store
  refine strides_of_steps (does ?_ (.inl trivial)).2.steps
  simp only [Measure.latch, if_true] at light
  change 0 + (callback.weight - 1) + regime.tariff.store (world.store.makeLatch _).2 + 0 ≤ depth
  omega

theorem namedAll_mem {world next : Scene α} {ids : List Nat} {cells : List CellId}
    (found : namedAll ids world = (.ok cells, next)) : ∀ cell ∈ cells, cell ∈ world.outer := by
  induction ids generalizing cells next with
  | nil =>
    cases found
    simp
  | cons id ids ih =>
    rw [namedAll] at found
    obtain ⟨first, here, found⟩ := found_of_named found
    rcases others : namedAll ids world with ⟨stop | rest, after⟩
    · rw [Act.bind_error others] at found
      cases found
    · rw [Act.bind_ok others] at found
      cases found
      intro cell member
      rcases List.mem_cons.1 member with rfl | later
      · exact List.mem_of_getElem? here
      · exact ih others cell later

/-- What a step leaves that has a callback wait for several cells. -/
theorem awaits_step (valueText : α → String) {world : Scene α} (ready : Ready [] world)
    (latching : Moment.Latching ⟨[], world⟩) {ids : List Nat} {cells : List CellId}
    (found : namedAll ids world = (.ok cells, world)) (callback : Callback α) : ∃ asked : Scene α,
    Moment.Awaits ⟨[], asked⟩ world.store.latches.length ⟨false, callback⟩ cells ∧ Moment.Orderly ⟨[], asked⟩ ∧
      Steps (Stride anyCell) ⟨[], asked⟩ ⟨[], (step valueText (.whenAll ids callback) world).2⟩ := by
  obtain ⟨depth, enough, same⟩ := step_whenAll valueText found callback
  rw [same]
  by_cases all : cells.all world.store.isAvailable
  · have latched : Tidy (world.latch ⟨0, ⟨false, callback⟩⟩) := ready.toTidy.latch rfl
    have passed := (ready.deed .pass (latched.log rfl)).2
    rw [whenAll_passes _ _ _ all]
    exact ⟨_, latching.pass all, passed.orderly, strides_answer valueText ready enough⟩
  · have inside (cell : CellId) (member : cell ∈ cells) := ready.named cell (namedAll_mem found cell member)
    obtain ⟨asked, ran, deed, awaits⟩ := latching.call ready.orderly.sound inside
      (fireWithin (react valueText) depth) (answer valueText (fireWithin (react valueText) depth) callback)
    rw [ran, if_neg all]
    exact ⟨asked, awaits, (ready.orderly.keeps (deed.moves [])).1, .refl⟩

/-- A continuation that waits for several cells, at whatever moment it was registered. From then on it is called once
at most, and never before all cells are available; whenever nothing is in progress, it has been called once if they are
and not at all otherwise. -/
theorem runs_when_all_available (valueText : α → String) (script : List (Op α)) :
    (∀ more, Steps (Stride anyCell) ⟨[], worldAfter valueText script⟩ ⟨[], worldAfter valueText (script ++ more)⟩) ∧
    (∀ moment, Steps (Stride anyCell) ⟨[], worldAfter valueText script⟩ moment →
      ∀ fire cells body now, (∀ cell ∈ cells, cell < moment.world.store.cells.size) →
        ∃ asked, whenAll fire cells body now moment.world =
            (if cells.all moment.world.store.isAvailable then now asked else (.ok (), asked)) ∧
          (Calm moment.world.store moment.duties → Stride anyCell moment ⟨moment.duties, asked⟩) ∧
          ∀ later, Steps (Stride anyCell) ⟨moment.duties, asked⟩ later →
            let latch := moment.world.store.latches.length
            (later.world.store.latches[latch]?).map (·.body) = some body ∧
            later.world.timesOpened latch ≤ 1 ∧
            (later.world.timesOpened latch ≠ 0 → ∀ cell ∈ cells, (later.world.store.state cell).isSome) ∧
            (later.duties = [] →
              later.world.timesOpened latch = if cells.all later.world.store.isAvailable then 1 else 0)) ∧
    ∀ ids cells callback more, namedAll ids (worldAfter valueText script) = (.ok cells, worldAfter valueText script) →
      let after := worldAfter valueText (script ++ .whenAll ids callback :: more)
      after.timesOpened (worldAfter valueText script).store.latches.length =
        if cells.all after.store.isAvailable then 1 else 0 := by
  refine ⟨strides_append valueText script, fun moment strides fire cells body now inside => ?_,
    fun ids cells callback more found => ?_⟩
  · have orderly := ((orderly_worldAfter valueText script).strides strides).1
    have latching := (latching_worldAfter valueText script).strides strides
    obtain ⟨asked, ran, deed, awaits⟩ := latching.call orderly.sound inside fire now
    refine ⟨asked, ran, fun calm => .deed calm deed, fun later further => ?_⟩
    have kept : Moment.Orderly ⟨moment.duties, asked⟩ := (orderly.keeps (deed.moves moment.duties)).1
    have onward := awaits.strides kept further
    refine ⟨onward.held, onward.timesOpened_le_one, onward.available, fun rest => ?_⟩
    obtain ⟨duties, world⟩ := later
    cases rest
    exact onward.at_rest (kept.strides further).1
  · have ready := (steps_worldAfter valueText script).1
    obtain ⟨asked, awaits, orderly, answered⟩ :=
      awaits_step valueText ready (latching_worldAfter valueText script) found callback
    have onward := strides_append valueText (script ++ [.whenAll ids callback]) more
    rw [worldAfter_append, List.append_assoc] at onward
    have strides := answered.trans onward
    exact (awaits.strides orderly strides).at_rest (orderly.strides strides).1

end Script

end DeferredJit.Async
