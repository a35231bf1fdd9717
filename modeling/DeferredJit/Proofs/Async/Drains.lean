import DeferredJit.Proofs.Async.Order

/-! What becomes of those that a cell hands out together. All of them have their turn, whoever of them panics, and the
operation that handed them out ends as the first of them that panicked. -/

set_option autoImplicit false

namespace DeferredJit

namespace Act

variable {σ item : Type} {body : item → Act σ Unit}

/-- Every item has its turn. What came of each of them, and where it all led. -/
def turns (body : item → Act σ Unit) : List item → σ → List (Except Interrupt Unit) × σ
  | [], state => ([], state)
  | first :: rest, state =>
    let (reply, next) := body first state
    let (replies, last) := turns body rest next
    (reply :: replies, last)

/-- The first interrupt, if there was one. -/
def verdict : List (Except Interrupt Unit) → Except Interrupt Unit
  | [] => .ok ()
  | .error stop :: _ => .error stop
  | .ok () :: rest => verdict rest

theorem turns_cons {first : item} {state next : σ} {reply : Except Interrupt Unit}
    (ran : body first state = (reply, next)) (rest : List item) :
    turns body (first :: rest) state = (reply :: (turns body rest next).1, (turns body rest next).2) := by
  simp only [turns, ran]

/-- Isolated items all have their turn, and the first panic is raised again. -/
theorem eachIsolated_turns {items : List item} {state : σ}
    (deep : (eachIsolated body items state).1 ≠ .error .exhausted) :
    .error .exhausted ∉ (turns body items state).1 ∧
      eachIsolated body items state = (verdict (turns body items state).1, (turns body items state).2) := by
  induction items generalizing state with
  | nil => exact ⟨List.not_mem_nil, rfl⟩
  | cons first rest ih =>
    rcases ran : body first state with ⟨(cause | _) | _, next⟩
    · rw [eachIsolated_cons_panic ran] at deep ⊢
      have later : (eachIsolated body rest next).1 ≠ .error .exhausted := by
        intro stopped
        simp [stopped] at deep
      obtain ⟨others, same⟩ := ih later
      rw [turns_cons ran, same]
      refine ⟨by simpa using others, Prod.ext ?_ rfl⟩
      rw [same] at later
      dsimp only
      split
      · contradiction
      · rfl
    · rw [eachIsolated_cons_exhausted ran] at deep
      exact absurd rfl deep
    · rw [eachIsolated_cons_ok ran] at deep ⊢
      obtain ⟨others, same⟩ := ih deep
      rw [turns_cons ran, same]
      exact ⟨by simpa using others, rfl⟩

end Act

namespace Async

variable {α β ε ω : Type}

theorem Store.Keeps.link? {store later : Store α β} (keeps : store.Keeps later) {id target : CellId}
    (linked : store.link? id = some target) : later.link? id = some target := by
  obtain ⟨cell, found, link⟩ := Option.bind_eq_some_iff.1 linked
  obtain ⟨after, there, -, -, same⟩ := keeps.cell found
  exact (link?_of_cell? there).trans (same target link)

theorem World.mem_registrationsOn {world : World α β ε ω} {serial : Nat} {home : CellId} :
    serial ∈ world.registrationsOn home ↔ (serial, home) ∈ world.registrations := by
  simp [World.registrationsOn]

namespace Moment

variable {gives : CellId → Prop} {before after : Moment α β ε ω}

theorem registrations_subset (orderly : before.Orderly) (strides : Steps (Stride gives) before after) {serial : Nat}
    {home : CellId} (registered : (serial, home) ∈ before.world.registrations) :
    (serial, home) ∈ after.world.registrations := by
  induction strides with
  | refl => exact registered
  | tail earlier last ih =>
    obtain ⟨new, joined⟩ := joined_stride (orderly.strides earlier).1 last
    rw [← World.mem_registrationsOn, joined.recorded]
    exact List.mem_append_left _ (World.mem_registrationsOn.2 ih)

/-- Whoever was sent off ran once, or waits once where the chain of their cell ends. -/
theorem sent_run_or_wait {duties rest : List (Duty α β)} {world next : World α β ε ω}
    (orderly : Orderly ⟨duties ++ rest, world⟩) (accounted : Accounted ⟨duties ++ rest, world⟩)
    (strides : Steps (Stride gives) ⟨duties ++ rest, world⟩ ⟨rest, next⟩) {waiter : Waiter α β}
    (sent : waiter ∈ duties.filterMap Duty.waiter?) :
    (next.timesRun waiter.serial = 1 ∧ (next.store.state waiter.home).isSome ∧
      waiter.serial ∉ next.store.waiters.map Waiter.serial) ∨
    (next.timesRun waiter.serial = 0 ∧ next.store.state waiter.home = none ∧
      next.store.WaitsOnce waiter.serial waiter.home (next.store.last waiter.home)) := by
  have outstanding : waiter.key ∈ (outstanding ⟨duties ++ rest, world⟩).map Waiter.key := by
    refine List.mem_map_of_mem (List.mem_append_left _ ?_)
    rw [List.filterMap_append]
    exact List.mem_append_left _ sent
  have registered : (waiter.serial, waiter.home) ∈ world.registrations :=
    accounted.balance.mem_iff.2 (List.mem_append_left _ outstanding)
  have later : (waiter.serial, waiter.home) ∈ next.registrations := registrations_subset orderly strides registered
  refine runs_or_waits_of_idle (orderly.strides strides).1 (accounted.strides strides)
    (World.mem_registrations_iff.1 later) fun due => ?_
  -- Nobody else has the same number.
  have counted := accounted.counts registered
  have here : 0 < ((duties.filterMap Duty.waiter?).map Waiter.serial).count waiter.serial :=
    List.count_pos_iff.2 (List.mem_map_of_mem sent)
  have there := List.count_pos_iff.2 due
  simp only [Moment.outstanding, List.filterMap_append, List.map_append, List.count_append] at counted
  omega

end Moment

namespace Script

variable {α : Type}

/-- A client is in charge, or an outcome is about to be given. -/
structure InCharge (moment : Instant α) (rest : List (Duty α (Reaction α))) : Prop where
  unasked : Unasked rest
  calm : Calm moment.world.store rest
  due : moment.duties = rest ∨ ∃ target outcome, moment.duties = .give target outcome :: rest

namespace InCharge

variable {moment : Instant α} {rest : List (Duty α (Reaction α))}

theorem ready (charge : InCharge moment rest) (fit : Fit moment) : Ready rest moment.world where
  toTidy := fit.tidy
  unasked := charge.unasked
  calm := charge.calm
  orderly := by
    obtain ⟨duties, world⟩ := moment
    rcases charge.due with same | ⟨target, outcome, same⟩
    · exact same ▸ fit.orderly
    · cases same
      exact fit.orderly.aside [_] _ _ rfl

theorem accounted (charge : InCharge moment rest) (accounted : moment.Accounted) :
    Moment.Accounted ⟨rest, moment.world⟩ := by
  refine accounted.redo rest ?_
  rcases charge.due with same | ⟨target, outcome, same⟩
  · rw [same]
  · rw [same]
    rfl

end InCharge

/-- Waiters that a cell has handed out have their turns. -/
theorem turns_do {depth : Nat} {body : Waiter α (Reaction α) → Run α Unit}
    {carry : Waiter α (Reaction α) → Duty α (Reaction α)} {waiters : List (Waiter α (Reaction α))}
    {rest : List (Duty α (Reaction α))} {world : Scene α} (carried : ∀ waiter, (carry waiter).waiter? = some waiter)
    (each : ∀ ⦃waiter rest world⦄, Fit ⟨carry waiter :: rest, world⟩ →
      regime.Does depth 0 [carry waiter] (body waiter) rest world)
    (fit : Fit ⟨waiters.map carry ++ rest, world⟩) (accounted : Moment.Accounted ⟨waiters.map carry ++ rest, world⟩)
    (enough : regime.tariff.duties (waiters.map carry) + regime.tariff.store world.store ≤ depth) :
    let turns := Act.turns body waiters world
    .error .exhausted ∉ turns.1 ∧ Act.eachIsolated body waiters world = (Act.verdict turns.1, turns.2) ∧
      Steps (Stride anyCell) ⟨waiters.map carry ++ rest, world⟩ ⟨rest, turns.2⟩ ∧
      ∀ waiter ∈ waiters,
        (turns.2.timesRun waiter.serial = 1 ∧ (turns.2.store.state waiter.home).isSome ∧
          waiter.serial ∉ turns.2.store.waiters.map Waiter.serial) ∨
        (turns.2.timesRun waiter.serial = 0 ∧ turns.2.store.state waiter.home = none ∧
          turns.2.store.WaitsOnce waiter.serial waiter.home (turns.2.store.last waiter.home)) := by
  intro turns
  have does : regime.Does depth 0 (waiters.map carry) (Act.eachIsolated body waiters) rest world :=
    Regime.eachIsolated_does each waiters fit
  obtain ⟨deep, done⟩ := does enough (.inl trivial)
  obtain ⟨whole, same⟩ := Act.eachIsolated_turns deep
  have strides := strides_of_steps done.steps
  rw [same] at strides
  refine ⟨whole, same, strides, fun waiter member => ?_⟩
  refine Moment.sent_run_or_wait fit.orderly accounted strides ?_
  exact List.mem_filterMap.2 ⟨_, List.mem_map_of_mem member, carried waiter⟩

section Operations

variable (valueText : α → String) {depth : Nat} {rest : List (Duty α (Reaction α))} {world : Scene α}
  {id : CellId} {waiters : List (Waiter α (Reaction α))} {store : Store α (Reaction α)}

/-- Those who waited for an outcome run, each of them once, and the outcome stays. -/
theorem resolve_turns (ready : Ready rest world) (accounted : Moment.Accounted ⟨rest, world⟩)
    (enough : world.store.weight Reaction.weight ≤ depth) {outcome : Outcome α}
    (settled : world.store.settle id outcome = some (waiters, store)) :
    let fire := fireWithin (react valueText) depth
    let turns := Act.turns fire waiters { world with store }
    resolve fire id outcome world = ((Act.verdict turns.1).map fun _ => true, turns.2) ∧
      .error .exhausted ∉ turns.1 ∧ turns.2.store.state id = some outcome ∧
      ∀ waiter ∈ waiters, turns.2.timesRun waiter.serial = 1 := by
  intro fire turns
  have fires := Regime.fireWithin_does (react_does valueText) depth
  obtain ⟨stride, fit⟩ := ready.step (.settle trivial settled)
    ((ready.unasked.fire _).informed (ready.toTidy.store (Store.aligned_settle settled)))
  have cost := regime.tariff.store_settle settled
  have stored : regime.tariff.store world.store = world.store.weight Reaction.weight :=
    tariff_store Reaction.weight world.store
  obtain ⟨whole, same, strides, each⟩ := turns_do (fun _ => rfl) fires fit (accounted.strides (.single stride))
    (by simp only [Measure.duties_fire]; omega)
  have grounded := ready.orderly.sound.grounded
  have keeps := (fit.orderly.strides strides).2
  refine ⟨?_, whole, keeps.state ?_, fun waiter member => ?_⟩
  · rw [resolve_apply, settled]
    change (Act.eachIsolated fire waiters >>= fun _ => pure true) { world with store } = _
    rw [Act.bind_apply, same]
    cases Act.verdict turns.1 <;> rfl
  · obtain ⟨found, here, free, -⟩ := Store.settle_eq_some_iff.1 settled
    rw [Store.state_settle grounded settled, if_pos]
    exact Store.last_of_link?_eq_none ((Store.link?_of_cell? here).trans free)
  · have shown := keeps.state (ready.orderly.seated.handed_settle grounded settled member)
    rcases each waiter member with ⟨ran, -⟩ | ⟨-, pending, -⟩
    · exact ran
    · rw [pending] at shown
      cases shown

/-- Those who waited in a cell that is linked run once or wait once at the end of its chain, and the link stays. -/
theorem forward_turns (ready : Ready rest world) (accounted : Moment.Accounted ⟨rest, world⟩)
    (enough : world.store.weight Reaction.weight ≤ depth) {target : CellId} (bound : target < world.store.cells.size)
    (linked : world.store.linkTo id target = .ok (waiters, store)) :
    let fire := fireWithin (react valueText) depth
    let turns := Act.turns (hand fire target) waiters { world with store }
    forward fire id target world = ((Act.verdict turns.1).map fun _ => .ok (), turns.2) ∧
      .error .exhausted ∉ turns.1 ∧ turns.2.store.link? id = some target ∧
      ∀ waiter ∈ waiters,
        (turns.2.timesRun waiter.serial = 1 ∧ (turns.2.store.state id).isSome) ∨
        (turns.2.timesRun waiter.serial = 0 ∧ turns.2.store.state id = none ∧
          turns.2.store.WaitsOnce waiter.serial waiter.home (turns.2.store.last id)) := by
  intro fire turns
  have fires := Regime.fireWithin_does (react_does valueText) depth
  obtain ⟨stride, fit⟩ := ready.step (.link bound linked)
    ((ready.unasked.hand target _).informed (ready.toTidy.store (Store.aligned_linkTo linked)))
  have cost := regime.tariff.store_linkTo linked
  have stored : regime.tariff.store world.store = world.store.weight Reaction.weight :=
    tariff_store Reaction.weight world.store
  obtain ⟨whole, same, strides, each⟩ := turns_do (fun _ => rfl) (fun _ _ _ => Regime.hand_does fires) fit
    (accounted.strides (.single stride)) (by simp only [Measure.duties_hand]; omega)
  have grounded := ready.orderly.sound.grounded
  have joins := Store.joins_of_linkTo grounded linked
  have keeps := (fit.orderly.strides strides).2
  refine ⟨?_, whole, keeps.link? joins.linked, fun waiter member => ?_⟩
  · rw [forward_apply, linked]
    change (Act.eachIsolated (hand fire target) waiters >>= fun _ => pure (Except.ok ())) { world with store } = _
    rw [Act.bind_apply, same]
    cases Act.verdict turns.1 <;> rfl
  · have ends : store.last waiter.home = store.last id := by
      rw [(ready.orderly.seated.handed_linkTo grounded linked member).2, Store.last_linkTo grounded linked,
        Store.last_linkTo grounded linked, if_neg joins.apart, Store.last_of_link?_eq_none joins.free, if_pos rfl]
    have together : turns.2.store.last waiter.home = turns.2.store.last id := keeps.last ends
    have shows : turns.2.store.state waiter.home = turns.2.store.state id := by
      unfold Store.state
      rw [together]
    rcases each waiter member with ⟨ran, shown, -⟩ | ⟨unrun, pending, waits⟩
    · exact .inl ⟨ran, shows ▸ shown⟩
    · exact .inr ⟨unrun, shows ▸ pending, together ▸ waits⟩

end Operations

/-- Those who were registered on a cell while it was not available run in that order, wherever links take them. Whoever
gives an outcome or a link hands over all who waited, in order, and ends as the first of them that panicked. -/
theorem drains_in_order (valueText : α → String) (script : List (Op α)) :
    (∀ more, Steps regime.Step ⟨[], worldAfter valueText script⟩ ⟨[], worldAfter valueText (script ++ more)⟩) ∧
    (∀ op, ∃ depth, (worldAfter valueText script).store.weight Reaction.weight ≤ depth ∧
      step valueText op (worldAfter valueText script) =
        perform valueText (fireWithin (react valueText) depth) op (worldAfter valueText script)) ∧
    (∀ moment, Steps (Stride anyCell) ⟨[], worldAfter valueText script⟩ moment →
      ∀ cell, moment.world.store.state cell = none → ∀ later, Steps (Stride anyCell) moment later →
        (later.world.runsOn cell).filter (· < moment.world.store.registered) <+: moment.world.registrationsOn cell) ∧
    ∀ moment, Steps regime.Step ⟨[], worldAfter valueText script⟩ moment → ∀ rest, InCharge moment rest →
      ∀ depth, moment.world.store.weight Reaction.weight ≤ depth →
        let fire := fireWithin (react valueText) depth
        (∀ id outcome waiters store, moment.world.store.settle id outcome = some (waiters, store) →
          let turns := Act.turns fire waiters { moment.world with store }
          waiters = moment.world.store.waitersAt id ∧
          resolve fire id outcome moment.world = ((Act.verdict turns.1).map fun _ => true, turns.2) ∧
          .error .exhausted ∉ turns.1 ∧ turns.2.store.state id = some outcome ∧
          ∀ waiter ∈ waiters, turns.2.timesRun waiter.serial = 1) ∧
        ∀ id target waiters store, target < moment.world.store.cells.size →
          moment.world.store.linkTo id target = .ok (waiters, store) →
          let turns := Act.turns (hand fire target) waiters { moment.world with store }
          waiters = moment.world.store.waitersAt id ∧
          forward fire id target moment.world = ((Act.verdict turns.1).map fun _ => .ok (), turns.2) ∧
          .error .exhausted ∉ turns.1 ∧ turns.2.store.link? id = some target ∧
          ∀ waiter ∈ waiters,
            (turns.2.timesRun waiter.serial = 1 ∧ (turns.2.store.state id).isSome) ∨
            (turns.2.timesRun waiter.serial = 0 ∧ turns.2.store.state id = none ∧
              turns.2.store.WaitsOnce waiter.serial waiter.home (turns.2.store.last id)) := by
  have orderly := orderly_worldAfter valueText script
  have accounted := accounted_worldAfter valueText script
  have recorded : Moment.Recorded ⟨[], worldAfter valueText script⟩ :=
    (Moment.Recorded.start _).strides (.start _) (strides_worldAfter valueText script)
  refine ⟨steps_append valueText script, fun op => ⟨_, Nat.le_add_left _ op.weight, rfl⟩,
    fun moment strides cell pending later further => ?_,
    fun moment steps rest charge depth enough => ?_⟩
  · exact Moment.runs_in_order (orderly.strides strides).1 (accounted.strides strides)
      (recorded.strides orderly strides) pending further
  · have ready := charge.ready (regime.fit_steps steps (steps_worldAfter valueText script).1.fit)
    have kept := charge.accounted (accounted.strides (strides_of_steps steps))
    exact ⟨fun id outcome waiters store settled =>
        ⟨Store.waiters_of_settle settled, resolve_turns valueText ready kept enough settled⟩,
      fun id target waiters store bound linked =>
        ⟨Store.waiters_of_linkTo linked, forward_turns valueText ready kept enough bound linked⟩⟩

end Script

end Async

end DeferredJit
