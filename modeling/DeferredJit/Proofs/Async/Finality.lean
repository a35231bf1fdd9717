import DeferredJit.Proofs.Async.ScriptRuns

/-! Cells are decided once: one that has an outcome or a link takes no other, and what it shows stays. -/

set_option autoImplicit false

namespace DeferredJit.Async

variable {α β ε ω : Type}

namespace Store

/-- The cell has an outcome or a link. -/
def Decided (store : Store α β) (id : CellId) : Prop :=
  ∃ cell, store.cell? id = some cell ∧ (cell.outcome ≠ none ∨ cell.link ≠ none)

namespace Decided

variable {store later : Store α β} {id : CellId}

theorem mono (decided : store.Decided id) (keeps : store.Keeps later) : later.Decided id := by
  obtain ⟨before, found, taken⟩ := decided
  obtain ⟨after, there, -, settled, linked⟩ := keeps.cell found
  refine ⟨after, there, taken.imp (fun taken gone => ?_) fun taken gone => ?_⟩
  · obtain ⟨outcome, known⟩ := Option.ne_none_iff_exists'.1 taken
    rw [settled outcome known] at gone
    contradiction
  · obtain ⟨target, known⟩ := Option.ne_none_iff_exists'.1 taken
    rw [linked target known] at gone
    contradiction

theorem settle_eq_none (decided : store.Decided id) (outcome : Outcome α) :
    store.settle id outcome = none := by
  obtain ⟨cell, found, taken⟩ := decided
  unfold settle
  rw [found]
  cases linked : cell.link <;> cases settled : cell.outcome <;> simp_all

end Decided

theorem decided_settle {store next : Store α β} {id : CellId} {outcome : Outcome α}
    {waiters : List (Waiter α β)} (settled : store.settle id outcome = some (waiters, next)) :
    next.Decided id := by
  obtain ⟨cell, found, -, -, -, rfl⟩ := settle_eq_some_iff.1 settled
  exact ⟨_, (cell?_put found ..).trans (if_pos rfl), .inl (Option.some_ne_none outcome)⟩

theorem decided_linkTo {store next : Store α β} {id target : CellId} {waiters : List (Waiter α β)}
    (linked : store.linkTo id target = .ok (waiters, next)) : next.Decided id := by
  obtain ⟨cell, found, -, -, -, -, -, rfl⟩ := linkTo_eq_ok_iff.1 linked
  exact ⟨_, (cell?_put found ..).trans (if_pos rfl), .inr (Option.some_ne_none target)⟩

/-- From the link on, both cells end in the same one. -/
theorem last_eq_of_linkTo {store next : Store α β} (grounded : store.Grounded) {id target : CellId}
    {waiters : List (Waiter α β)} (linked : store.linkTo id target = .ok (waiters, next)) :
    next.last id = next.last target := by
  have joins := joins_of_linkTo grounded linked
  rw [last_linkTo grounded linked, last_linkTo grounded linked,
    last_of_link?_eq_none joins.free, if_pos rfl, if_neg joins.apart]

end Store

/-- No outcome is taken, and trying changes nothing. -/
def World.Refuses (world : World α β ε ω) (id : CellId) : Prop :=
  ∀ fire outcome, resolve fire id outcome world = (.ok false, world)

theorem World.refuses_of_decided {world : World α β ε ω} {id : CellId} (decided : world.store.Decided id) :
    world.Refuses id := by
  intro fire outcome
  rw [resolve_apply, decided.settle_eq_none outcome]

/-- A call that took the outcome says so, unless a continuation stops it. -/
theorem resolve_ne_false {world : World α β ε ω} {fire : Fire α β ε ω} {id : CellId} {outcome : Outcome α}
    {waiters : List (Waiter α β)} {store : Store α β}
    (settled : world.store.settle id outcome = some (waiters, store)) :
    (resolve fire id outcome world).1 ≠ .ok false := by
  rw [resolve_apply, settled]
  simp only [Act.bind_apply]
  cases Act.eachIsolated fire waiters { world with store } with
  | mk reply after =>
    cases reply with
    | error stop => simp
    | ok value => simp [pure, Act.pure]

namespace Moment

/-- Once decided, for good. -/
theorem Orderly.refuses {moment later : Moment α β ε ω} (orderly : moment.Orderly) {id : CellId}
    (decided : moment.world.store.Decided id) (steps : Steps Move moment later) :
    later.world.Refuses id :=
  World.refuses_of_decided (decided.mono (orderly.keeps steps).2)

end Moment

namespace Script

variable {α : Type}

/-- After a script and throughout any further operation: what a cell shows it shows for good; of all
attempts to resolve a cell one takes effect at most, before any continuation runs, and the others
reply so and change nothing; a cell that was linked shows what its target shows and takes no
outcome. -/
theorem decided_for_good (valueText : α → String) (script : List (Op α)) (op : Op α) :
    Steps Move ⟨[], worldAfter valueText script⟩
      ⟨[], (step valueText op (worldAfter valueText script)).2⟩ ∧
    ∀ moment, Steps Move ⟨[], worldAfter valueText script⟩ moment →
      (∀ later, Steps Move moment later → ∀ id outcome,
        moment.world.store.state id = some outcome → later.world.store.state id = some outcome) ∧
      (∀ fire id outcome,
        resolve fire id outcome moment.world = (.ok false, moment.world) ∨
        ∃ waiters store, moment.world.store.settle id outcome = some (waiters, store) ∧
          (resolve fire id outcome moment.world).1 ≠ .ok false ∧
          ∀ later, Steps Move ⟨waiters.map .fire ++ moment.duties, { moment.world with store }⟩ later →
            later.world.Refuses id) ∧
      ∀ fire id target, target < moment.world.store.cells.size →
        (∃ fault, forward fire id target moment.world = (.ok (.error fault), moment.world)) ∨
        ∃ waiters store, moment.world.store.linkTo id target = .ok (waiters, store) ∧
          ∀ later,
            Steps Move ⟨waiters.map (.hand target) ++ moment.duties, { moment.world with store }⟩ later →
            later.world.store.state id = later.world.store.state target ∧ later.world.Refuses id := by
  refine ⟨moves_of_steps (step_does valueText op (steps_worldAfter valueText script).1).2, ?_⟩
  intro moment moves
  have orderly : moment.Orderly := ((orderly_worldAfter valueText script).keeps moves).1
  refine ⟨fun later steps id outcome shown => (orderly.keeps steps).2.state shown,
    fun fire id outcome => ?_, fun fire id target bound => ?_⟩
  · cases settled : moment.world.store.settle id outcome with
    | none => exact .inl (by rw [resolve_apply, settled])
    | some taken =>
      obtain ⟨waiters, store⟩ := taken
      have after : Moment.Orderly ⟨waiters.map .fire ++ moment.duties, { moment.world with store }⟩ :=
        orderly.move (.free (.settle settled))
      exact .inr ⟨waiters, store, rfl, resolve_ne_false settled,
        fun later steps => after.refuses (Store.decided_settle settled) steps⟩
  · cases linked : moment.world.store.linkTo id target with
    | error fault => exact .inl ⟨fault, by rw [forward_apply, linked]⟩
    | ok taken =>
      obtain ⟨waiters, store⟩ := taken
      have after : Moment.Orderly
          ⟨waiters.map (.hand target) ++ moment.duties, { moment.world with store }⟩ :=
        orderly.move (.free (.link bound linked))
      refine .inr ⟨waiters, store, rfl, fun later steps => ⟨?_, ?_⟩⟩
      · have same := (after.keeps steps).2.last (Store.last_eq_of_linkTo orderly.sound.grounded linked)
        unfold Store.state
        rw [same]
      · exact after.refuses (Store.decided_linkTo linked) steps

end Script

end DeferredJit.Async
