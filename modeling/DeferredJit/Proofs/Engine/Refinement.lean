import DeferredJit.Proofs.Async.Finality
import DeferredJit.Proofs.Engine.Progress
import DeferredJit.Proofs.Engine.Runs

/-! The results of a call are those of the pipeline, in whatever order the cells that it needs become
available. -/

set_option autoImplicit false

namespace DeferredJit.Engine

open Async (CellId Moment Continuation Routine Steps)

variable {setup : Setup} {rules : Rules} {before after : EngineMoment} {call : Call} {cells : List CellId}
  {delivers : Delivering}

/-! ## Placeholders -/

/-- Nothing is linked that follows a conversion: its cell has its outcome or waits for it. -/
theorem Follows.rooted {converted : Converted} {cell : CellId} (follows : Follows before converted cell)
    (steady : Steady before) : before.world.store.last cell = cell := by
  have sound := steady.fit.orderly.sound
  cases follows with
  | settled held => exact held.last_eq sound
  | done _ held => exact held.last_eq sound
  | due _ blank => exact blank.last_eq
  | waits member kind =>
    exact (steady.blank (Moment.owned_of_waiter member (by rw [kind]; exact List.mem_cons_self))).last_eq

theorem AllHold.rooted {outcome : Outcome Payload} (hold : AllHold before cells outcome) (steady : Steady before) :
    ∀ cell ∈ cells, before.world.store.last cell = cell :=
  fun cell member => (hold cell member).last_eq steady.fit.orderly.sound

theorem Ran.rooted {kernel : Kernel} {views : List Memref} {raws : List (Nat × Raw)}
    (ran : Ran delivers before call kernel views raws cells) (steady : Steady before) :
    ∀ cell ∈ cells, before.world.store.last cell = cell := by
  cases ran with
  | mismatched _ hold => exact hold.rooted steady
  | balked _ _ _ _ _ hold => exact hold.rooted steady
  | @ended slots _ _ _ _ _ ended =>
    split at ended
    · obtain ⟨length, completes⟩ := ended
      intro cell member
      obtain ⟨index, bound, rfl⟩ := List.mem_iff_getElem.1 member
      have inside : index < slots.length := length ▸ bound
      have complete := completes index slots[index] cells[index] (List.getElem?_eq_getElem inside)
        (List.getElem?_eq_getElem bound)
      cases slot : slots[index] with
      | some converted =>
        rw [slot] at complete
        exact Follows.rooted complete steady
      | none =>
        rw [slot] at complete
        exact Async.Store.Holds.last_eq complete steady.fit.orderly.sound
    · exact AllHold.rooted ended steady
    · exact AllHold.rooted ended steady

/-- Somebody sees to the placeholders of a call that waits. -/
theorem Pending.owned (pending : Pending before call cells) :
    ∀ cell ∈ cells, 0 < before.owners Stage.results cell := by
  intro cell sees
  cases pending with
  | gathers found => exact Moment.owned_of_latch (List.mem_of_getElem? found) (Nat.succ_ne_zero _) sees
  | waits _ placed member kind =>
    subst placed
    exact Moment.owned_of_waiter member (by rw [kind]; exact sees)
  | turn _ placed head =>
    subst placed
    exact Moment.owned_of_answer (List.mem_of_mem_head? head) sees

/-- Placeholders are not linked while their call waits. -/
theorem Pending.rooted (pending : Pending before call cells) (steady : Steady before) :
    ∀ cell ∈ cells, before.world.store.last cell = cell :=
  fun cell member => (steady.blank (pending.owned cell member)).last_eq

/-- The cells of a phase are not linked. -/
theorem Phase.rooted (phase : Phase delivers before call cells) (steady : Steady before) :
    ∀ cell ∈ cells, before.world.store.last cell = cell := by
  cases phase with
  | pending pending => exact pending.rooted steady
  | failed _ hold => exact hold.rooted steady
  | ran _ ran => exact ran.rooted steady

namespace Leads

variable {goal : List CellId → Prop} {oldest : Nat}

theorem here_of (reached : goal cells) : Leads before goal 0 cells :=
  .here (fun _ _ => Nat.zero_le _) reached

theorem mono {weaker : List CellId → Prop} (leads : Leads before goal oldest cells)
    (implied : ∀ cells, goal cells → weaker cells) : Leads before weaker oldest cells := by
  induction leads with
  | here old reached => exact .here old (implied _ reached)
  | link length bounds pairs _ ih => exact .link length bounds pairs ih

/-- There are cells of the goal at the end, and whatever else holds of them is led to as well. -/
theorem ends (leads : Leads before goal oldest cells) :
    ∃ ends, goal ends ∧ ∀ {other : List CellId → Prop}, other ends → Leads before other oldest cells := by
  induction leads with
  | here old reached => exact ⟨_, reached, fun holds => .here old holds⟩
  | link length bounds pairs _ ih =>
    obtain ⟨ends, reached, onward⟩ := ih
    exact ⟨ends, reached, fun holds => .link length bounds pairs (onward holds)⟩

/-- Nobody leads to an older cell. -/
theorem oldest_le_last (leads : Leads before goal oldest cells) (steady : Steady before)
    (rooted : ∀ cells, goal cells → ∀ cell ∈ cells, before.world.store.last cell = cell) :
    ∀ cell ∈ cells, oldest ≤ before.world.store.last cell := by
  induction leads with
  | here old reached =>
    intro cell member
    rw [rooted _ reached cell member]
    exact old cell member
  | @link oldest younger cells produced length bounds pairs _ ih =>
    intro cell member
    obtain ⟨index, bound, rfl⟩ := List.mem_iff_getElem.1 member
    have inside : index < produced.length := length ▸ bound
    have pair : (cells[index], produced[index]) ∈ cells.zip produced :=
      List.mem_iff_getElem.2 ⟨index, by rw [List.length_zip]; exact Nat.lt_min.2 ⟨bound, inside⟩, List.getElem_zip⟩
    obtain ⟨old, young⟩ := bounds _ member
    rcases pairs _ pair with due | same
    · rw [(steady.blank (Moment.owned_of_link due)).last_eq]
      exact old
    · rw [same]
      have later := ih _ (List.getElem_mem inside)
      exact Nat.le_trans old (Nat.le_trans (Nat.le_of_lt young) later)

end Leads

/-- A link that is due stays so until it is made, if it does not lead back. -/
theorem link_step {source target : CellId} (due : .link source target ∈ before.duties) (steady : Steady before)
    (calm : ¬ rules.panics) (apart : before.world.store.last target ≠ source)
    (step : Step setup rules before after) :
    .link source target ∈ after.duties ∨ after.world.store.last source = after.world.store.last target := by
  rcases step.quiet steady.fit with routine | quiet
  · have grounded := steady.fit.orderly.sound.grounded
    obtain ⟨duties, world⟩ := before
    have placed := (steady.fit.links _ _ due).2
    have blank := steady.blank (Moment.owned_of_link due)
    obtain ⟨waiters, store, taken⟩ := blank.links grounded placed apart
    cases routine with
    | @link other place moved rest _ next inside linked =>
      rcases List.mem_cons.1 due with same | later
      · cases same
        exact .inr (Async.Store.last_eq_of_linkTo grounded linked)
      · exact .inl (List.mem_append_right _ later)
    | bar refused =>
      rcases List.mem_cons.1 due with same | later
      · cases same
        rw [taken] at refused
        cases refused
      · exact .inl later
    | abandon allowed => exact absurd allowed calm
    | give settled =>
      rcases List.mem_cons.1 due with same | later
      · cases same
      · exact .inl (List.mem_append_right _ later)
    | ready | call | opens | derive | pass =>
      rcases List.mem_cons.1 due with same | later
      · cases same
      · exact .inl (List.mem_cons_of_mem _ later)
    | _ =>
      rcases List.mem_cons.1 due with same | later
      · cases same
      · exact .inl later
  · exact .inl (quiet.links due)

/-- The way to the goal stays, and the goal may be carried on. -/
theorem Leads.step {goal next : List CellId → Prop} {oldest : Nat} (leads : Leads before goal oldest cells)
    (steady : Steady before) (calm : ¬ rules.panics) (step : Step setup rules before after)
    (rooted : ∀ cells, goal cells → ∀ cell ∈ cells, before.world.store.last cell = cell)
    (onward : ∀ {oldest cells}, (∀ cell ∈ cells, oldest ≤ cell) → goal cells → Leads after next oldest cells) :
    Leads after next oldest cells := by
  induction leads with
  | here old reached => exact onward old reached
  | @link oldest younger cells produced length bounds pairs rest ih =>
    refine .link length bounds (fun pair member => ?_) ih
    rcases pairs pair member with due | same
    · -- What the placeholder is linked to leads to younger cells only.
      have young := (bounds _ (List.of_mem_zip member).1).2
      have later := rest.oldest_le_last steady rooted _ (List.of_mem_zip member).2
      exact link_step due steady calm (Nat.ne_of_gt (Nat.lt_of_lt_of_le young later)) step
    · exact .inr ((step.keeps steady.fit).last same)

/-! ## On the way -/

/-- The placeholders of a call lead to the cells of its phase. -/
def OnTheWay (delivers : Delivering) (moment : EngineMoment) (call : Call) (cells : List CellId) : Prop :=
  Leads moment (Phase delivers moment call) 0 cells

theorem OnTheWay.step (under : OnTheWay delivers before call cells) (steady : Steady before)
    (calm : ¬ rules.panics) (step : Step setup rules before after)
    (delivered : ∀ answers raws, Delivers after.world answers raws → delivers answers raws) :
    OnTheWay delivers after call cells := by
  refine Leads.step under steady calm step (fun _ phase => phase.rooted steady) fun old phase => ?_
  rcases phase.step steady calm step with same | ⟨produced, advances⟩
  · exact .here old same
  · exact .link advances.length (fun cell member => ⟨old cell member, advances.older cell member⟩)
      (fun pair member => .inl (advances.links pair member)) (.here advances.younger (advances.phase.mono delivered))

/-- The kernel has run, and the placeholders lead to its results. -/
def Answered (delivers : Delivering) (moment : EngineMoment) (call : Call) (kernel : Kernel) (views : List Memref)
    (raws : List (Nat × Raw)) (cells : List CellId) : Prop :=
  Leads moment (Ran delivers moment call kernel views raws) 0 cells

theorem Answered.step {kernel : Kernel} {views : List Memref} {raws : List (Nat × Raw)}
    (answered : Answered delivers before call kernel views raws cells) (steady : Steady before)
    (calm : ¬ rules.panics) (step : Step setup rules before after) :
    Answered delivers after call kernel views raws cells :=
  Leads.step answered steady calm step (fun _ ran => ran.rooted steady) fun old ran =>
    .here old (ran.step steady calm step)

/-! ## Between operations -/

/-- Something that the call needs is not available. -/
inductive Awaits (world : EngineWorld) (call : Call) : Prop where
  | operand {operand} : operand ∈ call.operands → world.store.state operand = none → Awaits world call
  | handle : world.store.state call.handle = none → Awaits world call
  | executable {views id cell} : Pipeline.marshal call world.store.state = Pipeline.known (.ok views) →
      Pipeline.held Payload.handle? (world.store.state call.handle) = Pipeline.known (.ok id) →
      Pipeline.choice world.outer.handles id views = Pipeline.known (.ok cell) →
      world.store.state cell = none → Awaits world call

/-- The pipeline is known up to what is to come of these raw values, which the kernel has handed back. -/
inductive Through (world : EngineWorld) (call : Call) (raws : List (Nat × Raw)) : Prop where
  | failed {failure} : Pipeline.kernel call world.outer.handles world.store.state =
      Pipeline.known (.error failure) → Through world call raws
  | mismatched {kernel views failure} : Pipeline.kernel call world.outer.handles world.store.state =
        Pipeline.known (.ok (kernel, views)) →
      Pipeline.mismatch? call kernel views = some failure → Through world call raws
  | ran {kernel views done rest} : Pipeline.kernel call world.outer.handles world.store.state =
        Pipeline.known (.ok (kernel, views)) →
      Pipeline.mismatch? call kernel views = none → (kernel.run views).answers = done ++ rest →
      Handed world.store done raws →
      (rest = [] ∨ Balks world.store call.dispatcher.conversions kernel.signature.results
        (emptySlots kernel) raws) → Through world call raws

/-- Cells that are linked show what the ones that they lead to show. -/
theorem Leads.at_rest {goal : List CellId → Prop} {oldest : Nat} {world : EngineWorld}
    (leads : Leads ⟨[], world⟩ goal oldest cells) :
    ∃ ends : List CellId, goal ends ∧ cells.length = ends.length ∧ ∀ (index : Nat) cell last,
      cells[index]? = some cell → ends[index]? = some last → world.store.state cell = world.store.state last := by
  induction leads with
  | here _ reached =>
    refine ⟨_, reached, rfl, fun index cell last here there => ?_⟩
    rw [here] at there
    cases there
    rfl
  | @link _ _ cells produced length _ pairs _ ih =>
    obtain ⟨ends, reached, same, shows⟩ := ih
    refine ⟨ends, reached, length.trans same, fun index cell last here there => ?_⟩
    obtain ⟨bound, -⟩ := List.getElem?_eq_some_iff.1 here
    have inside : index < produced.length := length ▸ bound
    have pair : (cell, produced[index]) ∈ cells.zip produced :=
      List.mem_of_getElem? (List.getElem?_zip_eq_some.2 ⟨here, List.getElem?_eq_getElem inside⟩)
    have together : world.store.last cell = world.store.last produced[index] :=
      (pairs _ pair).resolve_left fun due => by cases due
    rw [← shows index _ last (List.getElem?_eq_getElem inside) there]
    unfold Async.Store.state
    rw [together]

/-- What a result follows is what it shows, unless an operation in progress is about to change it. -/
theorem Follows.at_rest {world : EngineWorld} {duties : List EngineDuty} (steady : Steady ⟨duties, world⟩)
    {converted : Converted} {cell : CellId} (follows : Follows ⟨[], world⟩ converted cell) (index : Nat) :
    Pipeline.result world.store.state index (some converted) = (world.store.state cell).map Except.ok := by
  have sound := steady.fit.orderly.sound
  cases follows with
  | settled held =>
    rw [held.state_eq sound]
    rfl
  | @waits _ _ _ waiter member kind home =>
    have parked : waiter ∈ world.store.waiters := member
    have source := steady.fit.orderly.state_of_waiting parked
    have waiting : waiter ∈ Moment.outstanding ⟨duties, world⟩ := List.mem_append_right _ parked
    have blank := steady.blank (Moment.owned_of_waiter waiting (by rw [kind]; exact List.mem_cons_self))
    rw [home] at source
    simp only [Pipeline.result]
    rw [source, blank.state_eq_none]
    rfl
  | due head => cases head
  | @done source convert _ seen made shown held conveys =>
    simp only [Pipeline.result]
    rw [shown, held.state_eq sound]
    cases seen with
    | ok payload => exact congrArg some conveys
    | error failure => exact congrArg (some ∘ Except.ok) (Eq.symm conveys)

section Rest

variable {world : EngineWorld} (steady : Steady ⟨[], world⟩)

include steady

/-- A call that waits between operations waits for something that the pipeline needs. -/
theorem Pending.at_rest (pending : Pending ⟨[], world⟩ call cells) :
    Awaits world call ∧ (∀ cell ∈ cells, world.store.state cell = none) ∧
      Pipeline.kernel call world.outer.handles world.store.state = Pipeline.unknown := by
  have orderly := steady.fit.orderly
  have hidden : ∀ cell ∈ cells, world.store.state cell = none := fun cell member =>
    (steady.blank (pending.owned cell member)).state_eq_none
  cases pending with
  | @gathers latch missing found _ homes =>
    have counted : 0 < (Moment.arrivals ⟨[], world⟩).count latch := by
      rw [steady.latched latch]
      change 0 < Async.Store.missing world.store latch
      unfold Async.Store.missing
      rw [found]
      exact Nat.succ_pos _
    obtain ⟨waiter, member, arrives⟩ := List.mem_filterMap.1 (List.count_pos_iff.1 counted)
    have home := homes waiter member (Continuation.arrival?_eq_some.1 arrives)
    have waits := orderly.state_of_waiting member
    exact ⟨.operand home waits, hidden, Pipeline.kernel_of_operand_unknown home waits⟩
  | @waits stage waiter called placed member kind expects =>
    have waits := orderly.state_of_waiting member
    revert waits
    generalize waiter.home = home at expects
    intro waits
    cases expects with
    | handle viewed =>
      cases called
      exact ⟨.handle waits, hidden, Pipeline.kernel_of_handle_unknown viewed waits⟩
    | executable viewed handled chosen =>
      cases called
      exact ⟨.executable viewed handled chosen waits, hidden,
        Pipeline.kernel_of_executable_unknown viewed handled chosen waits⟩
  | turn _ _ head => cases head

theorem Phase.at_rest (phase : Phase delivers ⟨[], world⟩ call cells) :
    (Awaits world call ∧ ∀ cell ∈ cells, world.store.state cell = none) ∨
    (∃ failure, Pipeline.kernel call world.outer.handles world.store.state = Pipeline.known (.error failure) ∧
      AllHold ⟨[], world⟩ cells (.error failure)) ∨
    ∃ kernel views raws, Pipeline.kernel call world.outer.handles world.store.state =
      Pipeline.known (.ok (kernel, views)) ∧ Ran delivers ⟨[], world⟩ call kernel views raws cells := by
  cases phase with
  | pending pending =>
    obtain ⟨awaits, none, -⟩ := pending.at_rest steady
    exact .inl ⟨awaits, none⟩
  | failed came hold => exact .inr (.inl ⟨_, came, hold⟩)
  | ran came ran => exact .inr (.inr ⟨_, _, _, came, ran⟩)

theorem Completes.at_rest {index : Nat} {slot : Option Converted} {cell : CellId}
    (completes : Completes ⟨[], world⟩ index slot cell) :
    Pipeline.result world.store.state index slot = (world.store.state cell).map Except.ok := by
  cases slot with
  | some converted => exact Follows.at_rest steady completes index
  | none =>
    rw [Async.Store.Holds.state_eq completes steady.fit.orderly.sound]
    rfl

/-- Between operations every result shows what the pipeline has for its position. -/
theorem Ran.at_rest {kernel : Kernel} {views : List Memref} {raws : List (Nat × Raw)}
    (ran : Ran delivers ⟨[], world⟩ call kernel views raws cells) {index : Nat} {cell : CellId}
    (place : cells[index]? = some cell) :
    world.store.state cell = Pipeline.invoke call kernel views raws world.store.state index := by
  have all {outcome : Outcome Payload} (hold : AllHold ⟨[], world⟩ cells outcome) :
      world.store.state cell = some outcome :=
    (hold cell (List.mem_of_getElem? place)).state_eq steady.fit.orderly.sound
  cases ran with
  | mismatched wrong hold =>
    rw [all hold]
    unfold Pipeline.invoke
    rw [wrong]
  | balked right _ _ _ balks hold =>
    rw [all hold]
    unfold Pipeline.invoke
    rw [right]
    rcases balks with ⟨cause, stopped⟩ | ⟨slots, filled, source, convert, payload, cause, member, shown, spoiled⟩
    · unfold emptySlots at stopped
      simp only [stopped]
    · unfold emptySlots at filled
      have any : slots.any (Pipeline.balks world.store.state) = true := by
        refine List.any_eq_true.2 ⟨_, member, ?_⟩
        unfold Pipeline.balks
        rw [Pipeline.result_of_shown shown, spoiled]
      simp only [filled, any, if_true]
  | @ended slots right _ _ filled following ended =>
    -- No conversion of a result panics, or the kernel would have been stopped by it.
    have calm : slots.any (Pipeline.balks world.store.state) = false := by
      refine List.any_eq_false.2 fun slot member balks => ?_
      cases slot with
      | none => cases balks
      | some converted =>
        obtain ⟨target, follows⟩ := following converted member
        unfold Pipeline.balks at balks
        rw [follows.at_rest steady 0] at balks
        cases shown : world.store.state target with
        | none =>
          rw [shown] at balks
          cases balks
        | some =>
          rw [shown] at balks
          cases balks
    unfold Pipeline.invoke
    unfold emptySlots at filled
    rw [right]
    simp only [filled, calm, Bool.false_eq_true, if_false]
    revert ended
    cases (kernel.run views).finish with
    | returned =>
      rintro ⟨length, completes⟩
      obtain ⟨bound, -⟩ := List.getElem?_eq_some_iff.1 place
      have inside : index < slots.length := length ▸ bound
      have complete := completes index _ cell (List.getElem?_eq_getElem inside) place
      change _ = slots[index]?.bind fun slot => (Pipeline.result world.store.state index slot).bind Except.toOption
      rw [List.getElem?_eq_getElem inside]
      simp only [Option.bind_some, complete.at_rest steady]
      cases world.store.state cell <;> rfl
    | failed failure => exact fun hold => all hold
    | panicked cause => exact fun hold => all hold

end Rest

/-! ## Runs -/

/-- Outside parties may do everything but settle or link what somebody sees to, and nothing panics. -/
def Rules.calm : Rules where
  panics := False
  touches world id := Moment.owners Stage.results ⟨[], world⟩ id = 0
  asks _ _ := True
  caches := True
  calls := True

/-- Nothing is known of raw values that are not there yet. -/
def anything : Delivering := fun _ _ => True

theorem Rules.polite_calm : Rules.calm.Polite := id

theorem steady_initial : Steady ⟨[], initial⟩ := ⟨fit_initial, latched_initial, apart_initial⟩

theorem Steady.runs {world next : EngineWorld} {operations : List Operation} (steady : Steady ⟨[], world⟩)
    (run : Runs setup .calm world operations next) : Steady ⟨[], next⟩ :=
  steady.steps Rules.polite_calm (run.steps trivial (fun _ _ => trivial) steady.fit)

/-- Steps go on from what there is. -/
theorem Fit.onward (fit : Fit before) (steps : Steps (Step setup rules) before after) : Onward before after :=
  fit.carry (Onward before) steps (.refl _) fun step fit onward => onward.trans (step.onward fit)

theorem Ran.through {world : EngineWorld} {kernel : Kernel} {views : List Memref} {raws : List (Nat × Raw)}
    (ran : Ran delivers ⟨[], world⟩ call kernel views raws cells)
    (came : Pipeline.kernel call world.outer.handles world.store.state = Pipeline.known (.ok (kernel, views))) :
    Through world call raws := by
  cases ran with
  | mismatched wrong => exact .mismatched came wrong
  | balked right split handed _ balks => exact .ran came right split handed (.inr balks)
  | ended right handed => exact .ran came right (List.append_nil _).symm handed (.inl rfl)

/-- From a rest on at which a call has all it needs, its results are those of the pipeline. -/
theorem OnTheWay.at_rest {world : EngineWorld} (under : OnTheWay delivers ⟨[], world⟩ call cells)
    (steady : Steady ⟨[], world⟩) :
    (Awaits world call ∧ ∀ cell ∈ cells, world.store.state cell = none) ∨
    ∃ raws, Through world call raws ∧ ∀ operations next, Runs setup .calm world operations next →
      ∀ (index : Nat) cell, cells[index]? = some cell → next.store.state cell =
        Pipeline.outcome call next.outer.handles next.store.state raws index := by
  obtain ⟨ends, phase, onward⟩ := Leads.ends under
  have shows : ∀ (index : Nat) cell, cells[index]? = some cell → ∃ last ∈ ends,
      world.store.state cell = world.store.state last := by
    intro index cell here
    have same : Leads ⟨[], world⟩ (· = ends) 0 cells := onward rfl
    obtain ⟨_, rfl, length, shows⟩ := same.at_rest
    obtain ⟨bound, -⟩ := List.getElem?_eq_some_iff.1 here
    have there := List.getElem?_eq_getElem (length ▸ bound)
    exact ⟨_, List.mem_of_getElem? there, shows index cell _ here there⟩
  rcases phase.at_rest steady with ⟨awaits, pending⟩ | ⟨failure, came, hold⟩ | ⟨kernel, views, raws, came, ran⟩
  · refine .inl ⟨awaits, fun cell member => ?_⟩
    obtain ⟨index, here⟩ := List.mem_iff_getElem?.1 member
    obtain ⟨last, among, same⟩ := shows index cell here
    exact same.trans (pending last among)
  · refine .inr ⟨[], .failed came, fun operations next run index cell here => ?_⟩
    obtain ⟨last, among, same⟩ := shows index cell here
    have held := (hold last among).state_eq steady.fit.orderly.sound
    have onward := steady.fit.onward (run.steps trivial (fun _ _ => trivial) steady.fit)
    rw [onward.keeps.state (same.trans held)]
    exact (Pipeline.outcome_of_error (onward.kernel steady.fit.tidy came)).symm
  · refine .inr ⟨raws, ran.through came, fun operations next run index cell here => ?_⟩
    have answered : Answered delivers ⟨[], world⟩ call kernel views raws cells := onward ran
    have steps := run.steps trivial (fun _ _ => trivial) steady.fit
    have later : Answered delivers ⟨[], next⟩ call kernel views raws cells :=
      steady.carry (Answered delivers · call kernel views raws cells) Rules.polite_calm steps answered
        fun step steady answered => answered.step steady id step
    obtain ⟨last, ranNext, length, shows⟩ := Leads.at_rest later
    obtain ⟨bound, -⟩ := List.getElem?_eq_some_iff.1 here
    have there := List.getElem?_eq_getElem (length ▸ bound : index < last.length)
    rw [shows index cell _ here there, ranNext.at_rest (steady.runs run) there]
    exact (Pipeline.outcome_of_ok ((steady.fit.onward steps).kernel steady.fit.tidy came)).symm

end DeferredJit.Engine
