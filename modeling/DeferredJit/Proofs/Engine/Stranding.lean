import DeferredJit.Proofs.Engine.Refinement
import DeferredJit.Proofs.Engine.Service

/-! Runs in which continuations, marshalers and conversions may panic. A panic can leave cells behind
that nobody sees to any more; those show nothing for the rest of the run. -/

set_option autoImplicit false

namespace DeferredJit.Engine

open Async (CellId Moment Continuation Routine Steps)

variable {setup : Setup} {rules : Rules} {before after : EngineMoment} {cell : CellId}

/-- Outside parties may do everything but settle or link what somebody sees to or what is spared, and
everything may panic. -/
def Rules.sparing (spared : List CellId) : Rules where
  panics := True
  touches world id := Moment.owners Stage.results ⟨[], world⟩ id = 0 ∧ id ∉ spared
  asks _ _ := True
  caches := True
  calls := True

theorem Rules.polite_sparing (spared : List CellId) : (Rules.sparing spared).Polite := And.left

/-! ## Stranded cells -/

/-- The cell is pending, and no continuation, task or operation in progress is going to change that. -/
structure Stranded (moment : EngineMoment) (cell : CellId) : Prop where
  blank : moment.world.store.Blank cell
  unowned : moment.owners Stage.results cell = 0
  idle : moment.world.outer.serving cell = []
  ungiven : ∀ outcome, .give cell outcome ∉ moment.duties

namespace Stranded

variable {duties rest : List EngineDuty} {world next : EngineWorld}

/-- Nothing that concerns the cell is done. -/
theorem congr (stranded : Stranded before cell)
    (blank : before.world.store.Blank cell → after.world.store.Blank cell)
    (owners : after.owners Stage.results cell ≤ before.owners Stage.results cell)
    (serving : before.world.outer.serving cell = [] → after.world.outer.serving cell = [])
    (gives : ∀ outcome, .give cell outcome ∈ after.duties → .give cell outcome ∈ before.duties) :
    Stranded after cell where
  blank := blank stranded.blank
  unowned := Nat.le_zero.1 (Nat.le_trans owners (Nat.le_of_eq stranded.unowned))
  idle := serving stranded.idle
  ungiven outcome member := stranded.ungiven outcome (gives outcome member)

theorem adds {scope : Scope} {budget : Nat} (stranded : Stranded ⟨duties, world⟩ cell)
    (adds : Adds scope world budget next) : Stranded ⟨duties, next⟩ cell := by
  have inside := stranded.blank.lt_size
  exact stranded.congr adds.grows.blank (Nat.le_of_eq (adds.owners inside)) (adds.serving inside).trans
    fun _ member => member

/-- A duty is dropped. -/
theorem drop {duty : EngineDuty} (stranded : Stranded ⟨duty :: rest, world⟩ cell) : Stranded ⟨rest, world⟩ cell :=
  stranded.congr id (owners_drop rest world duty cell) id fun _ member => List.mem_cons_of_mem _ member

theorem routine {mayPanic : Prop} (stranded : Stranded before cell) (step : Routine mayPanic before after) :
    Stranded after cell := by
  have owners : after.owners Stage.results cell ≤ before.owners Stage.results cell :=
    Moment.Exclusive.less_routine step cell
  have outer := Fit.outer_routine step
  refine stranded.congr (fun blank => ?_) owners (fun none => outer ▸ none) fun outcome member =>
    step.gives_of_unowned Stage.results stranded.unowned member
  cases step with
  | @give target outcome _ _ _ _ settled =>
    refine blank.settle ?_ settled
    rintro rfl
    exact stranded.ungiven outcome List.mem_cons_self
  | @link source target _ rest world _ _ linked =>
    refine blank.linkTo ?_ linked
    rintro rfl
    have owned : 0 < Moment.owners Stage.results ⟨.link cell target :: rest, world⟩ cell :=
      Moment.owned_of_link List.mem_cons_self
    exact absurd stranded.unowned (Nat.ne_of_gt owned)
  | park parked => exact blank.park parked
  | arrive _ arrived | opens _ arrived => exact blank.of_cells_eq (Async.Store.cells_of_arriveAt arrived)
  | _ => exact blank

/-- The task of a stranded cell would be in the queue. -/
theorem take {place : Nat} {job : Job} {outcome : Outcome Payload} (stranded : Stranded ⟨[], world⟩ cell)
    (fit : Fit ⟨[], world⟩) (found : world.outer.queue[place]? = some job)
    (ran : prepared setup job (World.withdraw world place) = (.ok outcome, next)) :
    Stranded ⟨[.give job.target outcome], next⟩ cell := by
  obtain ⟨adds, -⟩ := fit.prepares found ran
  have store := World.store_taken setup world place job
  have apart : job.target ≠ cell := fun same => by
    have member : job ∈ world.outer.serving cell := State.mem_serving.2 ⟨List.mem_of_getElem? found, same⟩
    rw [stranded.idle] at member
    cases member
  have taken : Stranded ⟨[], World.taken setup world place job⟩ cell := by
    refine stranded.congr (fun blank => store ▸ blank) ?_ (fun none => ?_) fun _ => id
    · simp only [Moment.owners, Async.Measure.moment, store]
      exact Nat.le_refl _
    · have left := World.serving_taken setup found cell
      rw [if_neg apart] at left
      exact left.trans none
  refine (taken.adds adds).congr id (Nat.le_of_eq (owners_give [] next job.target outcome cell)) id fun given member => ?_
  cases List.mem_singleton.1 member
  exact absurd rfl apart

/-- A stage is taken; it links what it owes to what it came to. -/
theorem proceed {stage : Stage} {seen : Option (Outcome Payload)} {produced : List CellId}
    (stranded : Stranded ⟨.answer stage seen :: rest, world⟩ cell)
    (length : produced.length = stage.results.length) :
    Stranded ⟨linkAll stage.results produced ++ rest, world⟩ cell := by
  refine stranded.congr id (Nat.le_of_eq (owners_proceed rest world length seen cell)) id fun outcome member => ?_
  exact List.mem_cons_of_mem _ (mem_of_give_linkAll member)

theorem step (stranded : Stranded before cell) (fit : Fit before) (untouched : ¬ rules.touches before.world cell)
    (step : Step setup rules before after) : Stranded after cell := by
  cases step with
  | routine step => exact stranded.routine step
  | stage ran =>
    have proceeds := fit.proceeds ran
    exact (stranded.adds proceeds.adds).proceed proceeds.length
  | falter => exact stranded.drop
  | @settle other outcome world allowed =>
    refine stranded.congr id (Nat.le_of_eq (owners_give [] world other outcome cell)) id fun given member => ?_
    cases List.mem_singleton.1 member
    exact absurd allowed untouched
  | @link source target world allowed =>
    have apart : source ≠ cell := fun same => untouched (same ▸ allowed)
    refine stranded.congr id (Nat.le_of_eq ?_) id fun given member => ?_
    · rw [owners_link, if_neg apart, Nat.zero_add]
    · cases List.mem_singleton.1 member
  | @observe id panic world =>
    refine stranded.congr (fun blank => blank.of_cells_eq (world.enroll_cells ..))
      (Nat.le_of_eq (owners_observe world id panic cell)) (fun none => none) fun given member => ?_
    cases List.mem_singleton.1 member
  | grow adds => exact stranded.adds adds
  | @enter key compilation world =>
    exact (stranded.adds (.single (.pending world))).congr (fun blank => blank.of_cells_eq rfl) (Nat.le_refl _)
      (World.serving_enter stranded.blank.lt_size key compilation).trans fun _ => id
  | take found ran => exact stranded.take fit found ran

/-- A cell that is stranded shows nothing as long as nobody outside touches it. -/
theorem hidden (stranded : Stranded before cell) (fit : Fit before) (untouched : ∀ world, ¬ rules.touches world cell)
    (steps : Steps (Step setup rules) before after) : after.world.store.state cell = none := by
  have still : Stranded after cell := fit.carry (Stranded · cell) steps stranded
    fun step fit stranded => stranded.step fit (untouched _) step
  exact still.blank.state_eq_none

end Stranded

/-- What was to be seen to by duties that are dropped is stranded. -/
theorem Steady.strands {dropped rest : List EngineDuty} {world : EngineWorld} (steady : Steady ⟨dropped ++ rest, world⟩)
    (owned : 0 < (Async.owners Stage.results cell).duties dropped) : Stranded ⟨rest, world⟩ cell := by
  have once := steady.apart.exclusive.once cell
  have split : Moment.owners Stage.results ⟨dropped ++ rest, world⟩ cell =
      (Async.owners Stage.results cell).duties dropped + Moment.owners Stage.results ⟨rest, world⟩ cell := by
    simp only [Moment.owners, Async.Measure.moment, Async.Measure.duties_append]
    exact Nat.add_assoc ..
  refine ⟨steady.blank (by omega), by omega, List.filter_eq_nil_iff.2 fun job among same => ?_, fun outcome due => ?_⟩
  · have unowned := steady.apart.jobs job among
    rw [beq_iff_eq.1 same] at unowned
    omega
  · have unowned := (steady.apart.exclusive.given cell outcome (List.mem_append_right _ due)).2
    omega

end DeferredJit.Engine
