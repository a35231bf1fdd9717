import DeferredJit.Proofs.Async.Carried
import DeferredJit.Proofs.Async.Measure

/-! Cells that hold an outcome of their own, cells that hold nothing yet, and who sees to those:
whoever waits in order to give a cell an outcome or a link.

Nobody else sees to a cell that somebody sees to, and until its turn comes it has neither outcome nor
link. So what its owner does with it is not refused.
-/

set_option autoImplicit false

namespace DeferredJit.Async

variable {α β ε ω : Type}

/-! ## Blank cells -/

/-- The cell has neither an outcome nor a link. -/
def Store.Blank (store : Store α β) (id : CellId) : Prop :=
  ∃ cell, store.cell? id = some cell ∧ cell.outcome = none ∧ cell.link = none

namespace Store.Blank

variable {store next : Store α β} {id other : CellId} {waiters : List (Waiter α β)}

theorem lt_size (blank : store.Blank id) : id < store.cells.size := by
  obtain ⟨cell, found, -, -⟩ := blank
  exact lt_size_of_cell? found

theorem last_eq (blank : store.Blank id) : store.last id = id := by
  obtain ⟨cell, found, -, free⟩ := blank
  exact last_of_link?_eq_none ((link?_of_cell? found).trans free)

theorem state_eq_none (blank : store.Blank id) : store.state id = none := by
  have ended := blank.last_eq
  obtain ⟨cell, found, unsettled, -⟩ := blank
  simp [Store.state, ended, found, unsettled]

theorem of_cells_eq (blank : store.Blank id) (same : next.cells = store.cells) : next.Blank id := by
  unfold Blank cell? at *
  rwa [same]

theorem put {old new : Cell α β} (blank : store.Blank id) (found : store.cell? other = some old)
    (elsewhere : id = other → new.outcome = none ∧ new.link = none) :
    (store.put other new).Blank id := by
  obtain ⟨cell, here, unsettled, free⟩ := blank
  by_cases same : id = other
  · exact ⟨new, by rw [cell?_put found, if_pos same], elsewhere same⟩
  · exact ⟨cell, by rw [cell?_put found, if_neg same, here], unsettled, free⟩

theorem make (blank : store.Blank id) (cell : Cell α β) : (store.make cell).2.Blank id := by
  have bound := blank.lt_size
  obtain ⟨selected, found, clean⟩ := blank
  exact ⟨selected, by rw [cell?_make, if_neg (Nat.ne_of_lt bound), found], clean⟩

theorem settle {outcome : Outcome α} (blank : store.Blank id) (apart : id ≠ other)
    (settled : store.settle other outcome = some (waiters, next)) : next.Blank id := by
  obtain ⟨cell, found, -, -, -, rfl⟩ := settle_eq_some_iff.1 settled
  exact blank.put found fun same => absurd same apart

theorem linkTo {target : CellId} (blank : store.Blank id) (apart : id ≠ other)
    (linked : store.linkTo other target = .ok (waiters, next)) : next.Blank id := by
  obtain ⟨cell, found, -, -, -, -, -, rfl⟩ := linkTo_eq_ok_iff.1 linked
  exact blank.put found fun same => absurd same apart

theorem park {waiter : Waiter α β} (blank : store.Blank id)
    (parked : store.park other waiter = some next) : next.Blank id := by
  obtain ⟨cell, found, unsettled, rfl⟩ := park_eq_some_iff.1 parked
  refine blank.put found fun same => ⟨unsettled, ?_⟩
  obtain ⟨selected, here, -, free⟩ := blank
  rw [← same, here] at found
  cases found
  exact free

end Store.Blank

theorem Store.blank_make (store : Store α β) {cell : Cell α β} (unsettled : cell.outcome = none)
    (free : cell.link = none) : (store.make cell).2.Blank store.cells.size :=
  ⟨cell, by rw [cell?_make, if_pos rfl], unsettled, free⟩

/-- The cell has this outcome itself. -/
def Store.Holds (store : Store α β) (id : CellId) (outcome : Outcome α) : Prop :=
  ∃ cell, store.cell? id = some cell ∧ cell.outcome = some outcome

namespace Store.Holds

variable {store next : Store α β} {id : CellId} {outcome : Outcome α}

theorem last_eq (holds : store.Holds id outcome) (sound : store.Sound) : store.last id = id := by
  obtain ⟨cell, found, settled⟩ := holds
  refine last_of_link?_eq_none ((link?_of_cell? found).trans ?_)
  by_contra linked
  rw [sound.exclusive found linked] at settled
  contradiction

theorem state_eq (holds : store.Holds id outcome) (sound : store.Sound) :
    store.state id = some outcome := by
  have ended := holds.last_eq sound
  obtain ⟨cell, found, settled⟩ := holds
  simp [Store.state, ended, found, settled]

theorem later (holds : store.Holds id outcome) (keeps : store.Keeps next) : next.Holds id outcome := by
  obtain ⟨cell, found, settled⟩ := holds
  obtain ⟨after, there, -, kept, -⟩ := keeps.cell found
  exact ⟨after, there, kept outcome settled⟩

end Store.Holds

/-- A blank cell takes an outcome. -/
theorem Store.Blank.settles {store : Store α β} {id : CellId} (blank : store.Blank id)
    (outcome : Outcome α) : ∃ waiters next, store.settle id outcome = some (waiters, next) := by
  obtain ⟨cell, found, unsettled, free⟩ := blank
  exact ⟨_, _, settle_eq_some_iff.2 ⟨cell, found, free, unsettled, rfl, rfl⟩⟩

/-- A blank cell takes a link to wherever it does not lead back from. -/
theorem Store.Blank.links {store : Store α β} {id target : CellId} (blank : store.Blank id)
    (grounded : store.Grounded) (indirect : ∃ cell, store.cell? id = some cell ∧ cell.kind = .indirect)
    (apart : store.last target ≠ id) : ∃ waiters next, store.linkTo id target = .ok (waiters, next) := by
  obtain ⟨cell, found, unsettled, free⟩ := blank
  obtain ⟨same, here, kind⟩ := indirect
  rw [found] at here
  cases here
  refine ⟨_, _, linkTo_eq_ok_iff.2 ⟨cell, found, kind, fun member => apart ?_, unsettled, free, rfl, rfl⟩⟩
  obtain ⟨path, walk⟩ := grounded target
  rw [walk.chain_eq] at member
  rw [walk.last_eq, ← walk.eq_getLast member ((link?_of_cell? found).trans free)]

theorem Store.holds_settle {store next : Store α β} {id : CellId} {outcome : Outcome α}
    {waiters : List (Waiter α β)} (settled : store.settle id outcome = some (waiters, next)) :
    next.Holds id outcome := by
  obtain ⟨cell, found, -, -, -, rfl⟩ := settle_eq_some_iff.1 settled
  exact ⟨_, by rw [cell?_put found, if_pos rfl], rfl⟩

theorem Store.holds_make (store : Store α β) (outcome : Outcome α) :
    (store.make { outcome := some outcome }).2.Holds store.cells.size outcome :=
  ⟨_, by rw [cell?_make, if_pos rfl], rfl⟩

/-! ## Owners -/

variable (own : β → List CellId)

/-- The cells that a continuation sees to. -/
def Continuation.owned : Continuation α β → List CellId
  | .call body => own body
  | .arrive _ => []
  | .derive target _ => [target]

/-- How many see to a cell. Who gives an outcome that is due has done its part. -/
def owners (cell : CellId) : Measure α β where
  waiter waiting := (waiting.continuation.owned own).count cell
  body body := (own body).count cell
  duty
    | .hand _ waiting | .fire waiting => (waiting.continuation.owned own).count cell
    | .answer body _ => (own body).count cell
    | .give .. => 0
    | .link source _ => if source = cell then 1 else 0
  call kind := by rw [kind]; rfl
  hand _ _ := rfl
  fire _ := rfl

def Moment.owners (moment : Moment α β ε ω) (cell : CellId) : Nat :=
  (Async.owners own cell).moment moment

section Owned

variable {own} {moment : Moment α β ε ω} {cell : CellId}

/-- Whoever waits for something in order to see to a cell is one of its owners. -/
theorem Moment.owned_of_waiter {waiter : Waiter α β} (member : waiter ∈ moment.outstanding)
    (sees : cell ∈ waiter.continuation.owned own) : 0 < moment.owners own cell := by
  have counts : 0 < (Async.owners (α := α) own cell).waiter waiter := List.count_pos_iff.2 sees
  exact Nat.lt_of_lt_of_le counts ((Async.owners own cell).waiter_le_moment member)

theorem Moment.owned_of_latch {latch : Latch β} (member : latch ∈ moment.world.store.latches)
    (closed : latch.missing ≠ 0) (sees : cell ∈ own latch.body) : 0 < moment.owners own cell := by
  have counts : 0 < (Async.owners (α := α) own cell).body latch.body := List.count_pos_iff.2 sees
  exact Nat.lt_of_lt_of_le counts ((Async.owners own cell).body_le_moment member closed)

theorem Moment.owned_of_answer {body : β} {seen : Option (Outcome α)}
    (member : .answer body seen ∈ moment.duties) (sees : cell ∈ own body) :
    0 < moment.owners own cell := by
  have counts : 0 < (Async.owners own cell).duty (.answer body seen) := List.count_pos_iff.2 sees
  exact Nat.lt_of_lt_of_le counts ((Async.owners own cell).duty_le_moment member)

theorem Moment.owned_of_link {target : CellId} (member : .link cell target ∈ moment.duties) :
    0 < moment.owners own cell := by
  have counts : (Async.owners (α := α) own cell).duty (.link cell target) = 1 := if_pos rfl
  exact Nat.le_trans (Nat.le_of_eq counts.symm) ((Async.owners own cell).duty_le_moment member)

end Owned

/-- A cell that no continuation sees to, and that is not to be linked. -/
theorem Moment.Carries.unowned {own : β → List CellId} {moment : Moment α β ε ω} {cell : CellId}
    (carries : moment.Carries fun continuation => cell ∉ continuation.owned own)
    (links : ∀ target, .link cell target ∉ moment.duties) : moment.owners own cell = 0 := by
  have waits : ∀ waiter ∈ moment.outstanding, (waiter.continuation.owned own).count cell = 0 :=
    fun waiter member => List.count_eq_zero.2 (carries.waiting waiter member)
  have duties : total (Async.owners own cell).duty moment.duties = 0 := by
    refine total_eq_zero fun duty member => ?_
    cases duty with
    | hand _ waiter | fire waiter =>
      exact waits waiter (List.mem_append_left _ (List.mem_filterMap.2 ⟨_, member, rfl⟩))
    | answer body seen => exact List.count_eq_zero.2 (carries.asked body seen member)
    | give => rfl
    | link source target =>
      refine if_neg ?_
      rintro rfl
      exact links target member
  have waiters : total (Async.owners own cell).waiter moment.world.store.waiters = 0 :=
    total_eq_zero fun waiter member => waits waiter (List.mem_append_right _ member)
  have latches : total (Async.owners (α := α) own cell).latch moment.world.store.latches = 0 := by
    refine total_eq_zero fun latch member => ?_
    have unowned : (own latch.body).count cell = 0 := List.count_eq_zero.2 (carries.latched latch member)
    unfold Measure.latch
    split
    · rfl
    · exact unowned
  unfold Moment.owners Measure.moment Measure.duties Measure.store
  omega

structure Moment.Exclusive (moment : Moment α β ε ω) : Prop where
  once : ∀ cell, moment.owners own cell ≤ 1
  blank : ∀ cell, 0 < moment.owners own cell → moment.world.store.Blank cell
  /-- Who is about to give a cell its outcome saw to it alone. -/
  given : ∀ target outcome, .give target outcome ∈ moment.duties →
    target < moment.world.store.cells.size ∧ moment.owners own target = 0

namespace Moment.Exclusive

variable {own} {before after : Moment α β ε ω}

/-- Nobody sees to a cell that does not exist. -/
theorem unborn {moment : Moment α β ε ω} (exclusive : moment.Exclusive own) {cell : CellId}
    (missing : moment.world.store.cells.size ≤ cell) : moment.owners own cell = 0 := by
  by_contra owned
  have inside := (exclusive.blank cell (Nat.pos_of_ne_zero owned)).lt_size
  exact absurd missing (Nat.not_le.2 inside)

/-- No cell gets another owner, and those that still have one stay blank. -/
theorem fewer (exclusive : before.Exclusive own)
    (less : ∀ cell, after.owners own cell ≤ before.owners own cell)
    (grown : before.world.store.cells.size ≤ after.world.store.cells.size)
    (blank : ∀ cell, 0 < after.owners own cell → before.world.store.Blank cell →
      after.world.store.Blank cell)
    (given : ∀ target outcome, .give target outcome ∈ after.duties →
      .give target outcome ∈ before.duties ∨
        target < before.world.store.cells.size ∧ after.owners own target = 0) :
    after.Exclusive own where
  once cell := Nat.le_trans (less cell) (exclusive.once cell)
  blank cell owned := blank cell owned (exclusive.blank cell (Nat.lt_of_lt_of_le owned (less cell)))
  given target outcome member := by
    rcases given target outcome member with old | ⟨inside, free⟩
    · obtain ⟨inside, none⟩ := exclusive.given target outcome old
      have bound := less target
      exact ⟨Nat.lt_of_lt_of_le inside grown, by omega⟩
    · exact ⟨Nat.lt_of_lt_of_le inside grown, free⟩

theorem less_routine {mayPanic : Prop} (step : Routine mayPanic before after) (cell : CellId) :
    after.owners own cell ≤ before.owners own cell :=
  (Async.owners own cell).routine (fun _ _ => Nat.le_refl _) (fun _ => Nat.zero_le _) step

/-- A waiter that runs in order to give a cell its outcome has done its part. -/
theorem derived {rest : List (Duty α β)} {world : World α β ε ω} {waiter : Waiter α β}
    {target : CellId} {convert : α → Made α}
    (exclusive : Exclusive own ⟨.fire waiter :: rest, world⟩)
    (kind : waiter.continuation = .derive target convert) (outcome : Outcome α)
    {next : World α β ε ω} (same : next.store = world.store) :
    target < world.store.cells.size ∧
      Moment.owners own ⟨.give target outcome :: rest, next⟩ target = 0 := by
  have once := exclusive.once target
  have blank := exclusive.blank target
  simp only [Moment.owners, Measure.moment, Measure.duties_cons, Async.owners, kind,
    Continuation.owned, List.count_singleton_self, same] at once blank ⊢
  exact ⟨(blank (by omega)).lt_size, by omega⟩

/-- A cell that is linked has its link now. -/
theorem linked {rest : List (Duty α β)} {world : World α β ε ω} {source target : CellId}
    {waiters : List (Waiter α β)} {store : Store α β}
    (exclusive : Exclusive own ⟨.link source target :: rest, world⟩)
    (taken : world.store.linkTo source target = .ok (waiters, store)) :
    Moment.owners own ⟨waiters.map (.hand target) ++ rest, { world with store }⟩ source = 0 := by
  have once := exclusive.once source
  have moved := (Async.owners own source).store_linkTo taken
  simp only [Moment.owners, Measure.moment, Measure.duties_cons, Measure.duties_append,
    Measure.duties_hand] at once ⊢
  have self : (Async.owners own source).duty (.link source target : Duty α β) = 1 := if_pos rfl
  omega

theorem routine {mayPanic : Prop} (exclusive : before.Exclusive own)
    (step : Routine mayPanic before after) : after.Exclusive own := by
  have less (cell : CellId) : after.owners own cell ≤ before.owners own cell := less_routine step cell
  refine exclusive.fewer less step.change.size_le ?_ ?_
  · -- Only outcomes and links touch a blank cell, and then it is no longer owned.
    intro cell owned blank
    cases step with
    | park parked => exact blank.park parked
    | arrive _ arrived | opens _ arrived => exact blank.of_cells_eq (Store.cells_of_arriveAt arrived)
    | @give target outcome _ _ _ _ settled =>
      refine blank.settle ?_ settled
      rintro rfl
      have none := (exclusive.given cell outcome List.mem_cons_self).2
      have fewer := less cell
      omega
    | @link source _ _ _ _ _ _ taken =>
      refine blank.linkTo ?_ taken
      rintro rfl
      rw [exclusive.linked taken] at owned
      contradiction
    | _ => exact blank
  · -- A new outcome to give comes from a waiter that saw to it.
    intro target outcome member
    cases step with
    | derive kind =>
      rcases List.mem_cons.1 member with same | old
      · cases same
        exact .inr (exclusive.derived kind outcome rfl)
      · exact .inl (List.mem_cons_of_mem _ old)
    | pass kind =>
      rcases List.mem_cons.1 member with same | old
      · cases same
        exact .inr (exclusive.derived kind _ rfl)
      · exact .inl (List.mem_cons_of_mem _ old)
    | _ => exact .inl (List.mem_cons_of_mem _ (by simpa using member))

end Moment.Exclusive

/-- Whoever comes to give a cell its outcome saw to it before. -/
theorem Routine.gives_of_unowned {mayPanic : Prop} {before after : Moment α β ε ω} {cell : CellId}
    {outcome : Outcome α} (step : Routine mayPanic before after) (unowned : before.owners own cell = 0)
    (member : .give cell outcome ∈ after.duties) : .give cell outcome ∈ before.duties := by
  cases step with
  | derive kind | pass kind =>
    rcases List.mem_cons.1 member with same | old
    · cases same
      simp [Moment.owners, Measure.moment, Measure.duties_cons, owners, kind, Continuation.owned] at unowned
    · exact List.mem_cons_of_mem _ old
  | _ => exact List.mem_cons_of_mem _ (by simpa using member)

end DeferredJit.Async
