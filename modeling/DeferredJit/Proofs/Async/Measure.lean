import DeferredJit.Proofs.Async.Moment
import Mathlib.Tactic.Common

/-! Sums over all that is outstanding: over waiters, wherever they are, over latches that are still
closed, and over duties. -/

set_option autoImplicit false

namespace DeferredJit.Async

variable {α β ε ω : Type}

theorem total_perm {item : Type} (measure : item → Nat) {first second : List item}
    (same : first.Perm second) : total measure first = total measure second := by
  induction same with
  | nil => rfl
  | cons _ _ ih => simp only [total, ih]
  | swap => simp only [total]; omega
  | trans _ _ first second => exact first.trans second

theorem total_flatMap {item part : Type} (measure : part → Nat) (parts : item → List part)
    (items : List item) :
    total measure (items.flatMap parts) = total (fun item => total measure (parts item)) items := by
  induction items with
  | nil => rfl
  | cons first rest ih => rw [List.flatMap_cons, total_append, ih]; rfl

theorem total_eq_zero {item : Type} {measure : item → Nat} {items : List item}
    (none : ∀ item ∈ items, measure item = 0) : total measure items = 0 := by
  induction items with
  | nil => rfl
  | cons first rest ih =>
    rw [total, none first List.mem_cons_self, ih fun item member => none item (List.mem_cons_of_mem _ member)]

theorem le_total {item : Type} (measure : item → Nat) {items : List item} {one : item} (member : one ∈ items) :
    measure one ≤ total measure items := by
  induction items with
  | nil => cases member
  | cons first rest ih =>
    rw [total]
    rcases List.mem_cons.1 member with rfl | later
    · exact Nat.le_add_right _ _
    · exact Nat.le_trans (ih later) (Nat.le_add_left _ _)

/-- What waiters, the bodies of latches and duties count for. A waiter counts the same on its way. -/
structure Measure (α β : Type) where
  waiter : Waiter α β → Nat
  body : β → Nat
  duty : Duty α β → Nat
  call : ∀ {waiting : Waiter α β} {called : β}, waiting.continuation = .call called →
    waiter waiting = body called
  hand : ∀ place waiting, duty (.hand place waiting) = waiter waiting
  fire : ∀ waiting, duty (.fire waiting) = waiter waiting

namespace Measure

variable (measure : Measure α β)

def latch (latch : Latch β) : Nat := if latch.missing = 0 then 0 else measure.body latch.body

def store (store : Store α β) : Nat :=
  total measure.waiter store.waiters + total measure.latch store.latches

def duties (duties : List (Duty α β)) : Nat := total measure.duty duties

def moment (moment : Moment α β ε ω) : Nat :=
  measure.duties moment.duties + measure.store moment.world.store

@[simp] theorem duties_nil : measure.duties [] = 0 := rfl

@[simp] theorem duties_cons (first : Duty α β) (rest : List (Duty α β)) :
    measure.duties (first :: rest) = measure.duty first + measure.duties rest := rfl

@[simp] theorem duties_append (first second : List (Duty α β)) :
    measure.duties (first ++ second) = measure.duties first + measure.duties second :=
  total_append ..

@[simp] theorem duties_fire (waiters : List (Waiter α β)) :
    measure.duties (waiters.map .fire) = total measure.waiter waiters := by
  induction waiters with
  | nil => rfl
  | cons first rest ih => rw [List.map_cons, duties_cons, ih, measure.fire]; rfl

@[simp] theorem duties_hand (place : CellId) (waiters : List (Waiter α β)) :
    measure.duties (waiters.map (.hand place)) = total measure.waiter waiters := by
  induction waiters with
  | nil => rfl
  | cons first rest ih => rw [List.map_cons, duties_cons, ih, measure.hand]; rfl

/-! ## What one thing counts for -/

section Among

variable {moment : Moment α β ε ω}

theorem duty_le_moment {duty : Duty α β} (member : duty ∈ moment.duties) :
    measure.duty duty ≤ measure.moment moment :=
  Nat.le_trans (le_total measure.duty member) (Nat.le_add_right _ _)

theorem waiter_le_moment {waiter : Waiter α β} (member : waiter ∈ moment.outstanding) :
    measure.waiter waiter ≤ measure.moment moment := by
  rcases List.mem_append.1 member with due | waiting
  · obtain ⟨duty, among, same⟩ := List.mem_filterMap.1 due
    have weighs : measure.duty duty = measure.waiter waiter := by
      cases duty with
      | hand place other =>
        cases same
        exact measure.hand place waiter
      | fire other =>
        cases same
        exact measure.fire waiter
      | _ => cases same
    exact weighs ▸ measure.duty_le_moment among
  · have less := le_total measure.waiter waiting
    simp only [Measure.moment, Measure.store]
    omega

theorem body_le_moment {latch : Latch β} (member : latch ∈ moment.world.store.latches)
    (closed : latch.missing ≠ 0) : measure.body latch.body ≤ measure.moment moment := by
  have less := le_total measure.latch member
  have weighs : measure.latch latch = measure.body latch.body := if_neg closed
  simp only [Measure.moment, Measure.store]
  omega

end Among

/-! ## What steps do -/

variable {store next : Store α β}

theorem store_settle {id : CellId} {outcome : Outcome α} {waiters : List (Waiter α β)}
    (settled : store.settle id outcome = some (waiters, next)) :
    total measure.waiter waiters + measure.store next = measure.store store := by
  have moved := total_perm measure.waiter (Store.waiters_settle settled)
  obtain ⟨_, -, -, -, -, rfl⟩ := Store.settle_eq_some_iff.1 settled
  rw [total_append] at moved
  simp only [Measure.store, Store.put] at moved ⊢
  omega

theorem store_linkTo {id target : CellId} {waiters : List (Waiter α β)}
    (linked : store.linkTo id target = .ok (waiters, next)) :
    total measure.waiter waiters + measure.store next = measure.store store := by
  have moved := total_perm measure.waiter (Store.waiters_linkTo linked)
  obtain ⟨_, -, -, -, -, -, -, rfl⟩ := Store.linkTo_eq_ok_iff.1 linked
  rw [total_append] at moved
  simp only [Measure.store, Store.put] at moved ⊢
  omega

theorem store_park {id : CellId} {waiter : Waiter α β} (parked : store.park id waiter = some next) :
    measure.store next = measure.waiter waiter + measure.store store := by
  have moved := total_perm measure.waiter (Store.waiters_park parked)
  obtain ⟨_, -, -, rfl⟩ := Store.park_eq_some_iff.1 parked
  simp only [Measure.store, Store.put, total] at moved ⊢
  omega

theorem store_make {cell : Cell α β} (nobody : cell.waiters = []) :
    measure.store (store.make cell).2 = measure.store store := by
  simp only [Measure.store, Store.waiters_make store nobody]
  rfl

theorem store_enroll (home : CellId) (continuation : Continuation α β) :
    measure.store (store.enroll home continuation).2 = measure.store store := rfl

theorem store_makeLatch (store : Store α β) (latch : Latch β) :
    measure.store (store.makeLatch latch).2 = measure.latch latch + measure.store store := by
  simp only [Measure.store, Store.makeLatch, Store.waiters, total_append, total]
  omega

/-- An arrival frees what the latch holds back when it opens, and costs nothing otherwise. -/
theorem store_arriveAt (store : Store α β) (id : LatchId) :
    ((store.arriveAt id).1.elim 0 measure.body) + measure.store (store.arriveAt id).2 ≤
      measure.store store := by
  unfold Store.arriveAt
  cases found : store.latches[id]? with
  | none => simp
  | some latch =>
    obtain ⟨bound, here⟩ := List.getElem?_eq_some_iff.1 found
    have before : store.latches =
        store.latches.take id ++ latch :: store.latches.drop (id + 1) := by
      rw [← here, List.getElem_cons_drop, List.take_append_drop]
    have latches : total measure.latch store.latches =
        total measure.latch (store.latches.take id) +
          (measure.latch latch + total measure.latch (store.latches.drop (id + 1))) := by
      conv => lhs; rw [before]
      rw [total_append, total]
    simp only [Measure.store, Store.waiters, latches, List.set_eq_take_append_cons_drop, if_pos bound,
      total_append, total, Measure.latch]
    by_cases last : latch.missing = 1
    · simp [last]; omega
    · by_cases none : latch.missing = 0
      · simp [none]
      · have more : latch.missing - 1 ≠ 0 := by omega
        simp [last, none, more]

/-- What is outstanding never counts for more after a step, if answers count for no more than what
they answer, and outcomes to give for no more than the waiter that gives them. -/
theorem routine (answer : ∀ body seen, measure.duty (.answer body seen) ≤ measure.body body)
    (derive : ∀ {waiting target convert outcome}, waiting.continuation = .derive target convert →
      measure.duty (.give target outcome) ≤ measure.waiter waiting)
    {mayPanic : Prop} {before after : Moment α β ε ω} (step : Routine mayPanic before after) :
    measure.moment after ≤ measure.moment before := by
  cases step with
  | park parked =>
    have moved := measure.store_park parked
    simp only [moment, duties_cons, measure.hand]
    omega
  | ready => simp only [moment, duties_cons, measure.hand, measure.fire]; omega
  | @call waiter body rest world kind =>
    have less := answer body (world.store.state waiter.home)
    simp only [moment, duties_cons, measure.fire, measure.call kind, World.run_store]
    omega
  | @arrive waiter latch rest world store _ arrived =>
    have freed := measure.store_arriveAt world.store latch
    rw [arrived] at freed
    simp only [moment, duties_cons, measure.fire]
    simp only [Option.elim] at freed
    omega
  -- What a latch weighs pays for its body.
  | @opens waiter latch rest world store body _ arrived =>
    have freed := measure.store_arriveAt world.store latch
    have less := answer body none
    rw [arrived] at freed
    simp only [moment, duties_cons, measure.fire, World.log_store]
    simp only [Option.elim] at freed
    omega
  | @derive waiter target convert rest world value outcome kind _ _ =>
    have less : measure.duty (.give target outcome) ≤ measure.waiter waiter := derive kind
    simp only [moment, duties_cons, measure.fire, World.log_store, World.run_store]
    omega
  | spoil => simp only [moment, duties_cons, World.log_store, World.run_store]; omega
  | @pass waiter target convert rest world failure kind _ =>
    have less : measure.duty (.give target (.error failure)) ≤ measure.waiter waiter := derive kind
    simp only [moment, duties_cons, measure.fire, World.run_store]
    omega
  | skip => simp only [moment, duties_cons, World.run_store]; omega
  | give settled =>
    have moved := measure.store_settle settled
    simp only [moment, duties_cons, duties_append, duties_fire]
    omega
  | refuse => simp only [moment, duties_cons]; omega
  | link _ linked =>
    have moved := measure.store_linkTo linked
    simp only [moment, duties_cons, duties_append, duties_hand]
    omega
  | bar => simp only [moment, duties_cons]; omega
  | abandon => simp only [moment, duties_cons]; omega

end Measure

end DeferredJit.Async
