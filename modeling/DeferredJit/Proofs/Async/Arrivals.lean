import DeferredJit.Proofs.Async.Moment

/-! Latches miss as many arrivals as there are waiters on their way to them. -/

set_option autoImplicit false

namespace DeferredJit.Async

variable {α β ε ω : Type}

def Continuation.arrival? : Continuation α β → Option LatchId
  | .arrive latch => some latch
  | .call _ | .derive .. => none

theorem Continuation.arrival?_eq_some {continuation : Continuation α β} {latch : LatchId} :
    continuation.arrival? = some latch ↔ continuation = .arrive latch := by
  cases continuation <;> simp [arrival?]

/-- The latches that waiters will arrive at. -/
def Moment.arrivals (moment : Moment α β ε ω) : List LatchId :=
  moment.outstanding.filterMap (·.continuation.arrival?)

/-- How many arrivals a latch misses. -/
def Store.missing (store : Store α β) (latch : LatchId) : Nat :=
  (store.latches[latch]?).elim 0 (·.missing)

theorem Store.arriveAt_of_found {store : Store α β} {id : LatchId} {latch : Latch β}
    (found : store.latches[id]? = some latch) :
    store.arriveAt id = (if latch.missing = 1 then some latch.body else none,
      { store with latches := store.latches.set id { latch with missing := latch.missing - 1 } }) := by
  simp only [arriveAt, found]

theorem Store.latches_arriveAt_of_ne (store : Store α β) {latch other : LatchId} (apart : other ≠ latch) :
    (store.arriveAt other).2.latches[latch]? = store.latches[latch]? := by
  unfold arriveAt
  split
  · rfl
  · exact List.getElem?_set_ne apart

theorem Store.missing_arriveAt (store : Store α β) (latch other : LatchId) :
    (store.arriveAt latch).2.missing other =
      if other = latch then store.missing latch - 1 else store.missing other := by
  unfold arriveAt
  cases found : store.latches[latch]? with
  | none =>
    by_cases same : other = latch
    · simp [missing, same, found]
    · simp [same]
  | some selected =>
    obtain ⟨bound, here⟩ := List.getElem?_eq_some_iff.1 found
    by_cases same : other = latch
    · simp [missing, same, bound, here]
    · simp [missing, same, List.getElem?_set_ne (Ne.symm same)]

def Moment.Latched (moment : Moment α β ε ω) : Prop :=
  ∀ latch, moment.arrivals.count latch = moment.world.store.missing latch

namespace Moment.Latched

theorem routine {mayPanic : Prop} {before after : Moment α β ε ω} (latched : before.Latched)
    (step : Routine mayPanic before after) : after.Latched := by
  intro latch
  -- Each arrival is that of the waiter that runs, and the latch misses one less after it.
  have counted : before.arrivals.count latch =
      (before.running.filterMap (·.continuation.arrival?)).count latch + after.arrivals.count latch := by
    have moved := (step.outstanding.filterMap (·.continuation.arrival?)).count_eq latch
    rwa [List.filterMap_append, List.count_append] at moved
  have missed := latched latch
  have idle (same : after.world.store.latches = before.world.store.latches) :
      after.world.store.missing latch = before.world.store.missing latch := by
    unfold Store.missing
    rw [same]
  have arrived {waiter : Waiter α β} {place : LatchId} {rest : List (Duty α β)}
      (running : before.duties = .fire waiter :: rest) (kind : waiter.continuation = .arrive place)
      (same : after.world.store = (before.world.store.arriveAt place).2) :
      after.arrivals.count latch = after.world.store.missing latch := by
    have ran : before.running.filterMap (·.continuation.arrival?) = [place] := by
      simp [Moment.running, running, kind, Continuation.arrival?]
    rw [same, Store.missing_arriveAt]
    rw [ran] at counted
    by_cases here : latch = place
    · subst here
      rw [if_pos rfl]
      rw [List.count_singleton_self] at counted
      omega
    · rw [if_neg here]
      rw [List.count_singleton, if_neg (by simpa using Ne.symm here)] at counted
      omega
  have apart (away : before.running.filterMap (·.continuation.arrival?) = [])
      (same : after.world.store.latches = before.world.store.latches) :
      after.arrivals.count latch = after.world.store.missing latch := by
    rw [idle same]
    rw [away, List.count_nil] at counted
    omega
  cases step with
  | arrive kind taken => exact arrived rfl kind (by rw [taken])
  | opens kind taken => exact arrived rfl kind (by rw [taken]; rfl)
  | park parked => exact apart rfl (Store.aligned_park parked).latches
  | call kind | derive kind | spoil _ kind | pass kind | skip kind =>
    exact apart (by simp [Moment.running, kind, Continuation.arrival?]) rfl
  | give settled => exact apart rfl (Store.aligned_settle settled).latches
  | link _ linked => exact apart rfl (Store.aligned_linkTo linked).latches
  | _ => exact apart rfl rfl

end Moment.Latched

end DeferredJit.Async
