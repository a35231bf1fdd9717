import DeferredJit.Proofs.Async.Moment

/-! Continuations at a moment: those that wait or are on their way, those that latches hold back, and
those that are about to be done. Operations in progress bring no others. -/

set_option autoImplicit false

namespace DeferredJit.Async

variable {α β ε ω : Type}

/-- Operations in progress make no latches, and leave the bodies of those that there are. -/
theorem Routine.latches {mayPanic : Prop} {before after : Moment α β ε ω} (step : Routine mayPanic before after)
    {latch : Latch β} (member : latch ∈ after.world.store.latches) :
    ∃ former ∈ before.world.store.latches, former.body = latch.body := by
  cases step with
  | park parked => exact ⟨latch, (Store.aligned_park parked).latches ▸ member, rfl⟩
  | @arrive _ place _ world store _ arrived => exact Store.latches_arriveAt (by rw [arrived]; exact member)
  | @opens _ place _ world store _ _ arrived => exact Store.latches_arriveAt (by rw [arrived]; exact member)
  | give settled => exact ⟨latch, (Store.aligned_settle settled).latches ▸ member, rfl⟩
  | link _ linked => exact ⟨latch, (Store.aligned_linkTo linked).latches ▸ member, rfl⟩
  | _ => exact ⟨latch, member, rfl⟩

/-- Something holds of all continuations. -/
structure Moment.Carries (moment : Moment α β ε ω) (holds : Continuation α β → Prop) : Prop where
  waiting : ∀ waiter ∈ moment.outstanding, holds waiter.continuation
  latched : ∀ latch ∈ moment.world.store.latches, holds (.call latch.body)
  asked : ∀ body seen, .answer body seen ∈ moment.duties → holds (.call body)

/-- Something holds of what a duty is about to run. -/
def Duty.Bears (holds : Continuation α β → Prop) : Duty α β → Prop
  | .hand _ waiter | .fire waiter => holds waiter.continuation
  | .answer body _ => holds (.call body)
  | .give .. | .link .. => True

namespace Moment.Carries

variable {holds : Continuation α β → Prop} {before after : Moment α β ε ω} {duty : Duty α β}
  {duties : List (Duty α β)} {world : World α β ε ω}

/-- Cells and latches stay as they are. -/
theorem of_cells_eq {next : World α β ε ω} (carries : Carries ⟨duties, world⟩ holds)
    (cells : next.store.cells = world.store.cells) (latches : next.store.latches = world.store.latches) :
    Carries ⟨duties, next⟩ holds where
  waiting := by
    rw [Moment.outstanding, Store.waiters_of_cells_eq cells]
    exact carries.waiting
  latched := by
    rw [latches]
    exact carries.latched
  asked := carries.asked

/-- A duty is dropped. -/
theorem drop (carries : Carries ⟨duty :: duties, world⟩ holds) : Carries ⟨duties, world⟩ holds where
  waiting waiter member := by
    refine carries.waiting waiter ?_
    rcases List.mem_append.1 member with due | parked
    · obtain ⟨other, among, same⟩ := List.mem_filterMap.1 due
      exact List.mem_append_left _ (List.mem_filterMap.2 ⟨other, List.mem_cons_of_mem _ among, same⟩)
    · exact List.mem_append_right _ parked
  latched := carries.latched
  asked body seen member := carries.asked body seen (List.mem_cons_of_mem _ member)

theorem ask (carries : Carries ⟨duties, world⟩ holds) (bears : duty.Bears holds) :
    Carries ⟨duty :: duties, world⟩ holds where
  waiting waiter member := by
    rcases List.mem_append.1 member with due | parked
    · obtain ⟨other, among, same⟩ := List.mem_filterMap.1 due
      rcases List.mem_cons.1 among with rfl | old
      · cases other with
        | hand | fire =>
          cases same
          exact bears
        | _ => cases same
      · exact carries.waiting waiter (List.mem_append_left _ (List.mem_filterMap.2 ⟨other, old, same⟩))
    · exact carries.waiting waiter (List.mem_append_right _ parked)
  latched := carries.latched
  asked body seen member := by
    rcases List.mem_cons.1 member with rfl | old
    · exact bears
    · exact carries.asked body seen old

theorem mono {weaker : Continuation α β → Prop} (carries : before.Carries holds)
    (implied : ∀ continuation, holds continuation → weaker continuation) : before.Carries weaker where
  waiting waiter member := implied _ (carries.waiting waiter member)
  latched latch member := implied _ (carries.latched latch member)
  asked body seen member := implied _ (carries.asked body seen member)

theorem routine {mayPanic : Prop} (carries : before.Carries holds) (step : Routine mayPanic before after) :
    after.Carries holds where
  waiting waiter member :=
    carries.waiting waiter (step.outstanding.mem_iff.2 (List.mem_append_right _ member))
  latched latch member := by
    obtain ⟨former, among, same⟩ := step.latches member
    exact same ▸ carries.latched former among
  asked body seen member := by
    cases step with
    | call kind =>
      rcases List.mem_cons.1 member with same | old
      · cases same
        exact kind ▸ carries.waiting _ List.mem_cons_self
      · exact carries.asked body seen (List.mem_cons_of_mem _ old)
    | @opens _ latch _ world _ _ _ arrived =>
      rcases List.mem_cons.1 member with same | old
      · cases same
        have called : (world.store.arriveAt latch).1 = some body := by rw [arrived]
        obtain ⟨former, among, same⟩ := Store.body_arriveAt called
        exact same ▸ carries.latched former among
      · exact carries.asked body seen (List.mem_cons_of_mem _ old)
    | _ => exact carries.asked body seen (List.mem_cons_of_mem _ (by simpa using member))

end Moment.Carries

end DeferredJit.Async
