import DeferredJit.Proofs.Async.Operations

/-! Views of a state that an action leaves alone, whatever becomes of the action. Operations on cells
leave alone every view that shows neither the cells nor what waiters do, as long as those do who run
the waiters. -/

set_option autoImplicit false

namespace DeferredJit

namespace Act

variable {σ γ α β item : Type} {view : σ → γ}

/-- The view is the same after the action, also when the action was interrupted. -/
def Leaves (view : σ → γ) (action : Act σ α) : Prop := ∀ state, view (action state).2 = view state

namespace Leaves

protected theorem pure (value : α) : Leaves view (pure value : Act σ α) := fun _ => rfl

theorem bind {first : Act σ α} {rest : α → Act σ β} (start : Leaves view first)
    (onward : ∀ value, Leaves view (rest value)) : Leaves view (first >>= rest) := by
  intro state
  have same := start state
  rcases ran : first state with ⟨stop | value, next⟩
  · rw [ran] at same
    rw [bind_error ran]
    exact same
  · rw [ran] at same
    rw [bind_ok ran]
    exact (onward value next).trans same

protected theorem read : Leaves view (read : Act σ σ) := fun _ => rfl

protected theorem modify {change : σ → σ} (same : ∀ state, view (change state) = view state) :
    Leaves view (modify change) := same

protected theorem panic (cause : Panic) : Leaves view (panic cause : Act σ α) := fun _ => rfl

protected theorem lift (made : Except Panic α) : Leaves view (lift made : Act σ α) := by
  cases made with
  | ok value => exact .pure value
  | error cause => exact .panic cause

protected theorem discard {action : Act σ α} (leaves : Leaves view action) :
    Leaves view (discard action) := leaves.bind fun _ => .pure _

protected theorem attempt {action : Act σ α} (leaves : Leaves view action) :
    Leaves view (attempt action) := by
  intro state
  have same := leaves state
  rcases ran : action state with ⟨(cause | _) | value, next⟩ <;>
    simpa only [Act.attempt, ran] using same

variable {body : item → Act σ Unit}

protected theorem each (leaves : ∀ one, Leaves view (body one)) (items : List item) :
    Leaves view (each body items) := by
  induction items with
  | nil => exact .pure _
  | cons first rest ih => exact (leaves first).bind fun _ => ih

protected theorem eachIsolated (leaves : ∀ one, Leaves view (body one)) (items : List item) :
    Leaves view (eachIsolated body items) := by
  induction items with
  | nil => exact .pure _
  | cons first rest ih =>
    exact (leaves first).attempt.bind fun _ => ih.attempt.bind fun _ => .lift _

end Leaves

end Act

namespace Async

variable {α β ε ω γ result : Type}

/-- The view shows neither cells and latches nor what waiters do. -/
structure Blind (view : World α β ε ω → γ) : Prop where
  store : ∀ world store, view { world with store } = view world
  event : ∀ world event, (∀ entry, event ≠ .noted entry) → view (world.log event) = view world

namespace Blind

open Act (Leaves)

variable {view : World α β ε ω → γ} (blind : Blind view) {fire : Fire α β ε ω} {react : React α β ε ω}
  (fires : ∀ waiter, Leaves view (fire waiter)) (reacts : ∀ body seen, Leaves view (react body seen))

include blind

theorem setStore (store : Store α β) : Leaves view (setStore store : Action α β ε ω Unit) :=
  fun world => blind.store world store

theorem onStore (change : Store α β → result × Store α β) :
    Leaves view (onStore change : Action α β ε ω result) :=
  .bind (.bind .read fun _ => .pure _) fun _ => (blind.setStore _).bind fun _ => .pure _

omit blind in
theorem theStore : Leaves view (theStore : Action α β ε ω (Store α β)) := .bind .read fun _ => .pure _

omit blind in
theorem stateOf (id : CellId) : Leaves view (stateOf id : Action α β ε ω (Option (Outcome α))) :=
  theStore.bind fun _ => .pure _

theorem makeSettled (outcome : Outcome α) :
    Leaves view (makeSettled outcome : Action α β ε ω CellId) := blind.onStore _

theorem convertValue (convert : α → Made α) (value : α) :
    Leaves view (convertValue convert value : Action α β ε ω (Outcome α)) :=
  .bind (fun world => blind.event world _ (by simp)) fun _ => .lift _

theorem openLatch (latch : LatchId) {body : Action α β ε ω Unit} (leaves : Leaves view body) :
    Leaves view (openLatch latch body) :=
  .bind (fun world => blind.event world _ (by simp)) fun _ => leaves

include fires

theorem hand (id : CellId) (waiter : Waiter α β) : Leaves view (hand fire id waiter) := by
  refine theStore.bind fun store => ?_
  split
  · exact blind.setStore _
  · exact fires waiter

theorem register (id : CellId) (continuation : Continuation α β) :
    Leaves view (register fire id continuation) :=
  (blind.onStore _).bind fun _ => .bind (fun world => blind.event world _ (by simp)) fun _ =>
    blind.hand fires id _

theorem resolve (id : CellId) (outcome : Outcome α) : Leaves view (resolve fire id outcome) := by
  refine theStore.bind fun store => ?_
  split
  · exact .pure _
  · exact (blind.setStore _).bind fun _ => (Leaves.eachIsolated fires _).bind fun _ => .pure _

theorem forward (id target : CellId) : Leaves view (forward fire id target) := by
  refine theStore.bind fun store => ?_
  split
  · exact .pure _
  · exact (blind.setStore _).bind fun _ =>
      (Leaves.eachIsolated (blind.hand fires target) _).bind fun _ => .pure _

theorem derived (id : CellId) (convert : α → Made α) : Leaves view (derived fire id convert) := by
  refine (stateOf id).bind fun seen => ?_
  split
  · exact (blind.convertValue convert _).bind fun _ => blind.makeSettled _
  · exact blind.makeSettled _
  · exact (blind.onStore _).bind fun _ => (blind.register fires id _).bind fun _ => .pure _

theorem whenAll (ids : List CellId) (body : β) {now : Action α β ε ω Unit} (leaves : Leaves view now) :
    Leaves view (whenAll fire ids body now) := by
  refine theStore.bind fun store => (blind.onStore _).bind fun latch => ?_
  split
  · exact blind.openLatch latch leaves
  · exact .each (fun id => blind.register fires id _) _

include reacts

omit fires in
theorem arrive (latch : LatchId) : Leaves view (arrive react latch) := by
  refine (blind.onStore _).bind fun body => ?_
  split
  · exact blind.openLatch latch (reacts _ none)
  · exact .pure _

/-- Waiters leave alone what their continuations do. -/
theorem run (waiter : Waiter α β) : Leaves view (run react fire waiter) := by
  refine (stateOf _).bind fun seen => .bind (fun world => blind.event world _ (by simp)) fun _ => ?_
  split
  · exact reacts _ seen
  · exact blind.arrive reacts _
  · split
    · exact (blind.convertValue _ _).bind fun _ => (blind.resolve fires _ _).discard
    · exact (blind.resolve fires _ _).discard
    · exact .pure _

end Blind

end Async

end DeferredJit
