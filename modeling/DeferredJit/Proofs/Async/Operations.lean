import DeferredJit.Async.World

/-! What the operations on cells come to, as equations between actions at a world. -/

set_option autoImplicit false

namespace DeferredJit

namespace Act

variable {σ α β item : Type}

/-- The action is not interrupted. -/
def Returns (action : Act σ α) (state : σ) : Prop := ∃ value, (action state).1 = .ok value

theorem bind_ok {first : Act σ α} {rest : α → Act σ β} {state next : σ} {value : α}
    (ran : first state = (.ok value, next)) : (first >>= rest) state = rest value next := by
  rw [bind_apply, ran]

theorem bind_error {first : Act σ α} {rest : α → Act σ β} {state next : σ} {stop : Interrupt}
    (ran : first state = (.error stop, next)) : (first >>= rest) state = (.error stop, next) := by
  rw [bind_apply, ran]

theorem not_returns {action : Act σ α} {state next : σ} {stop : Interrupt}
    (ran : action state = (.error stop, next)) : ¬ action.Returns state := by
  rintro ⟨value, returned⟩
  rw [ran] at returned
  contradiction

variable {body : item → Act σ Unit} {first : item} {state between : σ}

theorem eachIsolated_cons_ok {value : Unit} (ran : body first state = (.ok value, between))
    (others : List item) :
    eachIsolated body (first :: others) state = eachIsolated body others between := by
  simp only [eachIsolated, bind_apply, attempt, ran]
  cases eachIsolated body others between with
  | mk last final => rcases last with (_ | _) | _ <;> rfl

theorem eachIsolated_cons_exhausted (ran : body first state = (.error .exhausted, between))
    (others : List item) :
    eachIsolated body (first :: others) state = (.error .exhausted, between) := by
  simp only [eachIsolated, bind_apply, attempt, ran]

/-- The first panic is what isolated items end with, but they all have their turn before. -/
theorem eachIsolated_cons_panic {cause : Panic}
    (ran : body first state = (.error (.panic cause), between)) (others : List item) :
    eachIsolated body (first :: others) state =
      (match (eachIsolated body others between).1 with
        | .error .exhausted => .error .exhausted
        | _ => .error (.panic cause),
        (eachIsolated body others between).2) := by
  simp only [eachIsolated, bind_apply, attempt, ran]
  cases eachIsolated body others between with
  | mk last final => rcases last with (_ | _) | _ <;> rfl

end Act

namespace Async

variable {α β ε ω : Type}

def World.log (world : World α β ε ω) (event : Event α ε) : World α β ε ω :=
  { world with history := event :: world.history }

@[simp] theorem World.log_store (world : World α β ε ω) (event : Event α ε) :
    (world.log event).store = world.store := rfl

/-- What a waiter leaves in the history when it runs. -/
def World.run (world : World α β ε ω) (waiter : Waiter α β) : World α β ε ω :=
  world.log (.ran waiter.serial waiter.home (world.store.state waiter.home))

@[simp] theorem World.run_store (world : World α β ε ω) (waiter : Waiter α β) :
    (world.run waiter).store = world.store := rfl

section

variable (world : World α β ε ω)

theorem theStore_apply : (theStore : Action α β ε ω (Store α β)) world = (.ok world.store, world) := rfl

theorem onStore_apply {result : Type} (change : Store α β → result × Store α β) :
    (onStore change : Action α β ε ω result) world =
      (.ok (change world.store).1, { world with store := (change world.store).2 }) := rfl

theorem hand_apply (fire : Fire α β ε ω) (id : CellId) (waiter : Waiter α β) :
    hand fire id waiter world =
      match world.store.park id waiter with
      | some store => (.ok (), { world with store })
      | none => fire waiter world := by
  unfold hand
  rw [Act.bind_ok (theStore_apply world)]
  cases world.store.park id waiter <;> rfl

theorem register_apply (fire : Fire α β ε ω) (id : CellId) (continuation : Continuation α β) :
    register fire id continuation world =
      hand fire id (world.store.enroll id continuation).1
        (({ world with store := (world.store.enroll id continuation).2 }).log
          (.registered world.store.registered id)) := rfl

theorem resolve_apply (fire : Fire α β ε ω) (id : CellId) (outcome : Outcome α) :
    resolve fire id outcome world =
      match world.store.settle id outcome with
      | none => (.ok false, world)
      | some (waiters, store) =>
        (Act.eachIsolated fire waiters >>= fun _ => pure true) { world with store } := by
  unfold resolve
  rw [Act.bind_ok (theStore_apply world)]
  cases world.store.settle id outcome <;> rfl

theorem forward_apply (fire : Fire α β ε ω) (id target : CellId) :
    forward fire id target world =
      match world.store.linkTo id target with
      | .error fault => (.ok (.error fault), world)
      | .ok (waiters, store) =>
        (Act.eachIsolated (hand fire target) waiters >>= fun _ => pure (.ok ())) { world with store } := by
  unfold forward
  rw [Act.bind_ok (theStore_apply world)]
  cases world.store.linkTo id target <;> rfl

variable (react : React α β ε ω) (fire : Fire α β ε ω) {waiter : Waiter α β}

theorem run_call {body : β} (kind : waiter.continuation = .call body) :
    run react fire waiter world = react body (world.store.state waiter.home) (world.run waiter) := by
  unfold run
  rw [kind]
  rfl

theorem run_arrive {latch : LatchId} (kind : waiter.continuation = .arrive latch) :
    run react fire waiter world =
      match world.store.arriveAt latch with
      | (some body, store) => react body none (({ world.run waiter with store }).log (.opened latch))
      | (none, store) => (.ok (), { world.run waiter with store }) := by
  unfold run
  rw [kind]
  change arrive react latch (world.run waiter) = _
  unfold arrive
  cases arrived : world.store.arriveAt latch with
  | mk body store =>
    have changed : onStore (·.arriveAt latch) (world.run waiter) =
        (.ok body, { world.run waiter with store }) := by
      rw [onStore_apply, World.run_store, arrived]
    rw [Act.bind_ok changed]
    cases body <;> rfl

theorem run_derive {target : CellId} {convert : α → Made α}
    (kind : waiter.continuation = .derive target convert) :
    run react fire waiter world =
      match world.store.state waiter.home with
      | some (.ok value) =>
        (Act.lift (convert value) >>= fun outcome => discard (resolve fire target outcome))
          ((world.run waiter).log (.converted value))
      | some (.error failure) => discard (resolve fire target (.error failure)) (world.run waiter)
      | none => (.ok (), world.run waiter) := by
  unfold run
  rw [kind]
  change (match world.store.state waiter.home with
    | some (.ok value) => do discard (resolve fire target (← convertValue convert value))
    | some (.error failure) => discard (resolve fire target (.error failure))
    | none => pure () : Action α β ε ω Unit) (world.run waiter) = _
  cases world.store.state waiter.home with
  | none => rfl
  | some outcome => cases outcome <;> rfl

end

end Async

end DeferredJit
