import DeferredJit.Failure

/-! Actions on a state that may stop early. Whatever stops an action, the state it had reached
stays. -/

set_option autoImplicit false

namespace DeferredJit

/-- Why an action stopped: it panicked, or calls within calls went deeper than was allowed for. -/
inductive Interrupt where
  | panic (cause : Panic)
  | exhausted
  deriving DecidableEq, Repr

def Act (σ α : Type) : Type := σ → Except Interrupt α × σ

namespace Act

variable {σ α β : Type}

protected def pure (value : α) : Act σ α := fun state => (.ok value, state)

protected def bind (first : Act σ α) (rest : α → Act σ β) : Act σ β := fun state =>
  match first state with
  | (.ok value, next) => rest value next
  | (.error stop, next) => (.error stop, next)

instance : Monad (Act σ) where
  pure := Act.pure
  bind := Act.bind

theorem pure_apply (value : α) (state : σ) : (pure value : Act σ α) state = (.ok value, state) := rfl

theorem bind_apply (first : Act σ α) (rest : α → Act σ β) (state : σ) :
    (first >>= rest) state =
      match first state with
      | (.ok value, next) => rest value next
      | (.error stop, next) => (.error stop, next) := rfl

theorem bind_pure_self (action : Act σ α) : (action >>= fun value => pure value) = action := by
  funext state
  rw [bind_apply]
  split <;> simp_all [pure_apply]

theorem bind_bind {γ : Type} (first : Act σ α) (second : α → Act σ β) (third : β → Act σ γ) :
    (first >>= second >>= third) = first >>= fun value => second value >>= third := by
  funext state
  simp only [bind_apply]
  cases first state with
  | mk result next => cases result <;> rfl

instance : LawfulMonad (Act σ) :=
  LawfulMonad.mk' (Act σ) (fun action => bind_pure_self action) (fun _ _ => rfl)
    (fun first second third => bind_bind first second third)

def read : Act σ σ := fun state => (.ok state, state)

def write (state : σ) : Act σ Unit := fun _ => (.ok (), state)

def modify (change : σ → σ) : Act σ Unit := fun state => (.ok (), change state)

def panic (cause : Panic) : Act σ α := fun state => (.error (.panic cause), state)

def exhaust : Act σ α := fun state => (.error .exhausted, state)

/-- Do what a computation without a state says: go on with its value, or panic. -/
def lift : Except Panic α → Act σ α
  | .ok value => pure value
  | .error cause => panic cause

/-- Go on after a panic. -/
def attempt (action : Act σ α) : Act σ (Except Panic α) := fun state =>
  match action state with
  | (.ok value, next) => (.ok (.ok value), next)
  | (.error (.panic cause), next) => (.ok (.error cause), next)
  | (.error .exhausted, next) => (.error .exhausted, next)

@[simp] theorem attempt_panic (cause : Panic) (state : σ) :
    attempt (panic cause : Act σ α) state = (.ok (.error cause), state) := rfl

@[simp] theorem lift_ok (value : α) : (lift (.ok value) : Act σ α) = pure value := rfl

/-- For every item of a list in order, stopping at the first interrupt. -/
def each (body : α → Act σ Unit) : List α → Act σ Unit
  | [] => pure ()
  | first :: rest => do
    body first
    each body rest

/-- For every item of a list in order, going on after panics. The first panic is raised again once
all items had their turn. -/
def eachIsolated (body : α → Act σ Unit) : List α → Act σ Unit
  | [] => pure ()
  | first :: rest => do
    let now ← attempt (body first)
    let later ← attempt (eachIsolated body rest)
    lift (now >>= fun _ => later)

end Act

end DeferredJit
