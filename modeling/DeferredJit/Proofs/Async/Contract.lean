import DeferredJit.Proofs.Async.Operations

/-! Contracts of actions: what holds when an action returns and what holds when it panics. An action
with a contract is not cut short. -/

set_option autoImplicit false

namespace DeferredJit.Act

variable {σ α β : Type}

/-- From this state the action returns as `post` says, or panics as `fault` says. -/
def Ends (action : Act σ α) (state : σ) (post : α → σ → Prop) (fault : Panic → σ → Prop) : Prop :=
  match action state with
  | (.ok value, next) => post value next
  | (.error (.panic cause), next) => fault cause next
  | (.error .exhausted, _) => False

namespace Ends

variable {action : Act σ α} {state : σ} {post : α → σ → Prop} {fault : Panic → σ → Prop}

theorem of_ok {value : α} {next : σ} (ran : action state = (.ok value, next)) (holds : post value next) :
    action.Ends state post fault := by
  unfold Ends
  rw [ran]
  exact holds

theorem of_panic {cause : Panic} {next : σ} (ran : action state = (.error (.panic cause), next))
    (holds : fault cause next) : action.Ends state post fault := by
  unfold Ends
  rw [ran]
  exact holds

theorem holds {value : α} {next : σ} (ends : action.Ends state post fault)
    (ran : action state = (.ok value, next)) : post value next := by
  unfold Ends at ends
  rwa [ran] at ends

theorem fails {cause : Panic} {next : σ} (ends : action.Ends state post fault)
    (ran : action state = (.error (.panic cause), next)) : fault cause next := by
  unfold Ends at ends
  rwa [ran] at ends

theorem not_exhausted (ends : action.Ends state post fault) :
    (action state).1 ≠ .error .exhausted := by
  unfold Ends at ends
  intro stopped
  split at ends <;> simp_all

theorem mono {weaker : α → σ → Prop} {lesser : Panic → σ → Prop} (ends : action.Ends state post fault)
    (implied : ∀ value next, post value next → weaker value next)
    (excused : ∀ cause next, fault cause next → lesser cause next) :
    action.Ends state weaker lesser := by
  unfold Ends at *
  split at ends
  · exact implied _ _ ends
  · exact excused _ _ ends
  · exact ends

/-- An action goes on with what the one before it returns, and panics when it does. -/
theorem bind {next : α → Act σ β} {last : β → σ → Prop} (first : action.Ends state post fault)
    (onward : ∀ value between, post value between → (next value).Ends between last fault) :
    (action >>= next).Ends state last fault := by
  unfold Ends at first
  split at first
  · rename_i value between ran
    have rest := onward value between first
    unfold Ends at rest ⊢
    rwa [bind_ok ran]
  · rename_i cause between ran
    exact .of_panic (bind_error ran) first
  · contradiction

/-- An action whose first part is known goes on from where that ends. -/
theorem after {first : Act σ β} {rest : β → Act σ α} {value : β} {next : σ}
    (ran : first state = (.ok value, next)) (ends : (rest value).Ends next post fault) :
    (first >>= rest).Ends state post fault := by
  unfold Ends at ends ⊢
  rwa [bind_ok ran]

protected theorem pure (value : α) (holds : post value state) :
    (pure value : Act σ α).Ends state post fault := .of_ok rfl holds

/-- What an action ends with is what it comes to. -/
theorem exact (ends : action.Ends state post fault) : action.Ends state
    (fun value next => action state = (.ok value, next) ∧ post value next)
    (fun cause next => action state = (.error (.panic cause), next) ∧ fault cause next) := by
  rcases ran : action state with ⟨(cause | _) | value, next⟩
  · exact .of_panic ran ⟨rfl, ends.fails ran⟩
  · exact absurd (by rw [ran]) ends.not_exhausted
  · exact .of_ok ran ⟨rfl, ends.holds ran⟩

/-- Whoever catches a panic goes on from where it happened. -/
theorem attempt {excused : Panic → σ → Prop} (ends : action.Ends state post fault) :
    (attempt action).Ends state
      (fun reply next => match reply with
        | .ok value => post value next
        | .error cause => fault cause next) excused := by
  rcases ran : action state with ⟨(cause | _) | value, next⟩
  · have caught : Act.attempt action state = (.ok (.error cause), next) := by
      simp only [Act.attempt, ran]
    exact .of_ok caught (ends.fails ran)
  · exact absurd (by rw [ran]) ends.not_exhausted
  · have returned : Act.attempt action state = (.ok (.ok value), next) := by
      simp only [Act.attempt, ran]
    exact .of_ok returned (ends.holds ran)

end Ends

end DeferredJit.Act
