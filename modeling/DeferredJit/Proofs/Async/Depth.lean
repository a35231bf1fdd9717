import DeferredJit.Proofs.Async.Operations

/-! More depth than enough makes no difference: whatever does not run out of depth does the same with
more of it. -/

set_option autoImplicit false

namespace DeferredJit

namespace Act

variable {σ α β item : Type}

/-- The second action does what the first does, unless that runs out of depth. -/
def Deepened (shallow deep : Act σ α) : Prop :=
  ∀ state, (shallow state).1 = .error .exhausted ∨ deep state = shallow state

namespace Deepened

protected theorem refl (action : Act σ α) : Deepened action action := fun _ => .inr rfl

protected theorem exhaust (action : Act σ α) : Deepened exhaust action := fun _ => .inl rfl

theorem bind {shallow deep : Act σ α} {rest further : α → Act σ β} (start : Deepened shallow deep)
    (onward : ∀ value, Deepened (rest value) (further value)) : Deepened (shallow >>= rest) (deep >>= further) := by
  intro state
  rcases ran : shallow state with ⟨stop | value, next⟩
  · rw [bind_error ran]
    rcases start state with out | same
    · rw [ran] at out
      cases out
      exact .inl rfl
    · exact .inr (bind_error (same.trans ran))
  · rcases start state with out | same
    · rw [ran] at out
      cases out
    · rw [bind_ok ran, bind_ok (same.trans ran)]
      exact onward value next

/-- The same start, and then as deep. -/
theorem after (start : Act σ α) {rest further : α → Act σ β} (onward : ∀ value, Deepened (rest value) (further value)) :
    Deepened (start >>= rest) (start >>= further) := (Deepened.refl start).bind onward

/-- The same end. -/
theorem before {shallow deep : Act σ α} (start : Deepened shallow deep) (rest : α → Act σ β) :
    Deepened (shallow >>= rest) (deep >>= rest) := start.bind fun _ => .refl _

protected theorem attempt {shallow deep : Act σ α} (deepened : Deepened shallow deep) :
    Deepened (attempt shallow) (attempt deep) := by
  intro state
  rcases deepened state with out | same
  · left
    rcases ran : shallow state with ⟨stop | value, next⟩
    · rw [ran] at out
      cases out
      simp only [Act.attempt, ran]
    · rw [ran] at out
      cases out
  · right
    simp only [Act.attempt, same]

variable {shallow deep : item → Act σ Unit}

protected theorem each (deepened : ∀ one, Deepened (shallow one) (deep one)) (items : List item) :
    Deepened (each shallow items) (each deep items) := by
  induction items with
  | nil => exact .refl _
  | cons first rest ih => exact (deepened first).bind fun _ => ih

protected theorem eachIsolated (deepened : ∀ one, Deepened (shallow one) (deep one)) (items : List item) :
    Deepened (eachIsolated shallow items) (eachIsolated deep items) := by
  induction items with
  | nil => exact .refl _
  | cons first rest ih => exact (deepened first).attempt.bind fun _ => ih.attempt.before _

end Deepened

end Act

namespace Async

open Act (Deepened)

variable {α β ε ω : Type}

/-- Every waiter is run at least as deep. -/
def Deeper (shallow deep : Fire α β ε ω) : Prop := ∀ waiter, Deepened (shallow waiter) (deep waiter)

/-! ## Operations -/

namespace Deeper

variable {shallow deep : Fire α β ε ω} (deeper : Deeper shallow deep)

include deeper

theorem hand (id : CellId) (waiter : Waiter α β) : Deepened (hand shallow id waiter) (hand deep id waiter) := by
  refine .after _ fun store => ?_
  split
  · exact .refl _
  · exact deeper waiter

theorem register (id : CellId) (continuation : Continuation α β) :
    Deepened (register shallow id continuation) (register deep id continuation) :=
  .after _ fun _ => .after _ fun _ => deeper.hand id _

theorem resolve (id : CellId) (outcome : Outcome α) :
    Deepened (resolve shallow id outcome) (resolve deep id outcome) := by
  refine .after _ fun store => ?_
  split
  · exact .refl _
  · exact .after _ fun _ => (Deepened.eachIsolated deeper _).before _

theorem forward (id target : CellId) : Deepened (forward shallow id target) (forward deep id target) := by
  refine .after _ fun store => ?_
  split
  · exact .refl _
  · exact .after _ fun _ => (Deepened.eachIsolated (deeper.hand target) _).before _

theorem derived (id : CellId) (convert : α → Made α) :
    Deepened (derived shallow id convert) (derived deep id convert) := by
  refine .after _ fun seen => ?_
  split
  · exact .refl _
  · exact .refl _
  · exact .after _ fun _ => (deeper.register id _).before _

theorem whenAll (ids : List CellId) (body : β) {now later : Action α β ε ω Unit} (deepened : Deepened now later) :
    Deepened (whenAll shallow ids body now) (whenAll deep ids body later) := by
  refine .after _ fun store => .after _ fun latch => ?_
  split
  · exact .after _ fun _ => deepened
  · exact .each (fun id => deeper.register id _) _

/-- A waiter is run as deep as its continuation is. -/
theorem run {react further : React α β ε ω} (reacts : ∀ body seen, Deepened (react body seen) (further body seen))
    (waiter : Waiter α β) : Deepened (run react shallow waiter) (run further deep waiter) := by
  refine .after _ fun seen => .after _ fun _ => ?_
  split
  · exact reacts _ seen
  · refine .after _ fun opened => ?_
    split
    · exact .after _ fun _ => reacts _ none
    · exact .refl _
  · split
    · exact .after _ fun _ => (deeper.resolve _ _).before _
    · exact (deeper.resolve _ _).before _
    · exact .refl _

end Deeper

/-- What clients do with a way to run waiters, they do as deep as that goes. -/
theorem deeper_fireWithin {react : Fire α β ε ω → React α β ε ω}
    (reacts : ∀ {shallow deep}, Deeper shallow deep → ∀ body seen, Deepened (react shallow body seen) (react deep body seen))
    {depth deep : Nat} (enough : depth ≤ deep) : Deeper (fireWithin react depth) (fireWithin react deep) := by
  induction depth generalizing deep with
  | zero => exact fun _ => .exhaust _
  | succ depth ih =>
    obtain ⟨deep, rfl⟩ := Nat.exists_eq_add_of_lt enough
    have inner : Deeper (fireWithin react depth) (fireWithin react (depth + deep)) := ih (Nat.le_add_right _ _)
    exact fun waiter => inner.run (reacts inner) waiter

end Async

end DeferredJit
