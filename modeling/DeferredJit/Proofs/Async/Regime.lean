import DeferredJit.Proofs.Async.Measure
import DeferredJit.Proofs.Async.Operations

/-! Operations are made of small steps, and never run out of depth when there is enough of it.

Both are shown together: an operation that has used up the depth stops in the middle, where it is
not made of whole steps.
-/

set_option autoImplicit false

namespace DeferredJit.Async

variable {α β ε ω : Type}

/-- How deep waiters, and what clients do, may lead. Running a waiter uses up a level before its body
starts. -/
def tariff (weight : β → Nat) : Measure α β where
  waiter waiting := waiting.continuation.weight weight
  body := weight
  duty
    | .hand _ waiting | .fire waiting => waiting.continuation.weight weight
    | .answer body _ => weight body - 1
    | .give .. | .link .. => 0
  call kind := by rw [kind]; rfl
  hand _ _ := rfl
  fire _ := rfl

theorem tariff_store (weight : β → Nat) (store : Store α β) :
    (tariff weight).store store = store.weight weight := by
  unfold Measure.store Store.waiters Store.weight
  rw [total_flatMap]
  rfl

/-! ## Regimes -/

/-- The steps that are taken, and what holds at all their moments and clients rely on. -/
structure Regime (α β ε ω : Type) where
  Step : Moment α β ε ω → Moment α β ε ω → Prop
  Fit : Moment α β ε ω → Prop
  mayPanic : Prop
  weight : β → Nat
  /-- What there must be to spare at any time. -/
  spare : Nat
  fit : ∀ {before after}, Step before after → Fit before → Fit after
  routine : ∀ {before after}, Fit before → Routine mayPanic before after → Step before after
  /-- Running a waiter takes a level. -/
  dear : ∀ body, 1 ≤ weight body

namespace Regime

variable (regime : Regime α β ε ω)

def tariff : Measure α β := Async.tariff regime.weight

@[simp] theorem duty_hand (place : CellId) (waiter : Waiter α β) :
    regime.tariff.duty (.hand place waiter) = regime.tariff.waiter waiter := rfl

@[simp] theorem duty_fire (waiter : Waiter α β) :
    regime.tariff.duty (.fire waiter) = regime.tariff.waiter waiter := rfl

@[simp] theorem duty_answer (body : β) (seen : Option (Outcome α)) :
    regime.tariff.duty (.answer body seen) = regime.tariff.body body - 1 := rfl

@[simp] theorem duty_give (target : CellId) (outcome : Outcome α) :
    regime.tariff.duty (.give target outcome) = 0 := rfl

@[simp] theorem duty_link (source target : CellId) :
    regime.tariff.duty (.link source target) = 0 := rfl

theorem one_le_waiter (waiter : Waiter α β) : 1 ≤ regime.tariff.waiter waiter := by
  change 1 ≤ waiter.continuation.weight regime.weight
  cases waiter.continuation with
  | call body => exact regime.dear body
  | arrive => exact Nat.le_refl 1
  | derive => exact Nat.le_refl 1

theorem fit_steps {before after : Moment α β ε ω} (steps : Steps regime.Step before after)
    (fit : regime.Fit before) : regime.Fit after :=
  steps.keep (fun step kept => regime.fit step kept) fit

/-- The action has done the first duties in small steps, and has cost what they cost and the budget
at most. -/
structure Done (budget : Nat) (duties rest : List (Duty α β)) (before after : World α β ε ω) :
    Prop where
  steps : Steps regime.Step ⟨duties ++ rest, before⟩ ⟨rest, after⟩
  cost : regime.tariff.store after.store ≤
    regime.tariff.duties duties + budget + regime.tariff.store before.store

/-- With enough depth the action does the first duties, if panics are allowed or it returns. -/
def Does (depth budget : Nat) (duties : List (Duty α β)) {result : Type}
    (action : Action α β ε ω result) (rest : List (Duty α β)) (world : World α β ε ω) : Prop :=
  regime.tariff.duties duties + budget + regime.tariff.store world.store + regime.spare ≤ depth →
    regime.mayPanic ∨ action.Returns world →
    (action world).1 ≠ .error .exhausted ∧ regime.Done budget duties rest world (action world).2

/-- Waiters are run as duties say. -/
def Fires (depth : Nat) (fire : Fire α β ε ω) : Prop :=
  ∀ ⦃waiter rest world⦄, regime.Fit ⟨.fire waiter :: rest, world⟩ →
    regime.Does depth 0 [.fire waiter] (fire waiter) rest world

/-- What the client wants done is done. -/
def Answers (depth : Nat) (react : React α β ε ω) : Prop :=
  ∀ ⦃body seen rest world⦄, regime.Fit ⟨.answer body seen :: rest, world⟩ →
    regime.Does depth 0 [.answer body seen] (react body seen) rest world

variable {regime} {depth : Nat} {rest : List (Duty α β)} {world : World α β ε ω}

namespace Does

variable {result further : Type} {budget : Nat} {duties : List (Duty α β)}

/-- An action that returns after some steps, or none. -/
theorem of_steps {action : Action α β ε ω result} {value : result} {next : World α β ε ω}
    (ran : action world = (.ok value, next))
    (steps : Steps regime.Step ⟨duties ++ rest, world⟩ ⟨rest, next⟩)
    (cost : regime.tariff.store next.store ≤
      regime.tariff.duties duties + budget + regime.tariff.store world.store) :
    regime.Does depth budget duties action rest world := by
  intro _ _
  rw [ran]
  exact ⟨by simp, steps, cost⟩

/-- Stopping with a panic, where that is allowed. -/
theorem of_panic {action : Action α β ε ω result} {cause : Panic} {next : World α β ε ω}
    (ran : action world = (.error (.panic cause), next))
    (steps : regime.mayPanic → Steps regime.Step ⟨duties ++ rest, world⟩ ⟨rest, next⟩)
    (cost : regime.tariff.store next.store ≤
      regime.tariff.duties duties + budget + regime.tariff.store world.store) :
    regime.Does depth budget duties action rest world := by
  intro _ calm
  rw [ran]
  refine ⟨by simp, steps ?_, cost⟩
  refine calm.resolve_right ?_
  rintro ⟨value, returned⟩
  rw [ran] at returned
  contradiction

/-- Take steps first, and then do what they leave to do. Levels that they save may be missing. -/
theorem after_steps {action later : Action α β ε ω result} {next : World α β ε ω}
    (others : List (Duty α β)) (lower saved : Nat)
    (steps : Steps regime.Step ⟨duties ++ rest, world⟩ ⟨others ++ rest, next⟩)
    (same : action world = later next)
    (cost : regime.tariff.duties others + lower + regime.tariff.store next.store + saved ≤
      regime.tariff.duties duties + budget + regime.tariff.store world.store)
    (does : regime.Does depth lower others later rest next) :
    regime.Does (depth + saved) budget duties action rest world := by
  intro enough calm
  unfold Act.Returns at calm
  rw [same] at calm ⊢
  obtain ⟨deep, done⟩ := does (by omega) calm
  exact ⟨deep, steps.trans done.steps, by have := done.cost; omega⟩

theorem bind {later : Nat} {first : Action α β ε ω result} {next : result → Action α β ε ω further}
    (does : regime.Does depth budget duties first rest world)
    (onward : ∀ {value between}, first world = (.ok value, between) →
      Steps regime.Step ⟨duties ++ rest, world⟩ ⟨rest, between⟩ →
      regime.Does depth later [] (next value) rest between) :
    regime.Does depth (budget + later) duties (first >>= next) rest world := by
  intro enough calm
  have firstDone := does (by omega)
  cases ran : first world with
  | mk reply between =>
    rw [ran] at firstDone
    cases reply with
    | error stop =>
      have same : (first >>= next) world = (.error stop, between) := Act.bind_error ran
      have allowed : regime.mayPanic := by
        refine calm.resolve_right ?_
        rintro ⟨value, returned⟩
        rw [same] at returned
        contradiction
      obtain ⟨deep, steps, cost⟩ := firstDone (.inl allowed)
      rw [same]
      exact ⟨by simpa using deep, steps, Nat.le_trans cost (by omega)⟩
    | ok value =>
      obtain ⟨-, steps, cost⟩ := firstDone (.inr ⟨value, by rw [ran]⟩)
      replace cost : regime.tariff.store between.store ≤ _ := cost
      have same : (first >>= next) world = next value between := Act.bind_ok ran
      unfold Act.Returns at calm
      rw [same] at calm ⊢
      obtain ⟨deep, further, dearer⟩ := onward ran steps
        (by simp only [Measure.duties_nil]; omega) calm
      refine ⟨deep, steps.trans further, Nat.le_trans dearer ?_⟩
      simp only [Measure.duties_nil]
      omega

/-- To look at how things stand and return something adds nothing. -/
theorem finish {first : Action α β ε ω result} {last : result → Action α β ε ω further}
    (does : regime.Does depth budget duties first rest world)
    (ends : ∀ value between, ∃ given, last value between = (.ok given, between)) :
    regime.Does depth budget duties (first >>= last) rest world := by
  have onward (value : result) (between : World α β ε ω) :
      regime.Does depth 0 [] (last value) rest between := by
    obtain ⟨given, ended⟩ := ends value between
    exact .of_steps ended .refl (by simp)
  have both := does.bind fun {value between} _ _ => onward value between
  exact both

/-- A step of reading: nothing is done yet. -/
theorem read {value : result} {action : Action α β ε ω result}
    {next : result → Action α β ε ω further} (ran : action world = (.ok value, world))
    (does : regime.Does depth budget duties (next value) rest world) :
    regime.Does depth budget duties (action >>= next) rest world := by
  intro enough calm
  unfold Act.Returns at calm
  rw [Act.bind_ok ran] at calm ⊢
  exact does enough calm

end Does

/-! ## The operations -/

section Operations

variable {fire : Fire α β ε ω}

/-- Items that are done one after the other are all done, whichever of them panic. -/
theorem eachIsolated_does {item : Type} {body : item → Action α β ε ω Unit} {duty : item → Duty α β}
    (each : ∀ ⦃item rest world⦄, regime.Fit ⟨duty item :: rest, world⟩ →
      regime.Does depth 0 [duty item] (body item) rest world)
    (items : List item) (fit : regime.Fit ⟨items.map duty ++ rest, world⟩) :
    regime.Does depth 0 (items.map duty) (Act.eachIsolated body items) rest world := by
  induction items generalizing world with
  | nil => exact .of_steps rfl .refl (by simp)
  | cons first others ih =>
    intro enough calm
    simp only [List.map_cons, Measure.duties_cons] at enough
    have start := @each first (others.map duty ++ rest) world fit
      (by simp only [Measure.duties_cons, Measure.duties_nil]; omega)
    -- How the others are done does not depend on how the first one ended.
    have onward {between : World α β ε ω}
        (done : regime.Done 0 [duty first] (others.map duty ++ rest) world between)
        (calm : regime.mayPanic ∨ (Act.eachIsolated body others).Returns between) :
        (Act.eachIsolated body others between).1 ≠ .error .exhausted ∧
          regime.Done 0 ((first :: others).map duty) rest world
            (Act.eachIsolated body others between).2 := by
      have cost := done.cost
      simp only [Measure.duties_cons, Measure.duties_nil] at cost
      obtain ⟨deep, further⟩ := ih (regime.fit_steps done.steps fit) (by omega) calm
      refine ⟨deep, done.steps.trans further.steps, Nat.le_trans further.cost ?_⟩
      simp only [List.map_cons, Measure.duties_cons]
      omega
    cases ran : body first world with
    | mk reply between =>
      rw [ran] at start
      rcases reply with (cause | _) | value
      · have ended := Act.eachIsolated_cons_panic ran others
        have allowed : regime.mayPanic := by
          refine calm.resolve_right ?_
          rintro ⟨value, returned⟩
          rw [ended] at returned
          split at returned <;> contradiction
        obtain ⟨deep, done⟩ := onward (start (.inl allowed)).2 (.inl allowed)
        rw [ended]
        refine ⟨?_, done⟩
        split
        · contradiction
        · simp
      · have ended := Act.eachIsolated_cons_exhausted ran others
        have allowed := calm.resolve_right (Act.not_returns ended)
        exact absurd rfl (start (.inl allowed)).1
      · have ended := Act.eachIsolated_cons_ok ran others
        unfold Act.Returns at calm
        rw [ended] at calm ⊢
        exact onward (start (.inr ⟨value, by rw [ran]⟩)).2 calm

/-- Items that are done one after the other up to the first that panics. Those after it may be
abandoned where panics are allowed. -/
theorem each_does {item : Type} {body : item → Action α β ε ω Unit} {duty : item → Duty α β}
    (each : ∀ ⦃item rest world⦄, regime.Fit ⟨duty item :: rest, world⟩ →
      regime.Does depth 0 [duty item] (body item) rest world)
    (abandon : ∀ ⦃item rest world⦄, regime.mayPanic → regime.Fit ⟨duty item :: rest, world⟩ →
      regime.Step ⟨duty item :: rest, world⟩ ⟨rest, world⟩)
    (items : List item) (fit : regime.Fit ⟨items.map duty ++ rest, world⟩) :
    regime.Does depth 0 (items.map duty) (Act.each body items) rest world := by
  induction items generalizing world with
  | nil => exact .of_steps rfl .refl (by simp)
  | cons first others ih =>
    intro enough calm
    simp only [List.map_cons, Measure.duties_cons] at enough
    have start := @each first (others.map duty ++ rest) world fit
      (by simp only [Measure.duties_cons, Measure.duties_nil]; omega)
    -- After a panic the duties of the others are abandoned one by one.
    have dropped (allowed : regime.mayPanic) {items : List item} {between : World α β ε ω}
        (fit : regime.Fit ⟨items.map duty ++ rest, between⟩) :
        Steps regime.Step ⟨items.map duty ++ rest, between⟩ ⟨rest, between⟩ := by
      induction items with
      | nil => exact .refl
      | cons first others ih =>
        have step := abandon allowed fit
        exact .head step (ih (regime.fit step fit))
    cases ran : body first world with
    | mk reply between =>
      rw [ran] at start
      cases reply with
      | error stop =>
        have same : Act.each body (first :: others) world = (.error stop, between) := Act.bind_error ran
        have allowed := calm.resolve_right (Act.not_returns same)
        obtain ⟨deep, done⟩ := start (.inl allowed)
        have cost : regime.tariff.store between.store ≤ _ := done.cost
        simp only [Measure.duties_cons, Measure.duties_nil] at cost
        rw [same]
        refine ⟨by simpa using deep, done.steps.trans (dropped allowed ?_), ?_⟩
        · exact regime.fit_steps done.steps fit
        · simp only [List.map_cons, Measure.duties_cons]
          omega
      | ok value =>
        obtain ⟨-, done⟩ := start (.inr ⟨value, by rw [ran]⟩)
        have cost : regime.tariff.store between.store ≤ _ := done.cost
        simp only [Measure.duties_cons, Measure.duties_nil] at cost
        have same : Act.each body (first :: others) world = Act.each body others between := Act.bind_ok ran
        unfold Act.Returns at calm
        rw [same] at calm ⊢
        have onward : regime.Fit ⟨others.map duty ++ rest, between⟩ := regime.fit_steps done.steps fit
        obtain ⟨deep, further⟩ := ih onward (by omega) calm
        refine ⟨deep, done.steps.trans further.steps, Nat.le_trans further.cost ?_⟩
        simp only [List.map_cons, Measure.duties_cons]
        omega

/-- A waiter is handed to a cell: it waits there or runs. -/
theorem hand_does (fires : regime.Fires depth fire) {place : CellId} {waiter : Waiter α β}
    (fit : regime.Fit ⟨.hand place waiter :: rest, world⟩) :
    regime.Does depth 0 [.hand place waiter] (hand fire place waiter) rest world := by
  cases parked : world.store.park place waiter with
  | some store =>
    have ran : hand fire place waiter world = (.ok (), { world with store }) := by
      rw [hand_apply, parked]
    refine .of_steps ran (.single (regime.routine fit (.park parked))) ?_
    rw [regime.tariff.store_park parked]
    simp
  | none =>
    have step := regime.routine fit (.ready parked)
    have same : hand fire place waiter world = fire waiter world := by
      rw [hand_apply, parked]
    exact .after_steps [.fire waiter] 0 0 (.single step) same
      (by simp) (fires (regime.fit step fit))

/-- A continuation is registered, in steps that are up to the client, and then handed on. -/
theorem register_does (duties : List (Duty α β)) (fires : regime.Fires depth fire) {id : CellId}
    {continuation : Continuation α β} (fit : regime.Fit ⟨duties ++ rest, world⟩)
    (registered : Steps regime.Step ⟨duties ++ rest, world⟩
      ⟨.hand id (world.store.enroll id continuation).1 :: rest,
        ({ world with store := (world.store.enroll id continuation).2 }).log
          (.registered world.store.registered id)⟩) :
    regime.Does depth (regime.tariff.waiter (world.store.enroll id continuation).1) duties
      (register fire id continuation) rest world := by
  have handed := hand_does fires (regime.fit_steps registered fit)
  refine .after_steps [.hand id _] 0 0 registered
    (register_apply world fire id continuation) ?_ handed
  simp [regime.tariff.store_enroll]

/-- An outcome is given, in steps that are up to the client, and those who waited run. -/
theorem resolve_does (duties : List (Duty α β)) (fires : regime.Fires depth fire) {id : CellId}
    {outcome : Outcome α} (fit : regime.Fit ⟨duties ++ rest, world⟩)
    (settled : ∀ {waiters store}, world.store.settle id outcome = some (waiters, store) →
      Steps regime.Step ⟨duties ++ rest, world⟩ ⟨waiters.map .fire ++ rest, { world with store }⟩)
    (refused : world.store.settle id outcome = none →
      Steps regime.Step ⟨duties ++ rest, world⟩ ⟨rest, world⟩) :
    regime.Does depth 0 duties (resolve fire id outcome) rest world := by
  have ran := resolve_apply world fire id outcome
  cases taken : world.store.settle id outcome with
  | none =>
    rw [taken] at ran
    exact .of_steps ran (refused taken) (by omega)
  | some handed =>
    obtain ⟨waiters, store⟩ := handed
    rw [taken] at ran
    have steps := settled taken
    have cost := regime.tariff.store_settle taken
    have fired := eachIsolated_does fires waiters (regime.fit_steps steps fit)
    refine .after_steps _ 0 0 steps ran ?_
      (fired.finish fun _ _ => ⟨_, rfl⟩)
    simp only [Measure.duties_fire]
    omega

/-- A link is made, in steps that are up to the client, and those who waited are handed on. -/
theorem forward_does (duties : List (Duty α β)) (fires : regime.Fires depth fire) {id target : CellId}
    (fit : regime.Fit ⟨duties ++ rest, world⟩)
    (linked : ∀ {waiters store}, world.store.linkTo id target = .ok (waiters, store) →
      Steps regime.Step ⟨duties ++ rest, world⟩
        ⟨waiters.map (.hand target) ++ rest, { world with store }⟩)
    (refused : ∀ {fault}, world.store.linkTo id target = .error fault →
      Steps regime.Step ⟨duties ++ rest, world⟩ ⟨rest, world⟩) :
    regime.Does depth 0 duties (forward fire id target) rest world := by
  have ran := forward_apply world fire id target
  cases taken : world.store.linkTo id target with
  | error fault =>
    rw [taken] at ran
    exact .of_steps ran (refused taken) (by omega)
  | ok handed =>
    obtain ⟨waiters, store⟩ := handed
    rw [taken] at ran
    have steps := linked taken
    have cost := regime.tariff.store_linkTo taken
    have passed := eachIsolated_does (fun _ _ _ => hand_does fires) waiters (regime.fit_steps steps fit)
    refine .after_steps _ 0 0 steps ran ?_
      (passed.finish fun _ _ => ⟨_, rfl⟩)
    simp only [Measure.duties_hand]
    omega

/-- The result of an action does not matter to what it does. -/
theorem Does.discard {result : Type} {budget : Nat} {duties : List (Duty α β)}
    {action : Action α β ε ω result} (does : regime.Does depth budget duties action rest world) :
    regime.Does depth budget duties (discard action) rest world :=
  does.finish fun _ _ => ⟨_, rfl⟩

theorem give_does (fires : regime.Fires depth fire) {target : CellId} {outcome : Outcome α}
    (fit : regime.Fit ⟨.give target outcome :: rest, world⟩) :
    regime.Does depth 0 [.give target outcome] (Functor.discard (resolve fire target outcome))
      rest world :=
  (resolve_does [.give target outcome] fires fit
    (fun settled => .single (regime.routine fit (.give settled)))
    (fun refused => .single (regime.routine fit (.refuse refused)))).discard

/-- A level deeper than what it runs, a waiter runs. -/
theorem run_does {react : React α β ε ω} (fires : regime.Fires depth fire)
    (answers : regime.Answers depth react) {waiter : Waiter α β}
    (fit : regime.Fit ⟨.fire waiter :: rest, world⟩) :
    regime.Does (depth + 1) 0 [.fire waiter] (run react fire waiter) rest world := by
  have dear := regime.one_le_waiter waiter
  -- One step for each kind of continuation; what it leaves to do costs less than the waiter did.
  cases kind : waiter.continuation with
  | call body =>
    have step := regime.routine fit (.call kind)
    have same := run_call world react fire kind
    refine .after_steps [.answer body _] 0 1 (.single step) same ?_
      (answers (regime.fit step fit))
    rw [regime.tariff.call kind] at dear
    simp only [Measure.duties_cons, Measure.duties_nil, duty_fire, duty_answer, regime.tariff.call kind,
      World.run_store]
    omega
  | arrive latch =>
    have same := run_arrive world react fire kind
    have cost := regime.tariff.store_arriveAt world.store latch
    cases arrived : world.store.arriveAt latch with
    | mk body store =>
      rw [arrived] at same cost
      cases body with
      | none =>
        have step := regime.routine fit (.arrive kind arrived)
        refine .of_steps same (.single step) ?_
        simp only [Option.elim] at cost
        simp only [Measure.duties_cons, Measure.duties_nil]
        omega
      | some body =>
        have step := regime.routine fit (.opens kind arrived)
        refine .after_steps [.answer body none] 0 1 (.single step) same ?_
          (answers (regime.fit step fit))
        simp only [Option.elim] at cost
        simp only [Measure.duties_cons, Measure.duties_nil, duty_fire, duty_answer, World.log_store]
        omega
  | derive target convert =>
    have same := run_derive world react fire kind
    cases shown : world.store.state waiter.home with
    | none =>
      rw [shown] at same
      exact .of_steps same (.single (regime.routine fit (.skip kind shown))) (by simp)
    | some outcome =>
      cases outcome with
      | error failure =>
        rw [shown] at same
        have step := regime.routine fit (.pass kind shown)
        refine .after_steps [.give target (.error failure)] 0 1 (.single step)
          same ?_ (give_does fires (regime.fit step fit))
        simp only [Measure.duties_cons, Measure.duties_nil, duty_fire, duty_give, World.run_store]
        omega
      | ok value =>
        simp only [shown] at same
        cases made : convert value with
        | error cause =>
          rw [made] at same
          exact .of_panic same
            (fun allowed => .single (regime.routine fit (.spoil allowed kind shown made))) (by simp)
        | ok outcome =>
          rw [made] at same
          have step := regime.routine fit (.derive kind shown made)
          refine .after_steps [.give target outcome] 0 1 (.single step) same ?_
            (give_does fires (regime.fit step fit))
          simp only [Measure.duties_cons, Measure.duties_nil, duty_fire, duty_give, World.log_store,
            World.run_store]
          omega

/-- Whatever clients do with a way to run waiters, waiters run in the end. -/
theorem fireWithin_does {react : Fire α β ε ω → React α β ε ω}
    (answers : ∀ {depth fire}, regime.Fires depth fire → regime.Answers depth (react fire))
    (depth : Nat) : regime.Fires depth (fireWithin react depth) := by
  induction depth with
  | zero =>
    intro waiter rest world fit enough
    have dear := regime.one_le_waiter waiter
    simp only [Measure.duties_cons, duty_fire] at enough
    omega
  | succ depth ih =>
    intro waiter rest world fit
    exact run_does ih (answers ih) fit

end Operations

end Regime

end DeferredJit.Async
