import DeferredJit.Proofs.Engine.Depth

/-! Whole runs of an engine: operations from outside, one after the other. -/

set_option autoImplicit false

namespace DeferredJit.Engine

open Async (CellId CellKind Moment Steps)

inductive Operation where
  | compile (request : Request)
  | call (dispatcher : Dispatcher) (handle : CellId) (operands : List CellId) (count : Nat)
  /-- Run the task at a place of the queue. -/
  | task (place : Nat)
  | select (id : HandleId) (views : List Memref)
  /-- Make a handle, which a cell may then be settled with. -/
  | wrap (made : Outcome Artifact) (mode : SpecializationMode) (limit : Nat)
  | make (kind : CellKind) (outcome : Option (Outcome Payload))
  | settle (cell : CellId) (outcome : Outcome Payload)
  | link (source target : CellId)
  /-- Have a continuation run when the cell is available. -/
  | observe (cell : CellId) (panic : Option Panic)
  | find (key : CacheKey)
  | allocate (key : CacheKey)
  | fetch (key : CacheKey) (artifact : Made Artifact)

namespace Operation

def perform (setup : Setup) : Operation → Run Unit
  | compile request => discard (compileRequest setup request)
  | call dispatcher handle operands count => discard (Engine.call setup dispatcher handle operands count)
  | task place => discard (runAt setup place)
  | select id views => discard (selectFor setup id views)
  | wrap made mode limit => discard (Engine.wrap mode limit made)
  | make kind outcome => discard (Async.onStore (·.make { kind, outcome }) : Run CellId)
  | settle cell outcome => discard (resolve setup cell outcome)
  | link source target => discard (forward setup source target)
  | observe cell panic => Engine.observe setup cell panic
  | find key => discard (Engine.find key)
  | allocate key => discard (Engine.allocate key)
  | fetch key artifact => discard (getOrCompile setup key (.given artifact))

/-- Operations are about cells and handles that there are, and keep to the rules. -/
def Allowed (rules : Rules) (world : EngineWorld) : Operation → Prop
  | compile _ | task _ | select .. | wrap .. => True
  | call dispatcher handle operands _ => handle < world.store.cells.size ∧
      (∀ operand ∈ operands, operand < world.store.cells.size) ∧ dispatcher.Sane world.store.cells.size
  | make _ outcome => ∀ given, outcome = some given → Outcome.Valid world.outer.handles.length given
  | settle cell outcome => rules.touches world cell ∧ Outcome.Valid world.outer.handles.length outcome
  | link source target => rules.touches world source ∧ target < world.store.cells.size
  | observe cell _ => cell < world.store.cells.size
  | find _ | allocate _ | fetch .. => rules.caches

/-- The key and the request that the operation asks the compiler for, unless the key is known. -/
def asked? (policy : KeyPolicy) : Operation → Option (CacheKey × Request)
  | compile request =>
    match request.validate with
    | .ok () => some (request.key policy, request)
    | .error _ => none
  | _ => none

/-- Whether the operation asks for an executable. -/
def chooses : Operation → Bool
  | call .. | select .. => true
  | _ => false

end Operation

theorem Performs.discard {setup : Setup} {rules : Rules} {world : EngineWorld} {result : Type}
    {action : Run result} (performs : Performs setup rules world action) :
    Performs setup rules world (Functor.discard action) := by
  unfold Performs Act.Returns at *
  have same : (Functor.discard action : Run PUnit) = action >>= fun _ => pure PUnit.unit := rfl
  rw [same]
  rcases ran : action world with ⟨stop | value, next⟩
  · rw [ran] at performs
    rw [Act.bind_error ran]
    intro calm
    obtain ⟨deep, steps⟩ := performs (calm.imp_right fun ⟨value, returned⟩ => by cases returned)
    exact ⟨by simpa using deep, steps⟩
  · rw [ran] at performs
    rw [Act.bind_ok ran]
    exact fun _ => ⟨by simp [Act.pure_apply], (performs (.inr ⟨value, rfl⟩)).2⟩

/-- Every operation is made of steps. -/
theorem Operation.performs {setup : Setup} {rules : Rules} {world : EngineWorld} (fit : Fit ⟨[], world⟩)
    {operation : Operation} (allowed : operation.Allowed rules world)
    (granted : operation.chooses = true → rules.calls)
    (asks : ∀ {key request}, operation.asked? setup.config.keyPolicy = some (key, request) →
      world.outer.cache.lookup key = none → rules.asks key request) :
    Performs setup rules world (operation.perform setup) := by
  cases operation with
  | compile request =>
    refine (compileRequest_performs fun valid missing => asks ?_ missing).discard
    simp only [asked?, valid]
  | call dispatcher handle operands count =>
    obtain ⟨inside, operands, sane⟩ := allowed
    exact (call_performs fit (granted rfl) ⟨inside, operands, sane⟩).discard
  | task place => exact (runAt_performs fit place).discard
  | select id views => exact (select_performs (granted rfl) id views).discard
  | wrap made mode limit =>
    exact (Performs.grows_plain (wrap_ends mode limit made) fun _ _ wrapped => wrapped.1).discard
  | make kind outcome =>
    have made : Addition .plain world 0 (world.make { kind, outcome }) := .make rfl rfl allowed
    have ends : (Async.onStore (·.make { kind, outcome }) : Run CellId).Ends world
        (fun _ next => Adds .plain world 0 next) never := .of_ok rfl (.single made)
    exact (Performs.grows_plain ends fun _ _ adds => adds).discard
  | settle cell outcome => exact (resolve_performs fit allowed.1 allowed.2).discard
  | link source target => exact (forward_performs fit allowed.1 allowed.2).discard
  | observe cell panic => exact observe_performs fit allowed panic
  | find key =>
    have ends : (Engine.find key).Ends world (fun _ next => Adds .plain world 0 next) never := by
      have ran := find_apply world key
      cases found : world.outer.cache.lookup key with
      | none =>
        rw [found] at ran
        exact .of_ok ran .refl
      | some cell =>
        rw [found] at ran
        exact .of_ok ran (.single (.own rfl rfl rfl (.inr rfl)))
    exact (Performs.grows_plain ends fun _ _ adds => adds).discard
  | allocate key =>
    refine Performs.discard ?_
    cases found : world.outer.cache.lookup key with
    | none =>
      rw [Performs, allocate_miss found]
      exact fun _ => ⟨by simp, .single (.enter found (.inl allowed))⟩
    | some cell =>
      rw [Performs, allocate_hit found]
      exact fun _ => ⟨by simp, .single (.plain (.own rfl rfl rfl (.inr rfl)))⟩
  | fetch key artifact => exact (getOrCompile_performs fun _ => .inl allowed).discard

/-- A run. Where panics are not allowed there are none. -/
inductive Runs (setup : Setup) (rules : Rules) : EngineWorld → List Operation → EngineWorld → Prop where
  | nil {world} : Runs setup rules world [] world
  | cons {world operation reply between operations next} : operation.Allowed rules world →
      operation.perform setup world = (reply, between) → (rules.panics ∨ reply = .ok ()) →
      Runs setup rules between operations next → Runs setup rules world (operation :: operations) next

theorem Operation.steps {setup : Setup} {rules : Rules} {world next : EngineWorld} (fit : Fit ⟨[], world⟩)
    {operation : Operation} {reply : Except Interrupt Unit} (allowed : operation.Allowed rules world)
    (granted : operation.chooses = true → rules.calls)
    (asks : ∀ {key request}, operation.asked? setup.config.keyPolicy = some (key, request) →
      world.outer.cache.lookup key = none → rules.asks key request)
    (ran : operation.perform setup world = (reply, next)) (calm : rules.panics ∨ reply = .ok ()) :
    reply ≠ .error .exhausted ∧ Steps (Step setup rules) ⟨[], world⟩ ⟨[], next⟩ := by
  have performs := operation.performs fit allowed granted asks
  unfold Performs Act.Returns at performs
  rw [ran] at performs
  exact performs (calm.imp_right fun returned => ⟨(), returned⟩)

namespace Runs

variable {setup : Setup} {rules : Rules} {world between next : EngineWorld} {operations more : List Operation}

theorem trans (first : Runs setup rules world operations between) (second : Runs setup rules between more next) :
    Runs setup rules world (operations ++ more) next := by
  induction first with
  | nil => exact second
  | cons allowed ran calm _ ih => exact .cons allowed ran calm (ih second)

theorem steps (granted : rules.calls) (asks : ∀ key request, rules.asks key request) (fit : Fit ⟨[], world⟩)
    (run : Runs setup rules world operations next) : Steps (Step setup rules) ⟨[], world⟩ ⟨[], next⟩ := by
  induction run with
  | nil => exact .refl
  | cons allowed ran calm _ ih =>
    have steps := (Operation.steps fit allowed (fun _ => granted) (fun _ _ => asks _ _) ran calm).2
    exact steps.trans (ih (fit.steps steps).1)

end Runs

/-! ## The beginning -/

/-- An engine that has done nothing yet. -/
def initial : EngineWorld := { outer := {} }

/-- An engine whose compiler always fails, with a queue. -/
def failing : Setup where
  config := {}
  compiler _ _ := .ok (.error (.compilation "unsupported"))
  workers := 1
  inline := false
  dispatcher := {}

/-- A kernel without operands and results. -/
def idle : Kernel where
  name := "idle"
  signature := ⟨[], []⟩
  run _ := ⟨[], .returned⟩

theorem fit_initial : Fit ⟨[], initial⟩ where
  orderly := .start _
  tidy := {
    handles := fun _ member => by cases member
    shown := fun held => by cases held
    jobs := fun _ member => by cases member
    entries := fun _ member => by cases member }
  carried := {
    waiting := fun _ member => by cases member
    latched := fun _ member => by cases member
    asked := fun _ _ member => by cases member }
  links _ _ member := by cases member
  gives _ _ member := by cases member

theorem latched_initial : Moment.Latched (⟨[], initial⟩ : EngineMoment) := fun _ => rfl

theorem apart_initial : Apart ⟨[], initial⟩ where
  exclusive := {
    once := fun _ => Nat.zero_le 1
    blank := fun _ owned => absurd owned (Nat.lt_irrefl 0)
    given := fun _ _ member => by cases member }
  jobs _ member := by cases member

end DeferredJit.Engine
