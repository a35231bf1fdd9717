import DeferredJit.Proofs.Async.Views
import DeferredJit.Proofs.Engine.Callers

/-! The books of the cache: its entries and counters, the tasks that wait to compile, and the calls of
compilations on record. Calls of executables and their continuations never touch them, and a task that
compiles leaves its mark in one place. -/

set_option autoImplicit false

namespace DeferredJit.Engine

open Async (CellId)
open Act (Leaves)

structure Books where
  cache : Cache
  /-- Oldest first. -/
  waiting : List Job
  /-- Newest first. -/
  called : List Notice

def World.books (world : EngineWorld) : Books where
  cache := world.outer.cache
  waiting := world.outer.queue.filter (·.compiles?.isSome)
  called := (World.notices world).filter (·.compiles?.isSome)

theorem blind_books : Async.Blind World.books where
  store _ _ := rfl
  event world event silent := by
    cases event with
    | noted entry => exact absurd rfl (silent entry)
    | _ => rfl

/-- What is neither a cache nor a queue may change. -/
theorem leaves_alter {change : State → State}
    (cache : ∀ state, (change state).cache = state.cache)
    (queue : ∀ state, (change state).queue.filter (·.compiles?.isSome) = state.queue.filter (·.compiles?.isSome)) :
    Leaves World.books (alter change) := by
  intro world
  change (⟨(change world.outer).cache, (change world.outer).queue.filter (·.compiles?.isSome), _⟩ : Books) = _
  rw [cache, queue]
  rfl

theorem leaves_current : Leaves World.books current := .bind .read fun _ => .pure _

/-- Calls of kernels and specializers are on another record. -/
theorem leaves_note {notice : Notice} (other : notice.compiles? = none) :
    Leaves World.books (Async.note notice : Run Unit) := by
  intro world
  have called : (World.notices (world.log (.noted notice))).filter (·.compiles?.isSome) =
      (World.notices world).filter (·.compiles?.isSome) := by
    rw [World.notices_log]
    simp [noticeOf, other]
  exact congrArg (Books.mk _ _) called

theorem leaves_makeEach {make : Run CellId} (leaves : Leaves World.books make) (count : Nat) :
    Leaves World.books (makeEach make count) := by
  induction count with
  | zero => exact .pure _
  | succ count ih => exact leaves.bind fun _ => ih.bind fun _ => .pure _

theorem leaves_failAll (count : Nat) (failure : Failure) : Leaves World.books (failAll count failure) :=
  leaves_makeEach (blind_books.makeSettled _) count

theorem leaves_placeholders (count : Nat) : Leaves World.books (placeholders count) :=
  leaves_makeEach (blind_books.onStore _) count

/-! ## Calls -/

/-- Whatever comes due, other than a compilation, leaves the books alone. -/
def Later.Spares (later : Later) : Prop :=
  (∀ waiter, Leaves World.books (later (.waiter waiter))) ∧
    ∀ job, job.compiles? = none → Leaves World.books (later (.job job))

section Calls

variable {setup : Setup} {later : Later} (spares : later.Spares)

include spares

theorem Later.Spares.enqueue {job : Job} (other : job.compiles? = none) :
    Leaves World.books (enqueue setup later job) := by
  unfold Engine.enqueue
  split
  · exact spares.2 job other
  · refine leaves_alter (fun _ => rfl) fun state => ?_
    simp [List.filter_append, other]

theorem leaves_present {α : Type} {remember : String → CellId → State → State}
    (leaves : ∀ name cell, Leaves World.books (alter (remember name cell))) (payload : α → Payload)
    (arrival : Arrival α) : Leaves World.books (present setup later remember payload arrival) := by
  cases arrival with
  | settled outcome => exact blind_books.makeSettled _
  | awaited name => exact (blind_books.onStore _).bind fun cell => (leaves name cell).bind fun _ => .pure _
  | scheduled name value =>
    exact (blind_books.onStore _).bind fun _ => (spares.enqueue rfl).bind fun _ => .pure _

theorem leaves_raw (answer : Answer) : Leaves World.books (raw setup later answer) := by
  cases answer with
  | token arrival =>
    refine (leaves_present spares (fun name cell => ?_) _ arrival).bind fun _ => .pure _
    exact leaves_alter (fun _ => rfl) fun _ => rfl
  | asyncMemref arrival =>
    refine (leaves_present spares (fun name cell => ?_) _ arrival).bind fun _ => .pure _
    exact leaves_alter (fun _ => rfl) fun _ => rfl
  | memref view => exact .pure _

theorem leaves_accept (conversions : List Conversion) (types : List ResultType) (slots : Slots) (index : Nat)
    (raw : Raw) : Leaves World.books (accept later conversions types slots index raw) := by
  unfold accept
  split
  · refine Leaves.bind (.lift _) fun converted => Leaves.bind ?_ fun _ => .pure _
    cases converted with
    | derived cell convert => exact blind_books.derived spares.1 cell convert
    | settled outcome => exact blind_books.makeSettled _
  · exact .pure _

theorem leaves_acceptAll (conversions : List Conversion) (types : List ResultType) (slots : Slots)
    (answers : List (Nat × Answer)) :
    Leaves World.books (acceptAll setup later conversions types slots answers) := by
  induction answers generalizing slots with
  | nil => exact .pure _
  | cons first rest ih =>
    exact (leaves_raw spares _).bind fun _ => (leaves_accept spares conversions types slots _ _).bind
      fun slots => ih slots

omit spares in
theorem leaves_complete (index : Nat) (slots : Slots) : Leaves World.books (complete index slots) := by
  induction slots generalizing index with
  | nil => exact .pure _
  | cons slot rest ih =>
    cases slot with
    | some cell => exact (ih _).bind fun _ => .pure _
    | none => exact (blind_books.makeSettled _).bind fun _ => (ih _).bind fun _ => .pure _

theorem leaves_execute (call : Call) (kernel : Kernel) (views : List Memref) :
    Leaves World.books (execute setup later call kernel views) := by
  refine (leaves_note rfl).bind fun _ => (leaves_acceptAll spares _ _ _ _).bind fun slots => ?_
  split
  · exact .pure _
  · exact .pure _
  · exact .panic _

theorem leaves_invoke (call : Call) (kernel : Kernel) (views : List Memref) :
    Leaves World.books (invoke setup later call kernel views) := by
  unfold invoke
  dsimp only
  split
  · exact leaves_failAll _ _
  · split
    · exact leaves_failAll _ _
    · refine (leaves_execute spares call kernel views).attempt.bind fun ended => ?_
      split
      · exact leaves_complete 0 _
      · exact leaves_failAll _ _
      · exact leaves_failAll _ _

theorem leaves_select (id : HandleId) (views : List Memref) :
    Leaves World.books (select setup later id views) := by
  refine leaves_current.bind fun state => ?_
  split
  · exact .pure _
  · split
    · exact .pure _
    · dsimp only
      split
      · exact .pure _
      · refine (blind_books.onStore _).bind fun cell => .bind ?_ fun _ => ?_
        · exact leaves_alter (fun _ => rfl) fun _ => rfl
        · exact Leaves.bind (spares.enqueue rfl) fun _ => .pure _
      · exact .pure _

theorem leaves_withExecutable (call : Call) (views : List Memref) (seen : Option (Outcome Kernel)) :
    Leaves World.books (withExecutable setup later call views seen) := by
  rcases seen with _ | (failure | kernel)
  · exact leaves_failAll _ _
  · exact leaves_failAll _ _
  · exact leaves_invoke spares call kernel views

theorem leaves_putOff (call : Call) (cell : CellId) (stage : List CellId → Stage) :
    Leaves World.books (putOff later call cell stage) :=
  (leaves_placeholders _).bind fun _ => (blind_books.register spares.1 cell _).bind fun _ => .pure _

theorem leaves_withHandle (call : Call) (views : List Memref) (seen : Option (Outcome HandleId)) :
    Leaves World.books (withHandle setup later call views seen) := by
  rcases seen with _ | (failure | id)
  · exact leaves_failAll _ _
  · exact leaves_failAll _ _
  · refine (leaves_select spares id views).bind fun chosen => ?_
    split
    · exact leaves_failAll _ _
    · refine (Async.Blind.stateOf _).bind fun seen => ?_
      split
      · exact leaves_putOff spares call _ _
      · exact leaves_withExecutable spares call views _

theorem leaves_withOperands (call : Call) : Leaves World.books (withOperands setup later call) := by
  refine Leaves.bind (.bind Async.Blind.theStore fun _ => .pure _) fun values => Leaves.bind (.lift _) fun views => ?_
  split
  · exact leaves_failAll _ _
  · refine (Async.Blind.stateOf _).bind fun seen => ?_
    split
    · exact leaves_putOff spares call _ _
    · exact leaves_withHandle spares call _ _

theorem leaves_forwardAll (results produced : List CellId) :
    Leaves World.books (forwardAll later results produced) :=
  .each (fun _ => (blind_books.forward spares.1 _ _).discard) _

/-- Continuations of calls leave the books alone. -/
theorem leaves_react (stage : Stage) (seen : Option (Outcome Payload)) :
    Leaves World.books (react setup later stage seen) := by
  cases stage with
  | operands call results => exact (leaves_withOperands spares call).bind fun _ => leaves_forwardAll spares _ _
  | handle call views results =>
    exact (leaves_withHandle spares call views _).bind fun _ => leaves_forwardAll spares _ _
  | executable call views results =>
    exact (leaves_withExecutable spares call views _).bind fun _ => leaves_forwardAll spares _ _
  | observer panic =>
    cases panic with
    | none => exact .pure _
    | some cause => exact .panic cause

theorem leaves_start (dispatcher : Dispatcher) (handle : CellId) (operands : List CellId) (count : Nat) :
    Leaves World.books (start setup later dispatcher handle operands count) := by
  refine leaves_current.bind fun state => .bind ?_ fun _ => Async.Blind.theStore.bind fun store => ?_
  · exact leaves_alter (fun _ => rfl) fun _ => rfl
  split
  · exact leaves_withOperands spares _
  · exact (leaves_placeholders _).bind fun _ =>
      (blind_books.whenAll spares.1 operands _ (leaves_react spares _ none)).bind fun _ => .pure _

end Calls

/-! ## Tasks -/

theorem leaves_wrap (mode : SpecializationMode) (limit : Nat) (made : Outcome Artifact) :
    Leaves World.books (wrap mode limit made) := by
  cases made with
  | error failure => exact .pure _
  | ok artifact =>
    refine Leaves.bind ?_ fun _ => .pure _
    refine (blind_books.makeSettled _).bind fun _ => leaves_current.bind fun _ => .bind ?_ fun _ => .pure _
    exact leaves_alter (fun _ => rfl) fun _ => rfl

theorem leaves_runJob {setup : Setup} {later : Later} (spares : later.Spares) {job : Job}
    (other : job.compiles? = none) : Leaves World.books (runJob setup later job) := by
  cases job with
  | compile => cases other
  | specialize => exact (leaves_note rfl).bind fun _ => (blind_books.resolve spares.1 _ _).discard
  | settle => exact (blind_books.resolve spares.1 _ _).discard

theorem spares_within (setup : Setup) (depth : Nat) : (within setup depth).Spares := by
  induction depth with
  | zero => exact ⟨fun _ _ => rfl, fun _ _ _ => rfl⟩
  | succ depth ih =>
    exact ⟨fun waiter => blind_books.run ih.1 (fun stage seen => leaves_react ih stage seen) waiter,
      fun job other => leaves_runJob ih other⟩

theorem leaves_roomy {result : Type} {setup : Setup} {room : Nat} {operation : Later → Run result}
    (leaves : ∀ later : Later, later.Spares → Leaves World.books (operation later)) :
    Leaves World.books (roomy setup room operation) :=
  Async.Blind.theStore.bind fun _ => leaves _ (spares_within setup _)

end DeferredJit.Engine
