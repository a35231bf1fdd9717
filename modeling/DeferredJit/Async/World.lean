import DeferredJit.Async.Act
import DeferredJit.Async.Store

/-! Operations on cells, and the continuations that they run.

An operation gets `fire`, which runs a waiter that is due. Continuations may use every operation
again, also on the cell that is just being resolved. Waiters that were handed out together all run,
also when earlier ones panic.
-/

set_option autoImplicit false

namespace DeferredJit.Async

/-- What happened, for whoever looks back. -/
inductive Event (α ε : Type) where
  | registered (serial : Nat) (home : CellId)
  /-- A waiter ran and saw this state of its cell. -/
  | ran (serial : Nat) (home : CellId) (seen : Option (Outcome α))
  | opened (latch : LatchId)
  /-- A conversion was applied to this value. -/
  | converted (input : α)
  | noted (entry : ε)

structure World (α β ε ω : Type) where
  store : Store α β := {}
  /-- Newest first. -/
  history : List (Event α ε) := []
  outer : ω

variable {α β ε ω : Type}

abbrev Action (α β ε ω result : Type) := Act (World α β ε ω) result

abbrev Fire (α β ε ω : Type) := Waiter α β → Action α β ε ω Unit

/-- What a continuation of the client does; it is told the state of the cell it waited for. -/
abbrev React (α β ε ω : Type) := β → Option (Outcome α) → Action α β ε ω Unit

def record (event : Event α ε) : Action α β ε ω Unit :=
  Act.modify fun world => { world with history := event :: world.history }

def note (entry : ε) : Action α β ε ω Unit := record (.noted entry)

def theStore : Action α β ε ω (Store α β) := do return (← Act.read).store

def setStore (store : Store α β) : Action α β ε ω Unit := Act.modify fun world => { world with store }

/-- Change the store and hand on what the change yields. -/
def onStore {result : Type} (change : Store α β → result × Store α β) : Action α β ε ω result := do
  let (value, store) := change (← theStore)
  setStore store
  return value

def stateOf (id : CellId) : Action α β ε ω (Option (Outcome α)) := do return (← theStore).state id

def makePending : Action α β ε ω CellId := onStore (·.make {})

def makeIndirect : Action α β ε ω CellId := onStore (·.make { kind := .indirect })

def makeSettled (outcome : Outcome α) : Action α β ε ω CellId :=
  onStore (·.make { outcome := some outcome })

/-- Let a waiter wait for a cell, or run it at once when the cell is available. -/
def hand (fire : Fire α β ε ω) (id : CellId) (waiter : Waiter α β) : Action α β ε ω Unit := do
  match (← theStore).park id waiter with
  | some store => setStore store
  | none => fire waiter

def register (fire : Fire α β ε ω) (id : CellId) (continuation : Continuation α β) :
    Action α β ε ω Unit := do
  let waiter ← onStore (·.enroll id continuation)
  record (.registered waiter.serial id)
  hand fire id waiter

/-- Whether the cell took the outcome. -/
def resolve (fire : Fire α β ε ω) (id : CellId) (outcome : Outcome α) : Action α β ε ω Bool := do
  match (← theStore).settle id outcome with
  | none => return false
  | some (waiters, store) =>
    setStore store
    Act.eachIsolated fire waiters
    return true

/-- Link an indirect cell; those who wait for it wait for the target instead. -/
def forward (fire : Fire α β ε ω) (id target : CellId) :
    Action α β ε ω (Except ForwardFault Unit) := do
  match (← theStore).linkTo id target with
  | .error fault => return .error fault
  | .ok (waiters, store) =>
    setStore store
    Act.eachIsolated (hand fire target) waiters
    return .ok ()

def convertValue (convert : α → Made α) (value : α) :
    Action α β ε ω (Outcome α) := do
  record (.converted value)
  Act.lift (convert value)

/-- A cell with the converted value of another, or its failure. An available cell is converted at
once, and then a panic leaves no new cell behind. -/
def derived (fire : Fire α β ε ω) (id : CellId) (convert : α → Made α) :
    Action α β ε ω CellId := do
  match ← stateOf id with
  | some (.ok value) => makeSettled (← convertValue convert value)
  | some (.error failure) => makeSettled (.error failure)
  | none =>
    let target ← makePending
    register fire id (.derive target convert)
    return target

def openLatch (latch : LatchId) (body : Action α β ε ω Unit) : Action α β ε ω Unit := do
  record (.opened latch)
  body

def arrive (react : React α β ε ω) (latch : LatchId) : Action α β ε ω Unit := do
  match ← onStore (·.arriveAt latch) with
  | some body => openLatch latch (react body none)
  | none => return ()

/-- Call the body once, when all the cells are available. `now` is what the call does; it comes to
it right away when they are available already. -/
def whenAll (fire : Fire α β ε ω) (ids : List CellId) (body : β) (now : Action α β ε ω Unit) :
    Action α β ε ω Unit := do
  let store ← theStore
  let missing := ids.filter fun id => !store.isAvailable id
  -- Where nothing is missing the latch is open from the start.
  let latch ← onStore (·.makeLatch ⟨missing.length, body⟩)
  if missing.isEmpty then openLatch latch now
  else Act.each (fun id => register fire id (.arrive latch)) missing

/-- Run a waiter whose cell is available. -/
def run (react : React α β ε ω) (fire : Fire α β ε ω) (waiter : Waiter α β) :
    Action α β ε ω Unit := do
  let seen ← stateOf waiter.home
  -- The state is read before the continuation can change it.
  record (.ran waiter.serial waiter.home seen)
  match waiter.continuation with
  | .call body => react body seen
  | .arrive latch => arrive react latch
  | .derive target convert =>
    match seen with
    | some (.ok value) => discard (resolve fire target (← convertValue convert value))
    | some (.error failure) => discard (resolve fire target (.error failure))
    | none => return ()

/-- Runs waiters whose continuations run further waiters, `depth` deep at most. -/
def fireWithin (react : Fire α β ε ω → React α β ε ω) : (depth : Nat) → Fire α β ε ω
  | 0, _ => Act.exhaust
  | depth + 1, waiter => run (react (fireWithin react depth)) (fireWithin react depth) waiter

/-! ## How much is waiting

Every waiter that runs uses up its weight, and what it registers weighs less. So the weight of all
that waits bounds how deep continuations can run within continuations.
-/

/-- The sum of a measure over a list. -/
def total {item : Type} (measure : item → Nat) : List item → Nat
  | [] => 0
  | first :: rest => measure first + total measure rest

theorem total_append {item : Type} (measure : item → Nat) (first second : List item) :
    total measure (first ++ second) = total measure first + total measure second := by
  induction first with
  | nil => simp [total]
  | cons head rest ih => simp [total, ih, Nat.add_assoc]

def Continuation.weight (bodyWeight : β → Nat) : Continuation α β → Nat
  | .call body => bodyWeight body
  | .arrive _ => 1
  | .derive .. => 1

def Cell.weight (bodyWeight : β → Nat) (cell : Cell α β) : Nat :=
  total (fun waiter => waiter.continuation.weight bodyWeight) cell.waiters

def Latch.weight (bodyWeight : β → Nat) (latch : Latch β) : Nat :=
  if latch.missing = 0 then 0 else bodyWeight latch.body

def Store.weight (bodyWeight : β → Nat) (store : Store α β) : Nat :=
  total (·.weight bodyWeight) store.cells.toList + total (·.weight bodyWeight) store.latches

end DeferredJit.Async
