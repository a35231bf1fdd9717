import DeferredJit.Engine.Job

/-! The operations of an engine. -/

set_option autoImplicit false

namespace DeferredJit.Engine

open Async (CellId)

/-! ## The cache, step by step -/

/-- The cell under a key; a hit if there is one. -/
def find (key : CacheKey) : Run (Option CellId) := do
  match (← current).cache.lookup key with
  | none => return none
  | some cell =>
    alter fun state => { state with cache := state.cache.recordHit }
    return some cell

/-- The cell under a key and whether this call made it. Exactly one call makes it. -/
def allocate (key : CacheKey) : Run (CellId × Bool) := do
  match ← find key with
  | some cell => return (cell, false)
  | none =>
    let cell ← Async.makePending
    alter fun state => { state with cache := state.cache.insert key cell }
    return (cell, true)

/-- Enqueue the compilation that resolves a new cell. -/
def schedule (setup : Setup) (key : CacheKey) (cell : CellId) (compilation : Compilation) :
    Run Unit := do
  alter fun state => { state with cache := state.cache.recordCompilation }
  roomy setup 0 fun later => enqueue setup later (.compile key cell compilation)

/-- The cell under a key. The call that makes it enqueues its compilation. -/
def getOrCompile (setup : Setup) (key : CacheKey) (compilation : Compilation) : Run CellId := do
  match ← find key with
  | some cell => return cell
  | none =>
    let (cell, allocated) ← allocate key
    if allocated then schedule setup key cell compilation
    return cell

/-! ## Compiling and calling -/

/-- Invalid requests fail at once and leave no trace in the cache. -/
def compileRequest (setup : Setup) (request : Request) : Run CellId :=
  match request.validate with
  | .error fault => Async.makeSettled (.error fault.failure)
  | .ok () => getOrCompile setup (request.key setup.config.keyPolicy) (.request request)

def call (setup : Setup) (dispatcher : Dispatcher) (handle : CellId) (operands : List CellId)
    (count : Nat) : Run (List CellId) :=
  roomy setup (operands.length + (count + 3)) fun later =>
    start setup later dispatcher handle operands count

def selectFor (setup : Setup) (id : HandleId) (views : List Memref) : Run (Outcome CellId) :=
  roomy setup 0 fun later => select setup later id views

/-! ## Cells from outside -/

def resolve (setup : Setup) (cell : CellId) (outcome : Outcome Payload) : Run Bool :=
  roomy setup 0 fun later => Async.resolve later.fire cell outcome

def forward (setup : Setup) (cell target : CellId) : Run (Except Async.ForwardFault Unit) :=
  roomy setup 0 fun later => Async.forward later.fire cell target

/-- Have a continuation of the caller run when the cell is available. -/
def observe (setup : Setup) (cell : CellId) (panic : Option Panic) : Run Unit :=
  roomy setup 1 fun later => Async.register later.fire cell (.call (.observer panic))

/-! ## Tasks -/

/-- Run the task at a place of the queue, which it leaves first. -/
def runAt (setup : Setup) (place : Nat) : Run (Option Job) := do
  let queue := (← current).queue
  match queue[place]? with
  | none => return none
  | some job =>
    alter fun state => { state with queue := queue.eraseIdx place }
    roomy setup 0 fun later => runJob setup later job
    return some job

/-- Run at most `count` tasks from the front. -/
def runFront (setup : Setup) : (count : Nat) → Run (List Job)
  | 0 => return []
  | count + 1 => do
    match ← runAt setup 0 with
    | none => return []
    | some job => return job :: (← runFront setup count)

/-- Run the tasks in the queue, then those that came up meanwhile, and so on. -/
def drainWithin (setup : Setup) : (rounds : Nat) → Run (List Job)
  | 0 => return []
  | rounds + 1 => do
    match (← current).queue.length with
    | 0 => return []
    | count =>
      let ran ← runFront setup count
      return ran ++ (← drainWithin setup rounds)

/-- Run tasks until none is left. Only a call that waits can bring up new ones, when its wait is
over; so there are no more rounds than what waits weighs, and one. -/
def drain (setup : Setup) : Run (List Job) := do
  let rounds := (← Async.theStore).weight Stage.weight + 1
  drainWithin setup rounds

/-! ## Texts -/

def describe (setup : Setup) (state : State) : String :=
  Text.abridgedRecord "JitEngine" [("config", setup.config.describe),
    ("cache", state.cache.describe)]

def describePayload (state : State) : Payload → String
  | .value value => value.describe
  | .token => "()"
  | .view view => view.describe
  | .executable kernel => Text.quoted kernel.name
  | .handle id =>
    match state.handles[id]? with
    | some handle => handle.describe
    | none => ""

end DeferredJit.Engine
