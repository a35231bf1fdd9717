import DeferredJit.Engine.Dispatch

/-! Background tasks: they compile, specialize, and resolve the cell that waits for the outcome. -/

set_option autoImplicit false

namespace DeferredJit.Engine

open Async (CellId)

/-- A handle around a new artifact. -/
def makeHandle (artifact : Artifact) (mode : SpecializationMode) (limit : Nat) : Run HandleId := do
  let genericCell ← Async.makeSettled (.ok (.executable artifact.kernel))
  let id := (← current).handles.length
  let handle : Handle := { generic := artifact.kernel, genericCell, specializer := artifact.specializer,
                           mode, limit }
  alter fun state => { state with handles := state.handles ++ [handle] }
  return id

/-- The handle for what a compilation came to. -/
def wrap (mode : SpecializationMode) (limit : Nat) : Outcome Artifact → Run (Outcome Payload)
  | .ok artifact => do return .ok (.handle (← makeHandle artifact mode limit))
  | .error failure => return .error failure

/-- Panics of a compiler or specializer are failures. -/
def contained {α : Type} (party : String) : Made α → Outcome α
  | .ok outcome => outcome
  | .error _ => .error (.compilation (party ++ " panicked"))

def compile (setup : Setup) (key : CacheKey) : Compilation → Run (Outcome Payload)
  | .request request => do
    Async.note (.compiled key request setup.workers)
    wrap setup.config.specialization setup.config.maxSpecializations
      (contained "compiler" (setup.compiler request setup.workers))
  | .given artifact => do
    Async.note (.fetched key)
    let defaults : Config := {}
    wrap defaults.specialization defaults.maxSpecializations (contained "compiler" artifact)

def runJob (setup : Setup) (later : Later) : Job → Run Unit
  | .compile key target compilation => do
    let outcome ← compile setup key compilation
    if outcome.toOption.isNone then
      alter fun state => { state with cache := state.cache.recordFailure }
    discard (Async.resolve later.fire target outcome)
  | .specialize handle generic specializer key target => do
    Async.note (.specialized handle generic.name key)
    let outcome := contained "specializer" (specializer generic key)
    discard (Async.resolve later.fire target (outcome.map .executable))
  | .settle _ target payload => discard (Async.resolve later.fire target (.ok payload))

/-- Does what is due, and what comes due on the way, `depth` deep at most. -/
def within (setup : Setup) : (depth : Nat) → Later
  | 0, _ => Act.exhaust
  | depth + 1, .waiter waiter =>
    Async.run (react setup (within setup depth)) (Later.fire (within setup depth)) waiter
  | depth + 1, .job job => runJob setup (within setup depth) job

/-- An operation with room for everything that waits, for what it adds to that, and for a task. -/
def roomy {result : Type} (setup : Setup) (room : Nat) (operation : Later → Run result) :
    Run result := do
  let depth := (← Async.theStore).weight Stage.weight + room + 1
  operation (within setup depth)

end DeferredJit.Engine
