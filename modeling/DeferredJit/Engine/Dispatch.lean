import DeferredJit.Engine.World

/-! Calls of compiled handles. A call never blocks: it returns result cells, and whatever it still
has to wait for it waits for in continuations, which link the result cells to the real results. -/

set_option autoImplicit false

namespace DeferredJit.Engine

open Async (CellId)

/-! ## What a kernel hands back -/

/-- The cell of something that may become available later. A cell that is awaited is added to a list
by `remember`. -/
def present {α : Type} (setup : Setup) (later : Later) (remember : String → CellId → State → State)
    (payload : α → Payload) : Arrival α → Run CellId
  | .settled outcome => Async.makeSettled (outcome.map payload)
  | .awaited name => do
    let cell ← Async.makePending
    alter (remember name cell)
    return cell
  | .scheduled name value => do
    let cell ← Async.makePending
    enqueue setup later (.settle name cell (payload value))
    return cell

def rememberToken (name : String) (cell : CellId) (state : State) : State :=
  { state with tokens := state.tokens ++ [(name, cell)] }

def rememberBuffer (name : String) (cell : CellId) (state : State) : State :=
  { state with buffers := state.buffers ++ [(name, cell)] }

def raw (setup : Setup) (later : Later) : Answer → Run Raw
  | .token arrival => do
    return .token (← present setup later rememberToken (fun _ => .token) arrival)
  | .asyncMemref arrival => do
    return .asyncMemref (← present setup later rememberBuffer .view arrival)
  | .memref view => return .memref view

/-- The results of a running kernel, as far as it has handed them back. -/
abbrev Slots := List (Option CellId)

def realize (later : Later) : Converted → Run CellId
  | .derived cell convert => Async.derived later.fire cell convert
  | .settled outcome => Async.makeSettled (outcome.map .value)

/-- The first answer for a declared result counts. Others, and answers for positions that are not
declared, are ignored. -/
def accept (later : Later) (conversions : List Conversion) (types : List ResultType) (slots : Slots)
    (index : Nat) (raw : Raw) : Run Slots := do
  match types[index]?, slots[index]? with
  | some type, some none =>
    let converted ← Act.lift (Conversion.convert index type conversions raw)
    return slots.set index (some (← realize later converted))
  | _, _ => return slots

def acceptAll (setup : Setup) (later : Later) (conversions : List Conversion)
    (types : List ResultType) : Slots → List (Nat × Answer) → Run Slots
  | slots, [] => return slots
  | slots, (index, answer) :: rest => do
    let handed ← raw setup later answer
    let slots ← accept later conversions types slots index handed
    acceptAll setup later conversions types slots rest

/-- A position that the kernel left out fails. -/
def complete (index : Nat) : Slots → Run (List CellId)
  | [] => return []
  | slot :: rest => do
    let cell ← match slot with
      | some cell => pure cell
      | none => Async.makeSettled (.error (.conversion index "executable returned no value"))
    return cell :: (← complete (index + 1) rest)

/-! ## Running a kernel -/

/-- Run a kernel up to its end, which may be a failure or a panic. -/
def execute (setup : Setup) (later : Later) (call : Call) (kernel : Kernel) (views : List Memref) :
    Run (Outcome Slots) := do
  Async.note (.executed call.number kernel.name views)
  let ran := kernel.run views
  let empty := kernel.signature.results.map fun _ => none
  let slots ← acceptAll setup later call.dispatcher.conversions kernel.signature.results empty
    ran.answers
  match ran.finish with
  | .returned => return .ok slots
  | .failed failure => return .error failure
  | .panicked cause => Act.panic cause

/-- A call that does not match the kernel, and a kernel that fails or panics, fail every result. -/
def invoke (setup : Setup) (later : Later) (call : Call) (kernel : Kernel) (views : List Memref) :
    Run (List CellId) := do
  let declared := kernel.signature.results.length
  if declared ≠ call.count then
    failAll call.count (.invocation (kernel.name ++ " returns " ++ toString declared ++
      " results, caller expects " ++ toString call.count))
  else
    match kernel.signature.check views with
    | .error mismatch => failAll call.count (.invocation (kernel.name ++ ": " ++ mismatch.message))
    | .ok () =>
      match ← Act.attempt (execute setup later call kernel views) with
      | .ok (.ok slots) => complete 0 slots
      | .ok (.error failure) => failAll declared failure
      | .error _ => failAll declared (.execution "kernel panicked")

/-! ## Choosing an executable -/

/-- The cell of the executable for these operands. The first call with new shapes makes it, by a
task. -/
def select (setup : Setup) (later : Later) (id : HandleId) (views : List Memref) :
    Run (Outcome CellId) := do
  match (← current).handles[id]? with
  | none => return .error unresolved
  | some handle =>
    match handle.generic.signature.check views with
    | .error mismatch =>
      return .error (.selection (handle.generic.name ++ ": " ++ mismatch.message))
    | .ok () =>
      let key := ShapeKey.ofMemrefs views
      match handle.choose key, handle.specializer with
      | .known cell, _ => return .ok cell
      | .fresh, some specializer =>
        -- The handle knows the cell before the task runs, so later calls with these shapes share it.
        let target ← Async.makePending
        alter fun state =>
          { state with handles := state.handles.set id (handle.specialized key target) }
        enqueue setup later (.specialize id handle.generic specializer key target)
        return .ok target
      | _, _ => return .ok handle.genericCell

/-! ## The stages of a call -/

/-- Link every placeholder to the result of its position. A panic on the way leaves the rest as
they are. -/
def forwardAll (later : Later) (results produced : List CellId) : Run Unit :=
  Act.each (fun (result, cell) => discard (Async.forward later.fire result cell))
    (results.zip produced)

def withExecutable (setup : Setup) (later : Later) (call : Call) (views : List Memref) :
    Option (Outcome Kernel) → Run (List CellId)
  | some (.ok kernel) => invoke setup later call kernel views
  | some (.error failure) => failAll call.count failure
  | none => failAll call.count unresolved

/-- Wait for a cell and then take the next stage, with placeholders for the results. -/
def putOff (later : Later) (call : Call) (cell : CellId) (stage : List CellId → Stage) :
    Run (List CellId) := do
  let results ← placeholders call.count
  Async.register later.fire cell (.call (stage results))
  return results

def withHandle (setup : Setup) (later : Later) (call : Call) (views : List Memref) :
    Option (Outcome HandleId) → Run (List CellId)
  | some (.ok id) => do
    match ← select setup later id views with
    | .error failure => failAll call.count failure
    | .ok cell =>
      match ← Async.stateOf cell with
      | none => putOff later call cell (.executable call views)
      | seen => withExecutable setup later call views (look Payload.executable? seen)
  | some (.error failure) => failAll call.count failure
  | none => failAll call.count unresolved

def withOperands (setup : Setup) (later : Later) (call : Call) : Run (List CellId) := do
  match ← Act.lift (call.dispatcher.marshaler.views (← valuesOf call.operands)) with
  | .error failure => failAll call.count failure
  | .ok views =>
    match ← Async.stateOf call.handle with
    | none => putOff later call call.handle (.handle call views)
    | seen => withHandle setup later call views (look Payload.handle? seen)

/-- The continuations of a call, told the state of the cell they waited for. -/
def react (setup : Setup) (later : Later) : Async.React Payload Stage Notice State
  | .operands call results, _ => do
    forwardAll later results (← withOperands setup later call)
  | .handle call views results, seen => do
    forwardAll later results (← withHandle setup later call views (look Payload.handle? seen))
  | .executable call views results, seen => do
    forwardAll later results
      (← withExecutable setup later call views (look Payload.executable? seen))
  | .observer none, _ => return ()
  | .observer (some cause), _ => Act.panic cause

/-- Call the executable in a handle; the result cells are there at once. -/
def start (setup : Setup) (later : Later) (dispatcher : Dispatcher) (handle : CellId)
    (operands : List CellId) (count : Nat) : Run (List CellId) := do
  let number := (← current).calls
  alter fun state => { state with calls := number + 1 }
  let call : Call := ⟨number, dispatcher, handle, operands, count⟩
  let store ← Async.theStore
  if operands.all store.isAvailable then withOperands setup later call
  else
    -- The results of the call do not exist yet; they will be linked to.
    let results ← placeholders count
    let stage := Stage.operands call results
    Async.whenAll later.fire operands stage (react setup later stage none)
    return results

end DeferredJit.Engine
