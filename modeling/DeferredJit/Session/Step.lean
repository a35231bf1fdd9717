import DeferredJit.Async.Describe
import DeferredJit.Session.Table

/-! The steps of a session. -/

set_option autoImplicit false

namespace DeferredJit.Session

open Async (CellId)

/-- What a handle is made of when it does not come from the compiler. -/
structure Mold where
  artifact : Made Artifact
  mode : SpecializationMode := .enabled
  limit : Nat := 10

inductive HandleStart where
  | pending
  | indirect
  | made (mold : Mold)

inductive ArgumentStart where
  | pending
  | indirect
  | value (value : Made KernelValue)

inductive Operand where
  /-- An argument of the table. -/
  | named (id : Nat)
  /-- One that is only for this call. -/
  | fresh (start : ArgumentStart)

inductive Step where
  | compile (request : Request)
  | handle (start : HandleStart)
  | setHandle (id : Nat) (mold : Mold)
  | forwardHandle (id target : Nat)
  | argument (start : ArgumentStart)
  | setArgument (id : Nat) (value : Made KernelValue)
  | forwardArgument (id target : Nat)
  | resultAsArgument (call index : Nat)
  | execute (handle : Nat) (operands : List Operand) (count : Nat) (separate : Bool)
  | select (handle : Nat) (views : Made (List Memref))
  | runAll
  | runSome (count : Nat)
  | runAt (place : Nat)
  /-- Resolve all tokens that are awaited under a name. -/
  | token (name : String) (outcome : Outcome Unit)
  | buffer (name : String) (view : Made Memref)
  | find (key : CacheKey)
  | contains (key : CacheKey)
  | allocate (key : CacheKey)
  | getOrCompile (key : CacheKey) (artifact : Made Artifact)
  | occupancy
  | config
  | workers
  | describeEngine
  | describeDispatcher
  | describeHandle (id : Nat)
  | describeResult (call index : Nat)
  | describeArtifact (artifact : Made Artifact)

inductive Reply where
  | nothing
  | number (value : Nat)
  | flag (value : Bool)
  | flags (values : List Bool)
  | text (value : String)
  | names (values : List String)
  | failed (failure : Failure)
  | forwarded (result : Except Async.ForwardFault Unit)
  | handle (entered : Entered)
  | allocated (entered : Entered) (fresh : Bool) (key : CacheKey)
  | called (id : Nat) (indirect : List Bool)
  | selected (entered : Entered) (generic : Bool)
  | entries (count : Nat)
  | config (config : Config)

/-! ## Making cells -/

def shaped (mold : Mold) : Engine.Run (Outcome Payload) := do
  Engine.wrap mold.mode mold.limit (← Act.lift mold.artifact)

def makeHandleCell : HandleStart → Engine.Run CellId
  | .pending => Async.makePending
  | .indirect => Async.makeIndirect
  | .made mold => do Async.makeSettled (← shaped mold)

def makeArgumentCell : ArgumentStart → Engine.Run CellId
  | .pending => Async.makePending
  | .indirect => Async.makeIndirect
  | .value value => do Async.makeSettled ((← Act.lift value).map .value)

def operandCell : Operand → Run CellId
  | .named id => argumentAt id
  | .fresh start => engine (makeArgumentCell start)

def operandCells : List Operand → Run (List CellId)
  | [] => return []
  | first :: rest => do return (← operandCell first) :: (← operandCells rest)

/-! ## Awaited tokens and buffers -/

/-- The cells under a name, and the list without them. -/
def withdraw (name : String) (awaited : List (String × CellId)) :
    List CellId × List (String × CellId) :=
  ((awaited.filter (·.1 == name)).map (·.2), awaited.filter (·.1 != name))

theorem withdraw_length (name : String) (awaited : List (String × CellId)) :
    (withdraw name awaited).1.length + (withdraw name awaited).2.length = awaited.length := by
  induction awaited with
  | nil => rfl
  | cons first rest ih =>
    by_cases named : first.1 = name <;> simp [withdraw, named] at ih ⊢ <;> omega

def takeTokens (name : String) : Engine.Run (List CellId) := do
  let (taken, left) := withdraw name (← Engine.current).tokens
  Engine.alter fun state => { state with tokens := left }
  return taken

def takeBuffers (name : String) : Engine.Run (List CellId) := do
  let (taken, left) := withdraw name (← Engine.current).buffers
  Engine.alter fun state => { state with buffers := left }
  return taken

def resolveEach (setup : Engine.Setup) (payload : Made Payload) : List CellId → Engine.Run (List Bool)
  | [] => return []
  | cell :: rest => do
    let taken ← Engine.resolve setup cell (← Act.lift payload)
    return taken :: (← resolveEach setup payload rest)

/-! ## Performing steps -/

/-- A step that panics leaves what it did before. -/
def perform (scene : Scene) : Step → Run Reply
  | .compile request => do
    return .handle (← enterHandle (← engine (Engine.compileRequest scene.setup request)))
  | .handle start => do return .handle (← enterHandle (← engine (makeHandleCell start)))
  | .setHandle id mold => do
    let cell ← handleAt id
    return .flag (← engine do Engine.resolve scene.setup cell (← shaped mold))
  | .forwardHandle id target => do
    let cell ← handleAt id
    return .forwarded (← engine (Engine.forward scene.setup cell (← handleAt target)))
  | .argument start => do return .number (← enterArgument (← engine (makeArgumentCell start)))
  | .setArgument id value => do
    let cell ← argumentAt id
    return .flag (← engine do
      Engine.resolve scene.setup cell ((← Act.lift value).map .value))
  | .forwardArgument id target => do
    let cell ← argumentAt id
    return .forwarded (← engine (Engine.forward scene.setup cell (← argumentAt target)))
  | .resultAsArgument call index => do
    return .number (← enterArgument (← resultAt call index))
  | .execute handle operands count separate => do
    let cell ← handleAt handle
    let cells ← operandCells operands
    let dispatcher := if separate then scene.separate else scene.setup.dispatcher
    let results ← engine (Engine.call scene.setup dispatcher cell cells count)
    let store := (← Act.read).world.store
    return .called (← enterCall results) (results.map store.isIndirect)
  | .select handle views => do
    let cell ← handleAt handle
    match ← Act.lift views with
    | .error failure => return .failed failure
    | .ok views =>
      match Engine.look Payload.handle? ((← Act.read).world.store.state cell) with
      | none => return .nothing
      | some (.error failure) => return .failed failure
      | some (.ok id) =>
        match ← engine (Engine.selectFor scene.setup id views) with
        | .error failure => return .failed failure
        | .ok executable =>
          let generic := ((← Act.read).world.outer.handles[id]?).map (·.genericCell)
          return .selected (← enterSelection executable) (generic == some executable)
  | .runAll => do return .names ((← engine (Engine.drain scene.setup)).map (·.name))
  | .runSome count => do
    return .names ((← engine (Engine.runFront scene.setup count)).map (·.name))
  | .runAt place => do
    return .names ((← engine (Engine.runAt scene.setup place)).toList.map (·.name))
  | .token name outcome => do
    return .flags (← engine do
      resolveEach scene.setup (.ok (outcome.map fun _ => .token)) (← takeTokens name))
  | .buffer name view => do
    return .flags (← engine do
      resolveEach scene.setup (view.map fun outcome => outcome.map .view) (← takeBuffers name))
  | .find key => do
    match ← engine (Engine.find key) with
    | none => return .nothing
    | some cell => return .handle (← enterHandle cell)
  | .contains key => do return .flag ((← Act.read).world.outer.cache.contains key)
  | .allocate key => do
    let (cell, fresh) ← engine (Engine.allocate key)
    return .allocated (← enterHandle cell) fresh key
  | .getOrCompile key artifact => do
    let cell ← engine (Engine.getOrCompile scene.setup key (.given artifact))
    return .handle (← enterHandle cell)
  | .occupancy => do return .entries (← Act.read).world.outer.cache.entries.length
  | .config => return .config scene.setup.config
  | .workers => return .number scene.setup.workers
  | .describeEngine => do
    return .text (Engine.describe scene.setup (← Act.read).world.outer)
  | .describeDispatcher => return .text scene.separate.describe
  | .describeHandle id => do describeCell (← handleAt id)
  | .describeResult call index => do describeCell (← resultAt call index)
  | .describeArtifact artifact => do
    match ← Act.lift artifact with
    | .ok artifact => return .text artifact.describe
    | .error failure => return .failed failure
where
  describeCell (cell : CellId) : Run Reply := do
    let world := (← Act.read).world
    return .text (world.store.describe (Engine.describePayload world.outer) cell)

end DeferredJit.Session
