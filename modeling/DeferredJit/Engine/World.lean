import DeferredJit.Async.World
import DeferredJit.Engine.Cache
import DeferredJit.Engine.Handle
import DeferredJit.Kernel.Conversion
import DeferredJit.Kernel.Marshal
import DeferredJit.Text.Bracketed

/-! What an engine is set up with, what it keeps, and what waits in its cells and in its queue. -/

set_option autoImplicit false

namespace DeferredJit.Engine

open Async (CellId Waiter)

/-- What turns argument values into views and answers into result values. -/
structure Dispatcher where
  marshaler : Marshaler := .tensors
  conversions : List Conversion := Conversion.defaults

def Dispatcher.describe (dispatcher : Dispatcher) : String :=
  Text.abridgedRecord "ExecutionDispatcher" [("conversions", toString dispatcher.conversions.length)]

structure Setup where
  config : Config
  compiler : Compiler
  /-- The number of workers that the compiler is told. -/
  workers : Nat
  /-- Run tasks when they are enqueued, not later. -/
  inline : Bool
  dispatcher : Dispatcher

/-- What a compilation task compiles. -/
inductive Compilation where
  | request (request : Request)
  /-- Nothing: the artifact is at hand. -/
  | given (artifact : Made Artifact)

/-- A background task. -/
inductive Job where
  | compile (key : CacheKey) (target : CellId) (compilation : Compilation)
  | specialize (handle : HandleId) (generic : Kernel) (specializer : Specializer) (key : ShapeKey)
      (target : CellId)
  | settle (name : String) (target : CellId) (payload : Payload)

def Job.name : Job → String
  | compile key .. => "compile " ++ key.text
  | specialize _ generic .. => "specialize " ++ generic.name
  | settle name .. => name

structure Call where
  number : Nat
  dispatcher : Dispatcher
  handle : CellId
  operands : List CellId
  /-- How many results the caller expects. -/
  count : Nat

/-- What a call does once the cells it waits for are available. -/
inductive Stage where
  | operands (call : Call) (results : List CellId)
  | handle (call : Call) (views : List Memref) (results : List CellId)
  | executable (call : Call) (views : List Memref) (results : List CellId)
  /-- A continuation of the caller, which may panic. -/
  | observer (panic : Option Panic)

/-- More than the stages that can come of it, and the results that may have to be waited for. -/
def Stage.weight : Stage → Nat
  | operands call _ => call.count + 3
  | handle call _ _ => call.count + 2
  | executable call _ _ => call.count + 1
  | observer _ => 1

/-- A call of one of the outside parties. -/
inductive Notice where
  | compiled (key : CacheKey) (request : Request) (workers : Nat)
  | fetched (key : CacheKey)
  | specialized (handle : HandleId) (generic : String) (key : ShapeKey)
  | executed (call : Nat) (kernel : String) (views : List Memref)

/-- The notice on one line. -/
def Notice.item : Notice → Text.Item
  | compiled _ request workers =>
    .list [.text "compile", .text request.source, .text request.entry, .number workers]
  | fetched _ => .list [.text "closure"]
  | specialized _ generic key => .list [.text "specialize", .text generic, .text key.text]
  | executed _ kernel views =>
    .list [.text "exec", .text kernel, .list (views.map fun view =>
      .list [.text view.type.name, .list (view.sizes.map .number)])]

structure State where
  /-- Oldest first. -/
  queue : List Job := []
  cache : Cache := {}
  handles : List Handle := []
  /-- Cells that somebody outside will resolve, by name, oldest first. -/
  tokens : List (String × CellId) := []
  buffers : List (String × CellId) := []
  calls : Nat := 0

abbrev EngineWorld := Async.World Payload Stage Notice State

abbrev Run (result : Type) := Async.Action Payload Stage Notice State result

def current : Run State := do return (← Act.read).outer

def alter (change : State → State) : Run Unit :=
  Act.modify fun world => { world with outer := change world.outer }

/-- What can be due while an operation runs: a waiter, or a task that is not put off. -/
inductive Due where
  | waiter (waiter : Waiter Payload Stage)
  | job (job : Job)

abbrev Later := Due → Run Unit

def Later.fire (later : Later) : Async.Fire Payload Stage Notice State := fun waiter =>
  later (.waiter waiter)

def enqueue (setup : Setup) (later : Later) (job : Job) : Run Unit :=
  if setup.inline then later (.job job)
  else alter fun state => { state with queue := state.queue ++ [job] }

/-- The state of a cell, as far as it is of the right sort. -/
def look {result : Type} (select : Payload → Option result) (seen : Option (Outcome Payload)) :
    Option (Outcome result) :=
  match seen with
  | some (.ok payload) => (select payload).map .ok
  | some (.error failure) => some (.error failure)
  | none => none

/-- The kernel values in cells. -/
def valuesOf (cells : List CellId) : Run (List (Option (Outcome KernelValue))) := do
  let store ← Async.theStore
  return cells.map fun cell => look Payload.value? (store.state cell)

def makeEach (make : Run CellId) : (count : Nat) → Run (List CellId)
  | 0 => return []
  | count + 1 => do
    let first ← make
    return first :: (← makeEach make count)

/-- The same failure on every result. -/
def failAll (count : Nat) (failure : Failure) : Run (List CellId) :=
  makeEach (Async.makeSettled (.error failure)) count

def placeholders (count : Nat) : Run (List CellId) := makeEach Async.makeIndirect count

end DeferredJit.Engine
