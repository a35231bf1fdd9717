import DeferredJit.Session.Step

/-! Several callers that compile the same requests, and one who calls what they got.

Callers share their handles whatever order they come in, so they are taken one after the other. -/

set_option autoImplicit false

namespace DeferredJit.Session

open Async (CellId)

structure BatchCall where
  /-- The number of the request. -/
  handle : Nat
  operands : List Operand
  count : Nat

structure Batch where
  requests : List Request
  callers : Nat
  calls : List BatchCall

structure BatchReport where
  /-- Whether all callers got the same handle, request by request. -/
  shared : List Bool
  handles : List (Option (Outcome HandleView))
  results : List (List (Option (Outcome KernelValue)))
  /-- Notices as lines, in the order of their texts. -/
  log : List String
  cache : Cache

def compileEach (scene : Scene) : List Request → Run (List CellId)
  | [] => return []
  | request :: rest => do
    let cell ← engine (Engine.compileRequest scene.setup request)
    return cell :: (← compileEach scene rest)

def compileByAll (scene : Scene) (requests : List Request) : (callers : Nat) → Run (List (List CellId))
  | 0 => return []
  | callers + 1 => do
    let cells ← compileEach scene requests
    return cells :: (← compileByAll scene requests callers)

/-- Request by request, whether the others got what the first one got. -/
def agreement (first : List CellId) (others : List (List CellId)) : List Bool :=
  first.mapIdx fun index cell => others.all fun cells => cells[index]? == some cell

def callEach (scene : Scene) (handles : List CellId) : List BatchCall → Run (List (List CellId))
  | [] => return []
  | call :: rest => do
    let handle ← at? handles call.handle
    let operands ← operandCells call.operands
    let results ← engine (Engine.call scene.setup scene.setup.dispatcher handle operands call.count)
    return results :: (← callEach scene handles rest)

/-- Whatever was enqueued has run when the report is made. -/
def Batch.run (scene : Scene) (batch : Batch) : Run BatchReport := do
  let compiled ← compileByAll scene batch.requests batch.callers
  let handles := compiled.headD []
  let results ← callEach scene handles batch.calls
  discard (engine (Engine.drain scene.setup))
  let state ← Act.read
  let notices := state.world.history.filterMap fun event =>
    match event with
    | .noted notice => some notice.item.render
    | _ => none
  return { shared := agreement handles compiled.tail
           handles := handles.map state.handleView
           results := results.map (·.map state.valueView)
           log := notices.mergeSort fun first second => decide (first ≤ second)
           cache := state.world.outer.cache }

def Batch.report (scene : Scene) (batch : Batch) : Except Interrupt BatchReport :=
  (batch.run scene {}).1

end DeferredJit.Session
