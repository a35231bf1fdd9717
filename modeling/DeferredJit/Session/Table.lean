import DeferredJit.Engine.Engine

/-! The tables of a session, in which a script finds its cells by number. -/

set_option autoImplicit false

namespace DeferredJit.Session

open Async (CellId)

/-- What does not change while a session lasts. -/
structure Scene where
  setup : Engine.Setup
  /-- For calls that do not go through the engine. -/
  separate : Engine.Dispatcher

structure State where
  world : Engine.EngineWorld := { outer := {} }
  handles : List CellId := []
  arguments : List CellId := []
  selections : List CellId := []
  /-- The result cells of every call. -/
  calls : List (List CellId) := []

abbrev Run (result : Type) := Act State result

def engine {result : Type} (operation : Engine.Run result) : Run result := fun state =>
  let (value, world) := operation state.world
  (value, { state with world })

def at? {item : Type} (table : List item) (place : Nat) : Run item :=
  match table[place]? with
  | some found => return found
  | none => Act.panic (.outOfBounds table.length place)

def handleAt (id : Nat) : Run CellId := do at? (← Act.read).handles id

def argumentAt (id : Nat) : Run CellId := do at? (← Act.read).arguments id

def resultAt (call index : Nat) : Run CellId := do at? (← at? (← Act.read).calls call) index

/-- The number of an entry, and of the first entry that names the same cell. -/
structure Entered where
  id : Nat
  same : Option Nat

def enterHandle (cell : CellId) : Run Entered := do
  let handles := (← Act.read).handles
  Act.modify fun state => { state with handles := handles ++ [cell] }
  return ⟨handles.length, handles.idxOf? cell⟩

def enterArgument (cell : CellId) : Run Nat := do
  let arguments := (← Act.read).arguments
  Act.modify fun state => { state with arguments := arguments ++ [cell] }
  return arguments.length

def enterSelection (cell : CellId) : Run Entered := do
  let selections := (← Act.read).selections
  Act.modify fun state => { state with selections := selections ++ [cell] }
  return ⟨selections.length, selections.idxOf? cell⟩

def enterCall (results : List CellId) : Run Nat := do
  let calls := (← Act.read).calls
  Act.modify fun state => { state with calls := calls ++ [results] }
  return calls.length

/-! ## What a reader sees -/

structure HandleView where
  name : String
  mode : SpecializationMode
  specializations : Nat
  deriving DecidableEq

def HandleView.ofHandle (handle : Handle) : HandleView :=
  ⟨handle.generic.name, handle.mode, handle.specializations.length⟩

structure ExecutableView where
  name : String
  operands : List String
  deriving DecidableEq

def ExecutableView.ofKernel (kernel : Kernel) : ExecutableView :=
  ⟨kernel.name, kernel.signature.operands.map OperandType.text⟩

/-- What a handle cell shows. -/
def State.handleView (state : State) (cell : CellId) : Option (Outcome HandleView) :=
  Engine.look (fun payload => do
      let handle ← state.world.outer.handles[← payload.handle?]?
      return .ofHandle handle)
    (state.world.store.state cell)

def State.executableView (state : State) (cell : CellId) : Option (Outcome ExecutableView) :=
  Engine.look (fun payload => payload.executable?.map .ofKernel) (state.world.store.state cell)

def State.valueView (state : State) (cell : CellId) : Option (Outcome KernelValue) :=
  Engine.look Payload.value? (state.world.store.state cell)

end DeferredJit.Session
