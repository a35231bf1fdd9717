import DeferredJit.Async.Describe
import DeferredJit.Async.World

/-! Scripts over cells: finite trees of operations, where a callback holds further operations.

Cells are named by their places in a table. A script is run one step after the other, and each step
yields a reply, the entries logged meanwhile, and the cells that show something new.
-/

set_option autoImplicit false

namespace DeferredJit.Async.Script

mutual

inductive Op (α : Type) where
  | make (kind : CellKind)
  | makeSettled (outcome : Outcome α)
  /-- One more name for a cell. -/
  | alias (id : Nat)
  | settle (id : Nat) (outcome : Outcome α)
  | forward (id target : Nat)
  | afterwards (id : Nat) (callback : Callback α)
  /-- As `afterwards`; the callback is told what the cell shows. -/
  | onReady (id : Nat) (callback : Callback α)
  | whenAll (ids : List Nat) (callback : Callback α)
  | derive (id : Nat) (convert : α → Made α)
  /-- Wait for a cell while the actions are done. -/
  | await (id : Nat) (actions : List (Op α))
  | inspect (id : Nat)
  | describe (id : Nat)
  | same (id other : Nat)
  | references (id : Nat)

inductive Callback (α : Type) where
  | mk (tag : String) (actions : List (Op α)) (panic : Option Panic)

end

/-- What a cell shows, question by question. -/
structure Inspection (α : Type) where
  state : Option (Outcome α)
  indirect : Bool

namespace Inspection

variable {α : Type}

def available (seen : Inspection α) : Bool := seen.state.isSome

def failed (seen : Inspection α) : Bool :=
  match seen.state with
  | some (.error _) => true
  | _ => false

def value? (seen : Inspection α) : Option α := seen.state.bind Except.toOption

def failure? (seen : Inspection α) : Option Failure :=
  match seen.state with
  | some (.error failure) => some failure
  | _ => none

end Inspection

inductive Reply (α : Type) where
  | nothing
  | number (value : Nat)
  | flag (value : Bool)
  | forwarded (result : Except ForwardFault Unit)
  | state (seen : Option (Outcome α))
  | inspection (seen : Inspection α)
  | text (value : String)

inductive Entry (α : Type) where
  | announced (tag : String) (seen : Option (Outcome α))
  | started (tag : String)
  | acted (tag : String) (reply : Reply α)
  | waited (reply : Reply α)

/-- A callback, and whether it was registered to be told the state. -/
structure Reaction (α : Type) where
  told : Bool
  callback : Callback α

variable {α : Type}

abbrev Table := List CellId

abbrev Run (α result : Type) := Action α (Reaction α) (Entry α) Table result

abbrev Firing (α : Type) := Fire α (Reaction α) (Entry α) Table

def named (id : Nat) : Run α CellId := do
  let table := (← Act.read).outer
  match table[id]? with
  | some cell => return cell
  | none => Act.panic (.outOfBounds table.length id)

def namedAll : List Nat → Run α (List CellId)
  | [] => return []
  | id :: rest => do return (← named id) :: (← namedAll rest)

/-- Name a cell; the reply is the name. -/
def enter (cell : CellId) : Run α (Reply α) := do
  let id := (← Act.read).outer.length
  Act.modify fun world => { world with outer := world.outer ++ [cell] }
  return .number id

/-- Names of the cell, and cells linked to it. -/
def countReferences (world : World α (Reaction α) (Entry α) Table) (cell : CellId) : Nat :=
  world.outer.countP (· == cell) + world.store.cells.countP (·.link == some cell)

mutual

def perform (valueText : α → String) (fire : Firing α) : Op α → Run α (Reply α)
  | .make .concrete => do enter (← makePending)
  | .make .indirect => do enter (← makeIndirect)
  | .makeSettled outcome => do enter (← makeSettled outcome)
  | .alias id => do enter (← named id)
  | .settle id outcome => do return .flag (← resolve fire (← named id) outcome)
  | .forward id target => do
    let source ← named id
    return .forwarded (← forward fire source (← named target))
  | .afterwards id callback => do
    register fire (← named id) (.call ⟨false, callback⟩)
    return .nothing
  | .onReady id callback => do
    register fire (← named id) (.call ⟨true, callback⟩)
    return .nothing
  | .whenAll ids callback => do
    whenAll fire (← namedAll ids) ⟨false, callback⟩ (answer valueText fire callback)
    return .nothing
  | .derive id convert => do enter (← derived fire (← named id) convert)
  | .await id actions => do
    let cell ← named id
    performEach valueText fire .waited actions
    return .state (← stateOf cell)
  | .inspect id => do
    let cell ← named id
    let store ← theStore
    return .inspection ⟨store.state cell, store.isIndirect cell⟩
  | .describe id => do
    let cell ← named id
    return .text ((← theStore).describe valueText cell)
  | .same id other => do return .flag ((← named id) == (← named other))
  | .references id => do
    let cell ← named id
    return .number (countReferences (← Act.read) cell)

def performEach (valueText : α → String) (fire : Firing α) (entry : Reply α → Entry α) :
    List (Op α) → Run α Unit
  | [] => return ()
  | op :: rest => do
    note (entry (← perform valueText fire op))
    performEach valueText fire entry rest

/-- A callback notes its tag, then each of its actions, and panics last. A panic among the actions
ends it. -/
def answer (valueText : α → String) (fire : Firing α) : Callback α → Run α Unit
  | .mk tag actions panic => do
    note (.started tag)
    performEach valueText fire (.acted tag) actions
    match panic with
    | some cause => Act.panic cause
    | none => return ()

end

def react (valueText : α → String) (fire : Firing α) (reaction : Reaction α)
    (seen : Option (Outcome α)) : Run α Unit := do
  if reaction.told then
    let .mk tag .. := reaction.callback
    note (.announced tag seen)
  answer valueText fire reaction.callback

/-! ## How much a script may run -/

mutual

def Op.weight : Op α → Nat
  | .afterwards _ callback | .onReady _ callback => callback.weight
  | .whenAll ids callback => ids.length + callback.weight
  | .derive .. => 1
  | .await _ actions => weights actions
  | _ => 0

def Callback.weight : Callback α → Nat
  | .mk _ actions _ => 1 + weights actions

def weights : List (Op α) → Nat
  | [] => 0
  | op :: rest => op.weight + weights rest

end

def Reaction.weight (reaction : Reaction α) : Nat := reaction.callback.weight

abbrev Scene (α : Type) := World α (Reaction α) (Entry α) Table

/-- One step of a script, as deep as it can go. -/
def step (valueText : α → String) (op : Op α) : Run α (Reply α) := do
  let depth := op.weight + (← theStore).weight Reaction.weight
  perform valueText (fireWithin (react valueText) depth) op

/-- What a reader sees of an event: entries, and values that were converted. -/
inductive Logged (α : Type) where
  | entry (entry : Entry α)
  | converted (input : α)

def Logged.ofEvent : Event α (Entry α) → Option (Logged α)
  | .noted noted => some (.entry noted)
  | .converted input => some (.converted input)
  | _ => none

/-- Logged since the history had the given length, oldest first. -/
def logSince (length : Nat) (world : Scene α) : List (Logged α) :=
  ((world.history.take (world.history.length - length)).reverse).filterMap Logged.ofEvent

def states (world : Scene α) : List (Option (Outcome α)) := world.outer.map world.store.state

/-- Places at which the second list differs from the first or goes beyond it. -/
def changesFrom [DecidableEq α] (place : Nat) :
    List (Option (Outcome α)) → List (Option (Outcome α)) → List (Nat × Option (Outcome α))
  | old :: before, new :: after =>
    let rest := changesFrom (place + 1) before after
    if old = new then rest else (place, new) :: rest
  | [], new :: after => (place, new) :: changesFrom (place + 1) [] after
  | _, [] => []

structure Frame (α : Type) where
  reply : Except Interrupt (Reply α)
  log : List (Logged α)
  changes : List (Nat × Option (Outcome α))

/-- Every step is run, also after one that panicked. `shown` is what the cells show so far. -/
def play [DecidableEq α] (valueText : α → String) :
    List (Op α) → (shown : List (Option (Outcome α))) → Scene α → List (Frame α)
  | [], _, _ => []
  | op :: rest, shown, world =>
    let (reply, next) := step valueText op world
    let now := states next
    ⟨reply, logSince world.history.length next, changesFrom 0 shown now⟩ ::
      play valueText rest now next

def frames [DecidableEq α] (valueText : α → String) (script : List (Op α)) : List (Frame α) :=
  play valueText script [] { outer := [] }

end DeferredJit.Async.Script
