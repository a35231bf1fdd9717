import DeferredJit.Failure

/-! Cells that receive one outcome, once. An indirect cell may instead be linked to another cell,
once, and from then on shows what that cell shows. Continuations wait in the last cell of the chain
of links that starts at the cell they were registered on.

Everything here is a single step that runs no continuation.
-/

set_option autoImplicit false

namespace DeferredJit.Async

abbrev CellId := Nat

abbrev LatchId := Nat

inductive CellKind where
  | concrete
  | indirect
  deriving DecidableEq, Repr

/-- What to do when a cell has become available. -/
inductive Continuation (α β : Type) where
  | call (body : β)
  /-- One of the cells that a latch waits for is available. -/
  | arrive (latch : LatchId)
  /-- Pass the outcome on to another cell, a value after conversion. -/
  | derive (target : CellId) (convert : α → Made α)

/-- A continuation with its number in order of registration and the cell it was registered on. -/
structure Waiter (α β : Type) where
  serial : Nat
  home : CellId
  continuation : Continuation α β

structure Cell (α β : Type) where
  kind : CellKind := .concrete
  outcome : Option (Outcome α) := none
  link : Option CellId := none
  /-- Oldest first. -/
  waiters : List (Waiter α β) := []

/-- Opens, and calls its body, when as many cells as it misses have arrived. -/
structure Latch (β : Type) where
  missing : Nat
  body : β

structure Store (α β : Type) where
  cells : Array (Cell α β) := #[]
  latches : List (Latch β) := []
  /-- How many continuations were ever registered. -/
  registered : Nat := 0

inductive ForwardFault where
  | notIndirect
  | cycle
  | alreadyResolved
  | alreadyForwarded
  deriving DecidableEq, Repr

namespace ForwardFault

def message : ForwardFault → String
  | notIndirect => "only indirect values can be forwarded"
  | cycle => "forwarding would create a cycle"
  | alreadyResolved => "value was already resolved"
  | alreadyForwarded => "value was already forwarded"

def kind : ForwardFault → String
  | notIndirect => "NotIndirect"
  | cycle => "Cycle"
  | alreadyResolved => "AlreadyResolved"
  | alreadyForwarded => "AlreadyForwarded"

end ForwardFault

namespace Store

variable {α β : Type}

def cell? (store : Store α β) (id : CellId) : Option (Cell α β) := store.cells[id]?

def link? (store : Store α β) (id : CellId) : Option CellId := (store.cell? id).bind (·.link)

/-- At most `steps` links further, with every cell passed. -/
def chainWithin (store : Store α β) : (steps : Nat) → CellId → List CellId
  | 0, id => [id]
  | steps + 1, id =>
    match store.link? id with
    | some next => id :: chainWithin store steps next
    | none => [id]

/-- The cell, the cell it is linked to, and so on. Without a cycle no chain is longer than the
number of cells. -/
def chain (store : Store α β) (id : CellId) : List CellId := store.chainWithin store.cells.size id

theorem chainWithin_ne_nil (store : Store α β) (steps : Nat) (id : CellId) :
    store.chainWithin steps id ≠ [] := by
  cases steps with
  | zero => simp [chainWithin]
  | succ steps => unfold chainWithin; split <;> simp

/-- The cell at the end of the chain. -/
def last (store : Store α β) (id : CellId) : CellId :=
  (store.chain id).getLast (store.chainWithin_ne_nil _ id)

/-- What the cell shows, through its links. -/
def state (store : Store α β) (id : CellId) : Option (Outcome α) :=
  (store.cell? (store.last id)).bind (·.outcome)

def isAvailable (store : Store α β) (id : CellId) : Bool := (store.state id).isSome

def isIndirect (store : Store α β) (id : CellId) : Bool :=
  ((store.cell? id).map (·.kind)) == some .indirect

/-- A new cell after all others. -/
def make (store : Store α β) (cell : Cell α β) : CellId × Store α β :=
  (store.cells.size, { store with cells := store.cells.push cell })

def put (store : Store α β) (id : CellId) (cell : Cell α β) : Store α β :=
  { store with cells := store.cells.setIfInBounds id cell }

/-- Give a cell its outcome and hand out those who waited in it. Refused, with no effect, when it
has an outcome or a link. -/
def settle (store : Store α β) (id : CellId) (outcome : Outcome α) :
    Option (List (Waiter α β) × Store α β) :=
  match store.cell? id with
  | none => none
  | some cell =>
    if cell.link.isSome || cell.outcome.isSome then none
    else some (cell.waiters, store.put id { cell with outcome := some outcome, waiters := [] })

/-- Link an indirect cell to a target and hand out those who waited in it. -/
def linkTo (store : Store α β) (id target : CellId) :
    Except ForwardFault (List (Waiter α β) × Store α β) :=
  match store.cell? id with
  | none => .error .notIndirect
  | some cell =>
    if cell.kind ≠ .indirect then .error .notIndirect
    else if (store.chain target).contains id then .error .cycle
    else if cell.outcome.isSome then .error .alreadyResolved
    else if cell.link.isSome then .error .alreadyForwarded
    else .ok (cell.waiters, store.put id { cell with link := some target, waiters := [] })

/-- Let a waiter wait at the end of the chain. Nothing when the cell is available. -/
def park (store : Store α β) (id : CellId) (waiter : Waiter α β) : Option (Store α β) :=
  match store.cell? (store.last id) with
  | none => none
  | some cell =>
    if cell.outcome.isSome then none
    else some (store.put (store.last id) { cell with waiters := cell.waiters ++ [waiter] })

/-- A waiter with the next number. -/
def enroll (store : Store α β) (home : CellId) (continuation : Continuation α β) :
    Waiter α β × Store α β :=
  (⟨store.registered, home, continuation⟩, { store with registered := store.registered + 1 })

def makeLatch (store : Store α β) (latch : Latch β) : LatchId × Store α β :=
  (store.latches.length, { store with latches := store.latches ++ [latch] })

/-- One arrival at a latch; the body when it was the last one missing. -/
def arriveAt (store : Store α β) (id : LatchId) : Option β × Store α β :=
  match store.latches[id]? with
  | none => (none, store)
  | some latch =>
    (if latch.missing = 1 then some latch.body else none,
      { store with latches := store.latches.set id { latch with missing := latch.missing - 1 } })

end Store

end DeferredJit.Async
