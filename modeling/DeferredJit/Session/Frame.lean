import DeferredJit.Session.Step

/-! What a session shows of each of its steps. -/

set_option autoImplicit false

namespace DeferredJit.Session

/-- Something that a reader keeps an eye on. -/
inductive Place where
  | handle (id : Nat)
  | selection (id : Nat)
  | result (call index : Nat)
  deriving DecidableEq

inductive Shown where
  | handle (seen : Option (Outcome HandleView))
  | executable (seen : Option (Outcome ExecutableView))
  | value (seen : Option (Outcome KernelValue))
  deriving DecidableEq

/-- All that can be seen, by place. -/
def State.shown (state : State) : List (Place × Shown) :=
  (state.handles.zipIdx.map fun (cell, id) =>
      (Place.handle id, Shown.handle (state.handleView cell))) ++
    (state.selections.zipIdx.map fun (cell, id) =>
      (Place.selection id, Shown.executable (state.executableView cell))) ++
    state.calls.zipIdx.flatMap fun (results, call) =>
      results.zipIdx.map fun (cell, index) =>
        (Place.result call index, Shown.value (state.valueView cell))

/-- What is new or other than it was. -/
def changes (before after : List (Place × Shown)) : List (Place × Shown) :=
  after.filter fun (place, shown) => decide (before.lookup place ≠ some shown)

/-- Notices since the history had the given length, oldest first. -/
def noticesSince (length : Nat) (state : State) : List Engine.Notice :=
  let history := state.world.history
  ((history.take (history.length - length)).reverse).filterMap fun event =>
    match event with
    | .noted notice => some notice
    | _ => none

structure Frame where
  reply : Except Interrupt Reply
  notices : List Engine.Notice
  /-- The names of the tasks in the queue. -/
  queue : List String
  cache : Cache
  changes : List (Place × Shown)

def frame (before after : State) (reply : Except Interrupt Reply) : Frame where
  reply
  notices := noticesSince before.world.history.length after
  queue := after.world.outer.queue.map (·.name)
  cache := after.world.outer.cache
  changes := changes before.shown after.shown

/-- Every step is performed, also after one that panicked. -/
def play (scene : Scene) : List Step → State → List Frame
  | [], _ => []
  | step :: rest, state =>
    let (reply, next) := perform scene step state
    frame state next reply :: play scene rest next

def frames (scene : Scene) (steps : List Step) : List Frame := play scene steps {}

end DeferredJit.Session
