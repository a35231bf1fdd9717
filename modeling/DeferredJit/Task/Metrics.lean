/-! Counts of background tasks. -/

set_option autoImplicit false

namespace DeferredJit.Task

/-- A task counts as waiting from when it is spawned until it is completed. -/
structure Metrics where
  spawned : Nat := 0
  completed : Nat := 0
  panicked : Nat := 0
  waiting : Int := 0
  deriving DecidableEq, Repr

namespace Metrics

def recordSpawn (metrics : Metrics) : Metrics :=
  { metrics with spawned := metrics.spawned + 1, waiting := metrics.waiting + 1 }

def recordCompletion (metrics : Metrics) : Metrics :=
  { metrics with completed := metrics.completed + 1, waiting := metrics.waiting - 1 }

def recordPanic (metrics : Metrics) : Metrics :=
  { metrics with panicked := metrics.panicked + 1 }

/-- Completions recorded ahead of their spawns do not make the number of waiting tasks negative. -/
def visibleWaiting (metrics : Metrics) : Nat := metrics.waiting.toNat

end Metrics

end DeferredJit.Task
