import DeferredJit.Task.Metrics

/-! A pool of workers that takes tasks in the order in which they were enqueued. -/

set_option autoImplicit false

namespace DeferredJit.Task

/-- A task that notes its tag, enqueues further tasks, and then may panic. -/
inductive Chore where
  | mk (tag : String) (spawns : List Chore) (panics : Bool)

def Chore.tag : Chore → String
  | mk tag _ _ => tag

def Chore.spawns : Chore → List Chore
  | mk _ spawns _ => spawns

def Chore.panics : Chore → Bool
  | mk _ _ panics => panics

/-- The number of tasks that running this one brings about, itself included. -/
def Chore.weight : Chore → Nat
  | mk _ spawns _ => 1 + weights spawns
where
  weights : List Chore → Nat
    | [] => 0
    | first :: rest => first.weight + weights rest

structure Pool where
  workers : Nat
  queue : List Chore := []
  metrics : Metrics := {}
  stopping : Bool := false
  ran : List String := []

namespace Pool

/-- The number of workers that a configuration asks for when it is made with `requested`. -/
def configure (requested : Nat) : Nat := max requested 1

/-- There is always a worker, whatever the configuration says. -/
def start (requested : Nat) : Pool := { workers := max requested 1 }

def enqueue (pool : Pool) (chore : Chore) : Pool :=
  { pool with queue := pool.queue ++ [chore], metrics := pool.metrics.recordSpawn }

def enqueueAll (pool : Pool) (chores : List Chore) : Pool := chores.foldl enqueue pool

/-- Tasks that occupy workers are counted like all others. -/
def occupy (pool : Pool) (count : Nat) : Pool :=
  { pool with metrics := (List.replicate count ()).foldl (fun metrics _ => metrics.recordSpawn) pool.metrics }

def release (pool : Pool) (count : Nat) : Pool :=
  { pool with metrics := (List.replicate count ()).foldl (fun metrics _ => metrics.recordCompletion) pool.metrics }

/-- Queued tasks still run after this. -/
def stop (pool : Pool) : Pool := { pool with stopping := true }

/-- Run a task that has left the queue. -/
def run (pool : Pool) (chore : Chore) : Pool :=
  let noted := { pool with ran := pool.ran ++ [chore.tag] }
  let spawned := noted.enqueueAll chore.spawns
  let metrics := if chore.panics then spawned.metrics.recordPanic else spawned.metrics
  { spawned with metrics := metrics.recordCompletion }

/-- Run tasks from the front until none is left; `fuel` bounds their number. -/
def drainWithin : (fuel : Nat) → Pool → Pool
  | 0, pool => pool
  | fuel + 1, pool =>
    match pool.queue with
    | [] => pool
    | chore :: rest => drainWithin fuel (run { pool with queue := rest } chore)

def drain (pool : Pool) : Pool := drainWithin (Chore.weight.weights pool.queue) pool

end Pool

/-- What an observer of a pool writes down. -/
structure PoolReport where
  configured : Nat
  workers : Nat
  queued : Metrics
  stoppingBefore : Bool
  stoppingAfter : Bool
  ran : List String
  drained : Metrics

/-- Occupy every worker, enqueue the tasks, perhaps ask the pool to stop, and let it drain. With
several workers the tasks that ran are listed by tag, since they may run in any order. -/
def observe (configured : Nat) (chores : List Chore) (stops : Bool) : PoolReport :=
  let pool := Pool.start configured
  let queued := (pool.occupy pool.workers).enqueueAll chores
  let stopped := if stops then queued.stop else queued
  let drained := (stopped.release pool.workers).drain
  { configured
    workers := pool.workers
    queued := queued.metrics
    stoppingBefore := queued.stopping
    stoppingAfter := stopped.stopping
    ran := if pool.workers ≤ 1 then drained.ran
      else drained.ran.mergeSort fun first second => decide (first ≤ second)
    drained := drained.metrics }

end DeferredJit.Task
