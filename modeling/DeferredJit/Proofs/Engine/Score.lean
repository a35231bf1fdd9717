import DeferredJit.Proofs.Engine.Pipeline
import DeferredJit.Proofs.Engine.Turns
import Mathlib.Data.Option.Basic
import Mathlib.Data.List.Forall2

/-! What compilations and calls come to when nothing is put off: handles are what the first request for
their key is compiled to, every call has its turn when it is made, and whatever a kernel promises is there
at once. -/

set_option autoImplicit false

namespace DeferredJit

open Async (CellId)

/-! ## Kernels that resolve all that they hand back -/

namespace Arrival

variable {α : Type}

/-- It is available, or a task resolves it. -/
def Prompt : Arrival α → Prop
  | settled _ | scheduled .. => True
  | awaited _ => False

/-- What becomes of it. -/
def comes (payload : α → Payload) : Arrival α → Option (Outcome Payload)
  | settled outcome => some (outcome.map payload)
  | scheduled _ value => some (.ok (payload value))
  | awaited _ => none

theorem isSome_comes {arrival : Arrival α} (prompt : arrival.Prompt) (payload : α → Payload) :
    (arrival.comes payload).isSome := by
  cases arrival with
  | awaited => exact prompt.elim
  | _ => rfl

end Arrival

namespace Answer

def Prompt : Answer → Prop
  | token arrival => arrival.Prompt
  | asyncMemref arrival => arrival.Prompt
  | memref _ => True

/-- What becomes of its cell, if it has one. -/
def comes : Answer → Option (Outcome Payload)
  | token arrival => arrival.comes fun _ => .token
  | asyncMemref arrival => arrival.comes .view
  | memref _ => none

def raw (cell : CellId) : Answer → Raw
  | token _ => .token cell
  | asyncMemref _ => .asyncMemref cell
  | memref view => .memref view

end Answer

namespace KernelRun

/-- The raw values of answers, whose cells are their places from `start` on. -/
def rawsFrom (start : Nat) (answers : List (Nat × Answer)) : List (Nat × Raw) :=
  (answers.zipIdx start).map fun (answer, place) => (answer.1, answer.2.raw place)

def raws (run : KernelRun) : List (Nat × Raw) := rawsFrom 0 run.answers

def shown (run : KernelRun) : Engine.Pipeline.Shown := fun place =>
  run.answers[place]?.bind fun answer => answer.2.comes

end KernelRun

/-- Whatever the kernel is run on. -/
def Kernel.Prompt (kernel : Kernel) : Prop := ∀ views, ∀ answer ∈ (kernel.run views).answers, answer.2.Prompt

/-- The executables that can come of it are prompt. -/
structure Artifact.Prompt (artifact : Artifact) : Prop where
  generic : artifact.kernel.Prompt
  specialized : ∀ {specializer key kernel}, artifact.specializer = some specializer →
    specializer artifact.kernel key = .ok (.ok kernel) → kernel.Prompt

namespace Engine

/-! ## The score -/

/-- Those that an engine works with, which are functions of what they are given. -/
structure Parties where
  config : Config
  compiler : Compiler
  workers : Nat
  marshaler : Marshaler

namespace Parties

def dispatcher (parties : Parties) : Dispatcher := { marshaler := parties.marshaler }

/-- Tasks may be run when they are enqueued. -/
def setup (parties : Parties) (inline : Bool) : Setup where
  config := parties.config
  compiler := parties.compiler
  workers := parties.workers
  inline
  dispatcher := parties.dispatcher

/-- Everything that a kernel hands back is there or is resolved by a task. -/
def Prompt (parties : Parties) : Prop :=
  ∀ ⦃request artifact⦄, parties.compiler request parties.workers = .ok (.ok artifact) → artifact.Prompt

end Parties

inductive Command where
  | compile (request : Request)
  /-- Bring a value that is there. -/
  | give (outcome : Outcome KernelValue)
  /-- Call what came of an earlier compilation, on earlier values. Both are given by their positions. -/
  | execute (handle : Nat) (operands : List Nat) (count : Nat)

/-- The key and the request that the command asks the compiler for, unless the key is known. -/
def Command.asked? (policy : KeyPolicy) : Command → Option (CacheKey × Request)
  | compile request => (Operation.compile request).asked? policy
  | give _ | execute .. => none

/-- The first valid request for a key. -/
def firstAsked (policy : KeyPolicy) (commands : List Command) (key : CacheKey) : Option Request :=
  (commands.filterMap (·.asked? policy)).lookup key

section Asked

variable {policy : KeyPolicy} {commands : List Command} {command : Command} {key other : CacheKey} {request : Request}

theorem firstAsked_of_silent (silent : command.asked? policy = none) (key : CacheKey) :
    firstAsked policy (commands ++ [command]) key = firstAsked policy commands key := by
  unfold firstAsked
  rw [List.filterMap_append]
  simp [silent]

theorem firstAsked_concat (asks : command.asked? policy = some (key, request)) :
    firstAsked policy (commands ++ [command]) key = some ((firstAsked policy commands key).getD request) := by
  unfold firstAsked
  rw [List.filterMap_append, List.lookup_append]
  have new : [command].filterMap (·.asked? policy) = [(key, request)] := by simp [asks]
  rw [new, List.lookup_cons_self]
  cases (commands.filterMap (·.asked? policy)).lookup key <;> rfl

theorem firstAsked_of_ne (asks : command.asked? policy = some (key, request)) (apart : other ≠ key) :
    firstAsked policy (commands ++ [command]) other = firstAsked policy commands other := by
  unfold firstAsked
  rw [List.filterMap_append, List.lookup_append]
  have new : [command].filterMap (·.asked? policy) = [(key, request)] := by simp [asks]
  have missed : (other == key) = false := by simp [apart]
  rw [new, List.lookup_cons, missed]
  exact Option.or_none

end Asked

/-- The operands of the turns that belong to a key, in their order. -/
def turnsAt {κ : Type} [DecidableEq κ] (turns : List (κ × List Memref)) (key : κ) : List (List Memref) :=
  (turns.filter (·.1 == key)).map Prod.snd

section Turns

variable {κ : Type} [DecidableEq κ]

theorem turnsAt_append (turns more : List (κ × List Memref)) (key : κ) :
    turnsAt (turns ++ more) key = turnsAt turns key ++ turnsAt more key := by
  unfold turnsAt
  rw [List.filter_append, List.map_append]

/-- Turns under one key. -/
theorem turnsAt_map (target key : κ) (views : List (List Memref)) :
    turnsAt (views.map fun views => (target, views)) key = if target = key then views else [] := by
  unfold turnsAt
  by_cases here : target = key
  · simp [here, List.filter_map, Function.comp_def]
  · simp [here, List.filter_map, Function.comp_def]

end Turns

/-- What has come of commands. -/
structure Score where
  /-- What requests were compiled to, by keys. The first for a key counts. -/
  compiled : List (CacheKey × Outcome Artifact) := []
  /-- For every compilation, what it came to and under which key. -/
  handles : List (Outcome (CacheKey × Artifact)) := []
  /-- The operands of calls, by the keys of their handles. -/
  turns : List (CacheKey × List Memref) := []
  /-- The values that were brought and the results of calls, in their order. -/
  values : List (Option (Outcome Payload)) := []

/-- The executable for these operands, once the handle was called with others before. -/
def selected (config : Config) (artifact : Artifact) (before : List (List Memref)) (views : List Memref) :
    Outcome Kernel :=
  match artifact.kernel.signature.check views with
  | .error mismatch => .error (.selection (artifact.kernel.name ++ ": " ++ mismatch.message))
  | .ok () =>
    match artifact.specializer with
    | none => .ok artifact.kernel
    | some specializer =>
      if ShapeKey.ofMemrefs views ∈ artifact.wanted config (before ++ [views]) then
        contained "specializer" (specializer artifact.kernel (ShapeKey.ofMemrefs views))
      else .ok artifact.kernel

/-- The result at a position. -/
def reply (call : Call) : Outcome (Kernel × List Memref) → (index : Nat) → Option (Outcome Payload)
  | .error failure, _ => some (.error failure)
  | .ok (kernel, views), index =>
    Pipeline.invoke call kernel views (kernel.run views).raws (kernel.run views).shown index

namespace Score

def shown (score : Score) : Pipeline.Shown := fun place => score.values[place]?.join

def compile (parties : Parties) (score : Score) (request : Request) : Score :=
  match request.validate with
  | .error fault => { score with handles := score.handles ++ [.error fault.failure] }
  | .ok () =>
    let key := request.key parties.config.keyPolicy
    let compiled := score.compiled ++ [(key, contained "compiler" (parties.compiler request parties.workers))]
    let first := (compiled.lookup key).getD (.error unresolved)
    { score with compiled, handles := score.handles ++ [first.map fun artifact => (key, artifact)] }

/-- What a call runs: the first of its operands, its handle and its executable that fails makes it fail. -/
def chosen (config : Config) (score : Score) (handle : Outcome (CacheKey × Artifact))
    (viewed : Outcome (List Memref)) : Outcome (Kernel × List Memref) := do
  let views ← viewed
  let (key, artifact) ← handle
  let kernel ← selected config artifact (turnsAt score.turns key) views
  return (kernel, views)

/-- The turn of a call at its handle, if it comes to that. -/
def turn? (handle : Outcome (CacheKey × Artifact)) (viewed : Outcome (List Memref)) :
    Option (CacheKey × List Memref) :=
  match viewed, handle with
  | .ok views, .ok (key, _) => some (key, views)
  | _, _ => none

/-- Cells of the call are positions here. -/
def execute (parties : Parties) (score : Score) (call : Call) : Score :=
  match score.handles[call.handle]?, (Pipeline.marshal call score.shown).run with
  | some handle, some viewed =>
    { score with
      turns := score.turns ++ (turn? handle viewed).toList
      values := score.values ++
        (List.range call.count).map (reply call (score.chosen parties.config handle viewed)) }
  | _, _ => score

def next (parties : Parties) (score : Score) : Command → Score
  | .compile request => score.compile parties request
  | .give outcome => { score with values := score.values ++ [some (outcome.map .value)] }
  | .execute handle operands count => score.execute parties ⟨0, parties.dispatcher, handle, operands, count⟩

def of (parties : Parties) (commands : List Command) : Score := commands.foldl (next parties) {}

theorem of_concat (parties : Parties) (commands : List Command) (command : Command) :
    of parties (commands ++ [command]) = (of parties commands).next parties command := by
  unfold of
  rw [List.foldl_append]
  rfl

end Score

end Engine

end DeferredJit
