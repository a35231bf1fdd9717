import DeferredJit.Request
import DeferredJit.ShapeKey

/-! Executables and the parties that make them. They come from outside; to this library they are
functions of what they are given. -/

set_option autoImplicit false

namespace DeferredJit

/-- How something that a kernel hands back becomes available. -/
inductive Arrival (α : Type) where
  /-- It is already. -/
  | settled (outcome : Outcome α)
  /-- Somebody outside resolves it and knows it by this name. -/
  | awaited (name : String)
  /-- A background task of this name resolves it. -/
  | scheduled (name : String) (value : α)

/-- What a kernel hands back for one result. -/
inductive Answer where
  | token (arrival : Arrival Unit)
  | asyncMemref (arrival : Arrival Memref)
  | memref (view : Memref)

/-- How a call of a kernel ends. -/
inductive Finish where
  | returned
  | failed (failure : Failure)
  | panicked (cause : Panic)

structure KernelRun where
  /-- Answers with the positions of their results, in the order in which they are handed back. -/
  answers : List (Nat × Answer)
  finish : Finish

structure Kernel where
  name : String
  signature : Signature
  run : List Memref → KernelRun

/-- Makes an executable for operands of certain shapes out of a generic one. -/
abbrev Specializer := Kernel → ShapeKey → Made Kernel

structure Artifact where
  kernel : Kernel
  specializer : Option Specializer

def Artifact.describe (artifact : Artifact) : String :=
  Text.record "CompiledArtifact" [("executable", Text.quoted artifact.kernel.name),
    ("specializable", toString artifact.specializer.isSome)]

/-- Compiles a request, knowing the number of workers. -/
abbrev Compiler := Request → (workers : Nat) → Made Artifact

end DeferredJit
