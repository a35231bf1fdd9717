import DeferredJit.Async.Store
import DeferredJit.Config
import DeferredJit.Kernel.Kernel

/-! Compiled handles: a generic executable, and executables for the operand shapes it has met. -/

set_option autoImplicit false

namespace DeferredJit

structure Handle where
  generic : Kernel
  /-- The cell that holds the generic executable. -/
  genericCell : Async.CellId
  specializer : Option Specializer
  mode : SpecializationMode
  /-- How many specializations the handle makes at most. -/
  limit : Nat
  /-- In the order in which they were asked for. -/
  specializations : List (ShapeKey × Async.CellId) := []

/-- Which executable a call gets. -/
inductive Choice where
  | generic
  | known (cell : Async.CellId)
  /-- One that is still to be made. -/
  | fresh
  deriving DecidableEq, Repr

namespace Handle

/-- Whether the shapes of operands matter at all. -/
def specializes (handle : Handle) : Bool :=
  handle.specializer.isSome &&
    match handle.mode with
    | .disabled => false
    | .enabled => handle.generic.signature.isDynamic
    | .always => true

def choose (handle : Handle) (key : ShapeKey) : Choice :=
  if handle.specializes then
    match handle.specializations.lookup key with
    | some cell => .known cell
    | none => if handle.limit ≤ handle.specializations.length then .generic else .fresh
  else .generic

def specialized (handle : Handle) (key : ShapeKey) (cell : Async.CellId) : Handle :=
  { handle with specializations := handle.specializations ++ [(key, cell)] }

@[simp] theorem specialized_specializes (handle : Handle) (key : ShapeKey) (cell : Async.CellId) :
    (handle.specialized key cell).specializes = handle.specializes := rfl

/-- Whoever comes after the first with the same shapes gets the same cell. -/
theorem choose_specialized (handle : Handle) (key : ShapeKey) (cell : Async.CellId)
    (fresh : handle.choose key = .fresh) : (handle.specialized key cell).choose key = .known cell := by
  unfold choose at fresh
  split at fresh
  · rename_i willing
    split at fresh
    · contradiction
    · rename_i missing
      have found : (handle.specialized key cell).specializations.lookup key = some cell := by
        simp [specialized, List.lookup_append, missing]
      simp [choose, willing, found]
  · contradiction

def describe (handle : Handle) : String :=
  Text.record "JitExecutable" [("name", Text.quoted handle.generic.name),
    ("mode", handle.mode.describe), ("specializable", toString handle.specializer.isSome),
    ("specializations", toString handle.specializations.length)]

end Handle

end DeferredJit
