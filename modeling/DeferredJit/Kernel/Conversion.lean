import DeferredJit.Async.Store
import DeferredJit.Kernel.Kernel
import DeferredJit.Kernel.Value

/-! From what a kernel hands back to the values of its declared results. -/

set_option autoImplicit false

namespace DeferredJit

abbrev HandleId := Nat

/-- What cells hold. -/
inductive Payload where
  | value (value : KernelValue)
  | token
  | view (view : Memref)
  | executable (kernel : Kernel)
  | handle (id : HandleId)

namespace Payload

def value? : Payload → Option KernelValue
  | value held => some held
  | _ => none

def executable? : Payload → Option Kernel
  | executable held => some held
  | _ => none

def handle? : Payload → Option HandleId
  | handle held => some held
  | _ => none

end Payload

/-- A cell that was found with nothing usable in it when its turn came. -/
def unresolved : Failure := .execution "continuation ran before its value was resolved"

/-- What a kernel has handed back, in its cell if it has one. -/
inductive Raw where
  | token (cell : Async.CellId)
  | asyncMemref (cell : Async.CellId)
  | memref (view : Memref)

def Raw.kind : Raw → String
  | token _ => "async token"
  | asyncMemref _ => "async memref"
  | memref _ => "memref"

/-- Where a converted result comes from. -/
inductive Converted where
  | derived (cell : Async.CellId) (convert : Payload → Made Payload)
  | settled (outcome : Outcome KernelValue)

/-- Converts what was handed back at a position for the type declared there, or gives it back, for
the next conversion to try. -/
abbrev Conversion := (index : Nat) → ResultType → Raw → Except Panic (Except Raw Converted)

/-- The tensor that a view stands for, if it has the declared type and rank. -/
def tensorResult (index : Nat) (type : ElementType) (rank : Nat) (view : Memref) :
    Except Panic (Outcome KernelValue) :=
  if view.type ≠ type ∨ view.rank ≠ rank then
    .ok (.error (.conversion index ("declared " ++ toString rank ++ "d " ++ type.name ++
      " buffer, got " ++ toString view.rank ++ "d " ++ view.type.name)))
  else do
    match ← view.toTensor with
    | .ok tensor => return .ok (.tensor tensor)
    | .error fault => return .error (.conversion index fault.failure.text)

namespace Conversion

def token : Conversion := fun _ type raw =>
  match type, raw with
  | .token, .token cell => .ok (.ok (.derived cell fun _ => .ok (.ok (.value .chain))))
  | _, raw => .ok (.error raw)

def asyncMemref : Conversion := fun index type raw =>
  match type, raw with
  | .asyncMemref type rank, .asyncMemref cell => .ok (.ok (.derived cell fun payload =>
      match payload with
      | .view view => (tensorResult index type rank view).map fun outcome => outcome.map .value
      | _ => .ok (.error unresolved)))
  | _, raw => .ok (.error raw)

def memref : Conversion := fun index type raw =>
  match type, raw with
  | .memref type rank, .memref view => do
    return .ok (.settled (← tensorResult index type rank view))
  | _, raw => .ok (.error raw)

/-- Tried in this order. -/
def defaults : List Conversion := [token, asyncMemref, memref]

/-- The first conversion that applies. Each gets what the one before it gave back. -/
def convert (index : Nat) (type : ResultType) : List Conversion → Raw → Except Panic Converted
  | [], raw => .ok (.settled (.error
      (.conversion index ("no conversion from " ++ raw.kind ++ " to " ++ type.text))))
  | conversion :: rest, raw => do
    match ← conversion index type raw with
    | .ok converted => return converted
    | .error raw => convert index type rest raw

end Conversion

end DeferredJit
