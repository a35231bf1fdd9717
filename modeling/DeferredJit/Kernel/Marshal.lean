import DeferredJit.Kernel.Value
import DeferredJit.Memref.View

/-! From argument values to the views that an executable gets. -/

set_option autoImplicit false

namespace DeferredJit

/-- Makes a view of the value at a position. -/
abbrev Marshaler := (index : Nat) → KernelValue → Made Memref

namespace Marshaler

/-- Takes tensors and nothing else. -/
def tensors : Marshaler := fun index value =>
  match value with
  | .tensor tensor => (Memref.ofTensor tensor).map .ok
  | .chain => .ok (.error (.marshal index (value.kind ++ " operands cannot be passed as memrefs")))

/-- Views of operands from position `index` on, or the first failure. An operand that failed gives
its own failure. -/
def viewsFrom (marshaler : Marshaler) (index : Nat) :
    List (Option (Outcome KernelValue)) → Except Panic (Outcome (List Memref))
  | [] => .ok (.ok [])
  | none :: _ => .ok (.error (.marshal index "operand is not available"))
  | some (.error failure) :: _ => .ok (.error failure)
  | some (.ok value) :: rest => do
    match ← marshaler index value with
    | .error failure => return .error failure
    | .ok view =>
      match ← viewsFrom marshaler (index + 1) rest with
      | .error failure => return .error failure
      | .ok views => return .ok (view :: views)

def views (marshaler : Marshaler) (operands : List (Option (Outcome KernelValue))) :
    Except Panic (Outcome (List Memref)) :=
  marshaler.viewsFrom 0 operands

end Marshaler

end DeferredJit
