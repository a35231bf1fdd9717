import DeferredJit.Memref.View

/-! Declared types of an executable's operands and results, and the check of operands against
them. The check names the first mismatch: operands in order, and for one operand the element type,
then the rank, then the axes in order. -/

set_option autoImplicit false

namespace DeferredJit

inductive Dim where
  | fixed (extent : Int)
  | dynamic
  deriving DecidableEq, Repr

namespace Dim

def text : Dim → String
  | fixed extent => toString extent
  | dynamic => "?"

/-- Whether an operand may have this extent along the axis. -/
def admits : Dim → Int → Bool
  | fixed expected, extent => expected == extent
  | dynamic, _ => true

end Dim

structure OperandType where
  type : ElementType
  dims : List Dim
  deriving DecidableEq, Repr

/-- How one operand differs from its declared type. -/
inductive OperandMismatch where
  | type (expected actual : ElementType)
  | rank (expected actual : Nat)
  | extent (axis : Nat) (expected actual : Int)
  deriving DecidableEq, Repr

def OperandMismatch.message : OperandMismatch → String
  | type expected actual =>
    "expected " ++ expected.name ++ " element type, got " ++ actual.name
  | rank expected actual => "expected rank " ++ toString expected ++ ", got rank " ++ toString actual
  | extent axis expected actual =>
    "dimension " ++ toString axis ++ " must be " ++ toString expected ++ ", got " ++ toString actual

namespace OperandType

/-- The type of exactly this shape. -/
def ofSizes (type : ElementType) (sizes : List Int) : OperandType := ⟨type, sizes.map .fixed⟩

def rank (operand : OperandType) : Nat := operand.dims.length

def isDynamic (operand : OperandType) : Bool := operand.dims.any (· == .dynamic)

def text (operand : OperandType) : String :=
  "memref<" ++ String.join (operand.dims.map (·.text ++ "x")) ++ operand.type.name ++ ">"

def checkExtents (axis : Nat) : List Dim → List Int → Except OperandMismatch Unit
  | .fixed expected :: dims, size :: sizes =>
    if expected = size then checkExtents (axis + 1) dims sizes
    else .error (.extent axis expected size)
  | .dynamic :: dims, _ :: sizes => checkExtents (axis + 1) dims sizes
  | _, _ => .ok ()

def check (operand : OperandType) (view : Memref) : Except OperandMismatch Unit :=
  if view.type ≠ operand.type then .error (.type operand.type view.type)
  else if view.rank ≠ operand.rank then .error (.rank operand.rank view.rank)
  else checkExtents 0 operand.dims view.sizes

end OperandType

inductive ResultType where
  | token
  | asyncMemref (type : ElementType) (rank : Nat)
  | memref (type : ElementType) (rank : Nat)
  deriving DecidableEq, Repr

def ResultType.text : ResultType → String
  | token => "!async.token"
  | asyncMemref type rank =>
    "!async.value<memref<" ++ toString rank ++ "d x " ++ type.name ++ ">>"
  | memref type rank => "memref<" ++ toString rank ++ "d x " ++ type.name ++ ">"

structure Signature where
  operands : List OperandType
  results : List ResultType
  deriving DecidableEq, Repr

inductive SignatureMismatch where
  | arity (expected actual : Nat)
  | operand (index : Nat) (type : OperandType) (reason : OperandMismatch)
  deriving DecidableEq, Repr

def SignatureMismatch.message : SignatureMismatch → String
  | arity expected actual =>
    "expected " ++ toString expected ++ " operands, got " ++ toString actual
  | operand index type reason =>
    "operand #" ++ toString index ++ " (" ++ type.text ++ "): " ++ reason.message

namespace Signature

def isDynamic (signature : Signature) : Bool := signature.operands.any (·.isDynamic)

def checkEach (index : Nat) : List OperandType → List Memref → Except SignatureMismatch Unit
  | operand :: operands, view :: views =>
    match operand.check view with
    | .error reason => .error (.operand index operand reason)
    | .ok () => checkEach (index + 1) operands views
  | _, _ => .ok ()

def check (signature : Signature) (views : List Memref) : Except SignatureMismatch Unit :=
  if views.length ≠ signature.operands.length then
    .error (.arity signature.operands.length views.length)
  else checkEach 0 signature.operands views

end Signature

end DeferredJit
