import DeferredJit.Memref.Layout
import DeferredJit.Tensor.Dense

/-! Strided views of a shared buffer, with offset and strides counted in elements, and the dense
tensors they stand for. -/

set_option autoImplicit false

namespace DeferredJit

structure Memref where
  type : ElementType
  data : Bytes
  offset : Nat
  sizes : List Int
  strides : List Int
  sameRank : sizes.length = strides.length
  counted : (Shape.elements sizes).isSome = true
  deriving DecidableEq

inductive MemrefFault where
  | rankMismatch (sizes strides : Nat)
  | badSizes (sizes : List Int)
  | notRowMajor (strides sizes : List Int)
  | outOfRange (offset : Nat) (sizes : List Int)
  | outOfBuffer (first last available : Nat)
  | tensor (fault : TensorFault)
  deriving DecidableEq, Repr

namespace MemrefFault

def message : MemrefFault → String
  | rankMismatch sizes strides =>
    "memref rank mismatch: " ++ toString sizes ++ " sizes, " ++ toString strides ++ " strides"
  | badSizes sizes => "bad memref sizes " ++ Text.integers sizes
  | notRowMajor strides sizes =>
    "strides " ++ Text.integers strides ++ " are not row-major for sizes " ++ Text.integers sizes
  | outOfRange offset sizes =>
    "memref view at offset " ++ toString offset ++ " with sizes " ++ Text.integers sizes ++
      " overflows usize"
  | outOfBuffer first last available =>
    "memref view [" ++ toString first ++ ", " ++ toString last ++ ") exceeds a " ++
      toString available ++ " byte buffer"
  | tensor fault => fault.message

def failure (fault : MemrefFault) : Failure := .invalidTensor fault.message

end MemrefFault

namespace Memref

def make (type : ElementType) (data : Bytes) (offset : Nat) (sizes strides : List Int) :
    Except MemrefFault Memref :=
  if sameRank : sizes.length = strides.length then
    if counted : (Shape.elements sizes).isSome = true then
      .ok ⟨type, data, offset, sizes, strides, sameRank, counted⟩
    else .error (.badSizes sizes)
  else .error (.rankMismatch sizes.length strides.length)

/-- The whole of a tensor, in row-major order. -/
def ofTensor (tensor : Tensor) : Except Panic Memref :=
  match computed : Layout.rowMajor tensor.shape with
  | .error panic => .error panic
  | .ok strides =>
    .ok ⟨tensor.type, tensor.buffer, 0, tensor.shape, strides, (Layout.rowMajor_length computed).symm,
      by simp [tensor.elements_shape]⟩

def rank (view : Memref) : Nat := view.sizes.length

def count (view : Memref) : Nat := (Shape.elements view.sizes).get view.counted

/-- With one element or none the strides do not matter and are not looked at. -/
def isContiguous (view : Memref) : Except Panic Bool :=
  if view.count ≤ 1 then .ok true
  else do
    let strides ← Layout.rowMajor view.sizes
    return view.strides == strides

/-- First byte of the view and the byte after its last, when both are words. -/
def extent? (view : Memref) : Option (Nat × Nat) := do
  let first ← Word.mul? view.offset view.type.size
  let length ← Word.mul? view.count view.type.size
  let last ← Word.add? first length
  return (first, last)

def toTensor (view : Memref) : Except Panic (Except MemrefFault Tensor) := do
  if ← view.isContiguous then
    match view.extent? with
    | none => return .error (.outOfRange view.offset view.sizes)
    | some (first, last) =>
      if view.data.length < last then
        return .error (.outOfBuffer first last view.data.length)
      else
        let made ← Tensor.make view.type view.sizes ((view.data.take last).drop first)
        return made.mapError .tensor
  else return .error (.notRowMajor view.strides view.sizes)

def describe (view : Memref) : String :=
  Text.abridgedRecord "MemrefDesc" [("dtype", view.type.describe), ("offset", toString view.offset),
    ("sizes", Text.integers view.sizes), ("strides", Text.integers view.strides)]

end Memref

end DeferredJit
