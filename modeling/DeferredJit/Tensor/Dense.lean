import DeferredJit.Failure
import DeferredJit.Tensor.ElementType
import DeferredJit.Tensor.Shape

/-! Dense row-major tensors over a buffer of exactly the bytes that their shape needs. -/

set_option autoImplicit false

namespace DeferredJit

structure Tensor where
  type : ElementType
  shape : List Int
  buffer : Bytes
  exact : (Shape.elements shape).map (· * type.size) = some buffer.length
  deriving DecidableEq

/-- Why a buffer is no tensor. -/
inductive TensorFault where
  | badShape (shape : List Int)
  | wrongLength (type : ElementType) (shape : List Int) (needed available : Nat)
  deriving DecidableEq, Repr

namespace TensorFault

def message : TensorFault → String
  | badShape shape => "bad shape " ++ Text.integers shape
  | wrongLength type shape needed available =>
    type.name ++ " tensor of shape " ++ Text.integers shape ++ " needs " ++ toString needed ++
      " bytes, got " ++ toString available

def failure (fault : TensorFault) : Failure := .invalidTensor fault.message

end TensorFault

namespace Tensor

/-- Unwinds when the element count is a word and the byte count is none. -/
def make (type : ElementType) (shape : List Int) (buffer : Bytes) :
    Except Panic (Except TensorFault Tensor) :=
  match counted : Shape.elements shape with
  | none => .ok (.error (.badShape shape))
  | some count =>
    match Word.mul? count type.size with
    | none => .error .overflow
    | some _ =>
      if matching : count * type.size = buffer.length then
        .ok (.ok ⟨type, shape, buffer, by simp [counted, matching]⟩)
      else .ok (.error (.wrongLength type shape (count * type.size) buffer.length))

def rank (tensor : Tensor) : Nat := tensor.shape.length

/-- Counted from the buffer. -/
def count (tensor : Tensor) : Nat := tensor.buffer.length / tensor.type.size

def describe (tensor : Tensor) : String :=
  Text.record "DenseHostTensor" [("dtype", tensor.type.describe),
    ("shape", Text.integers tensor.shape), ("bytes", toString tensor.buffer.length)]

theorem elements_shape (tensor : Tensor) : Shape.elements tensor.shape = some tensor.count := by
  obtain ⟨type, shape, buffer, exact⟩ := tensor
  obtain ⟨count, counted, length⟩ := Option.map_eq_some_iff.1 exact
  simp [Tensor.count, counted, ← length, Nat.mul_div_cancel _ type.size_pos]

/-- Pieces of `size` bytes; what is left over at the end is dropped. -/
def pieces (size : Nat) : (count : Nat) → Bytes → List Bytes
  | 0, _ => []
  | count + 1, bytes => bytes.take size :: pieces size count (bytes.drop size)

@[simp] theorem pieces_length (size count : Nat) (bytes : Bytes) :
    (pieces size count bytes).length = count := by
  induction count generalizing bytes with
  | zero => rfl
  | succ count ih => simp [pieces, ih]

def ofElements (type : ElementType) (shape : List Int) (values : List type.Carrier) :
    Except Panic (Except TensorFault Tensor) :=
  make type shape (values.flatMap type.encode)

/-- The elements, when asked for at the tensor's own type. -/
def elements? (tensor : Tensor) (type : ElementType) : Option (List type.Carrier) :=
  if type = tensor.type then
    some ((pieces type.size tensor.count tensor.buffer).map type.decode)
  else none

end Tensor

end DeferredJit
