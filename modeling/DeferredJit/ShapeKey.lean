import DeferredJit.Signature

/-! The operand shapes that identify one specialized executable. -/

set_option autoImplicit false

namespace DeferredJit

structure OperandShape where
  type : ElementType
  sizes : List Int
  deriving DecidableEq, Repr

abbrev ShapeKey := List OperandShape

namespace OperandShape

def ofMemref (view : Memref) : OperandShape := ⟨view.type, view.sizes⟩

/-- The extents and the element type, joined by `x`. Without extents it is the element type alone. -/
def text (shape : OperandShape) : String :=
  String.intercalate "x" (shape.sizes.map toString ++ [shape.type.name])

end OperandShape

namespace ShapeKey

/-- Buffers, offsets and strides play no part. -/
def ofMemrefs (views : List Memref) : ShapeKey := views.map .ofMemref

/-- Operand types that accept these shapes only. -/
def operandTypes (key : ShapeKey) : List OperandType :=
  key.map fun shape => .ofSizes shape.type shape.sizes

def text (key : ShapeKey) : String :=
  "<" ++ String.intercalate "," (key.map OperandShape.text) ++ ">"

/-- The text and a fingerprint of the shapes, for logs. Executables are looked up by the shapes
themselves, so fingerprints may be the same. -/
def name (fingerprint : ShapeKey → UInt64) (key : ShapeKey) : String :=
  key.text ++ "_" ++ Text.hexNumber (fingerprint key).toNat

end ShapeKey

end DeferredJit
