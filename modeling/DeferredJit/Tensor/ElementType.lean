import DeferredJit.Text.Bytes

/-! Element types of tensors and the bytes of one element. -/

set_option autoImplicit false

namespace DeferredJit

inductive ElementType where
  | i1
  | i8
  | i32
  | i64
  | f32
  | f64
  deriving DecidableEq, Repr

namespace ElementType

/-- Bytes per element. -/
def size : ElementType → Nat
  | i1 | i8 => 1
  | i32 | f32 => 4
  | i64 | f64 => 8

theorem size_pos (type : ElementType) : 0 < type.size := by cases type <;> decide

def name : ElementType → String
  | i1 => "i1"
  | i8 => "i8"
  | i32 => "i32"
  | i64 => "i64"
  | f32 => "f32"
  | f64 => "f64"

def describe : ElementType → String
  | i1 => "I1"
  | i8 => "I8"
  | i32 => "I32"
  | i64 => "I64"
  | f32 => "F32"
  | f64 => "F64"

def all : List ElementType := [i1, i8, i32, i64, f32, f64]

theorem mem_all (type : ElementType) : type ∈ all := by cases type <;> decide

def ofName? (text : String) : Option ElementType := all.find? (·.name == text)

theorem ofName?_name (type : ElementType) : ofName? type.name = some type := by
  cases type <;> decide

/-- Elements as a host holds them; a float is its bit pattern. -/
def Carrier : ElementType → Type
  | i1 => Bool
  | i8 => Int8
  | i32 => Int32
  | i64 => Int64
  | f32 => UInt32
  | f64 => UInt64

/-- The bits of an element as a number that fits into its bytes. -/
def bits : (type : ElementType) → type.Carrier → Nat
  | i1, value => Bool.toNat value
  | i8, value => (Int8.toUInt8 value).toNat
  | i32, value => (Int32.toUInt32 value).toNat
  | i64, value => (Int64.toUInt64 value).toNat
  | f32, value => UInt32.toNat value
  | f64, value => UInt64.toNat value

/-- Of a boolean, any bits other than zero count as true. -/
def ofBits : (type : ElementType) → Nat → type.Carrier
  | i1, bits => (bits != 0 : Bool)
  | i8, bits => (UInt8.ofNat bits).toInt8
  | i32, bits => (UInt32.ofNat bits).toInt32
  | i64, bits => (UInt64.ofNat bits).toInt64
  | f32, bits => UInt32.ofNat bits
  | f64, bits => UInt64.ofNat bits

def encode (type : ElementType) (value : type.Carrier) : Bytes :=
  littleEndian type.size (type.bits value)

def decode (type : ElementType) (bytes : Bytes) : type.Carrier :=
  type.ofBits (ofLittleEndian bytes)

@[simp] theorem encode_length (type : ElementType) (value : type.Carrier) :
    (type.encode value).length = type.size := littleEndian_length ..

end ElementType

end DeferredJit
