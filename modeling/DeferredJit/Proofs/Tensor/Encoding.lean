import DeferredJit.Proofs.Tensor.Construction
import Mathlib.Algebra.Ring.Nat

/-! Elements of a tensor and its bytes determine each other, but for booleans, of which many bytes are
true and only one is written. -/

set_option autoImplicit false

namespace DeferredJit

/-! ## One element -/

namespace ElementType

theorem bits_lt (type : ElementType) (value : type.Carrier) : type.bits value < capacity type.size := by
  cases type with
  | i1 => cases value <;> decide
  | i8 => exact UInt8.toNat_lt (Int8.toUInt8 value)
  | i32 => exact UInt32.toNat_lt (Int32.toUInt32 value)
  | i64 => exact UInt64.toNat_lt (Int64.toUInt64 value)
  | f32 => exact UInt32.toNat_lt value
  | f64 => exact UInt64.toNat_lt value

theorem ofBits_bits (type : ElementType) (value : type.Carrier) : type.ofBits (type.bits value) = value := by
  cases type with
  | i1 => cases value <;> rfl
  | i8 => exact (congrArg UInt8.toInt8 UInt8.ofNat_toNat).trans (Int8.toInt8_toUInt8 value)
  | i32 => exact (congrArg UInt32.toInt32 UInt32.ofNat_toNat).trans (Int32.toInt32_toUInt32 value)
  | i64 => exact (congrArg UInt64.toInt64 UInt64.ofNat_toNat).trans (Int64.toInt64_toUInt64 value)
  | f32 => exact UInt32.ofNat_toNat
  | f64 => exact UInt64.ofNat_toNat

/-- Other than for booleans no bits are lost. -/
theorem bits_ofBits {type : ElementType} (wide : type ≠ .i1) {number : Nat} (fits : number < capacity type.size) :
    type.bits (type.ofBits number) = number := by
  cases type with
  | i1 => exact absurd rfl wide
  | i8 => exact (congrArg UInt8.toNat (UInt8.toUInt8_toInt8 _)).trans (UInt8.toNat_ofNat_of_lt' fits)
  | i32 => exact (congrArg UInt32.toNat (UInt32.toUInt32_toInt32 _)).trans (UInt32.toNat_ofNat_of_lt' fits)
  | i64 => exact (congrArg UInt64.toNat (UInt64.toUInt64_toInt64 _)).trans (UInt64.toNat_ofNat_of_lt' fits)
  | f32 => exact UInt32.toNat_ofNat_of_lt' fits
  | f64 => exact UInt64.toNat_ofNat_of_lt' fits

theorem decode_encode (type : ElementType) (value : type.Carrier) : type.decode (type.encode value) = value := by
  unfold decode encode
  rw [ofLittleEndian_littleEndian _ _ (type.bits_lt value), type.ofBits_bits]

theorem encode_decode {type : ElementType} (wide : type ≠ .i1) {bytes : Bytes} (length : bytes.length = type.size) :
    type.encode (type.decode bytes) = bytes := by
  have fits : ofLittleEndian bytes < capacity type.size := length ▸ ofLittleEndian_lt bytes
  unfold decode encode
  rw [bits_ofBits wide fits, ← length, littleEndian_ofLittleEndian]

/-- A boolean is written as it was read if its byte is zero or one. -/
theorem encode_decode_i1 (byte : UInt8) :
    encode .i1 (decode .i1 [byte]) = [byte] ↔ byte = 0 ∨ byte = 1 := by
  by_cases zero : byte = 0
  · subst zero
    decide
  · have nonzero : ofLittleEndian [byte] ≠ 0 := by
      intro same
      simp only [ofLittleEndian, Nat.mul_zero, Nat.add_zero] at same
      exact zero (UInt8.toNat_inj.1 same)
    have read : decode .i1 [byte] = true := bne_iff_ne.2 nonzero
    rw [read]
    change [(1 : UInt8)] = [byte] ↔ _
    simp [zero, eq_comm]

/-- Bytes that are written again as they were read. -/
theorem encode_decode_iff {type : ElementType} {bytes : Bytes} (length : bytes.length = type.size) :
    type.encode (type.decode bytes) = bytes ↔ (type = .i1 → ∀ byte ∈ bytes, byte = 0 ∨ byte = 1) := by
  by_cases boolean : type = .i1
  · subst boolean
    obtain ⟨byte, rfl⟩ := List.length_eq_one_iff.1 length
    simp [encode_decode_i1]
  · simp [encode_decode boolean length, boolean]

end ElementType

/-! ## All elements -/

namespace Tensor

variable {type : ElementType} {size count : Nat} {bytes : Bytes}

theorem pieces_encoded (type : ElementType) (values : List type.Carrier) :
    pieces type.size values.length (values.flatMap type.encode) = values.map type.encode := by
  induction values with
  | nil => rfl
  | cons value values ih =>
    have width := type.encode_length value
    rw [List.flatMap_cons, List.length_cons, pieces, List.take_left' width, List.drop_left' width, ih, List.map_cons]

theorem length_of_mem_pieces (length : bytes.length = count * size) :
    ∀ piece ∈ pieces size count bytes, piece.length = size := by
  induction count generalizing bytes with
  | zero => simp [pieces]
  | succ count ih =>
    rw [Nat.succ_mul] at length
    rw [pieces, List.forall_mem_cons]
    refine ⟨?_, ih ?_⟩
    · rw [List.length_take]
      omega
    · rw [List.length_drop]
      omega

theorem flatten_pieces (length : bytes.length = count * size) : (pieces size count bytes).flatten = bytes := by
  induction count generalizing bytes with
  | zero =>
    rw [Nat.zero_mul] at length
    rw [List.length_eq_zero_iff.1 length]
    rfl
  | succ count ih =>
    rw [Nat.succ_mul] at length
    have rest : (bytes.drop size).length = count * size := by
      rw [List.length_drop]
      omega
    rw [pieces, List.flatten_cons, ih rest, List.take_append_drop]

/-- Pieces that keep their lengths make up the same whole only if they stay the same. -/
theorem flatMap_eq_flatten_iff {change : Bytes → Bytes} {parts : List Bytes}
    (lengths : ∀ part ∈ parts, (change part).length = part.length) :
    parts.flatMap change = parts.flatten ↔ ∀ part ∈ parts, change part = part := by
  induction parts with
  | nil => simp
  | cons part parts ih =>
    rw [List.forall_mem_cons] at lengths
    rw [List.flatMap_cons, List.flatten_cons, List.forall_mem_cons, ← ih lengths.2]
    constructor
    · exact fun same => List.append_inj same lengths.1
    · rintro ⟨first, rest⟩
      rw [first, rest]

/-- The elements of a tensor as bytes again. -/
theorem recoded_eq_iff (tensor : Tensor) :
    ((pieces tensor.type.size tensor.count tensor.buffer).map tensor.type.decode).flatMap tensor.type.encode =
        tensor.buffer ↔ (tensor.type = .i1 → ∀ byte ∈ tensor.buffer, byte = 0 ∨ byte = 1) := by
  have widths := length_of_mem_pieces tensor.length_buffer
  have whole := flatten_pieces tensor.length_buffer
  -- From here on it matters only how long the pieces are, and what they make up.
  generalize pieces tensor.type.size tensor.count tensor.buffer = parts at widths whole
  rw [List.flatMap_map, ← whole, flatMap_eq_flatten_iff fun part member => ?_]
  · constructor
    · intro same boolean byte member
      obtain ⟨part, among, inside⟩ := List.mem_flatten.1 member
      exact (ElementType.encode_decode_iff (widths part among)).1 (same part among) boolean byte inside
    · intro clean part among
      exact (ElementType.encode_decode_iff (widths part among)).2 fun boolean byte inside =>
        clean boolean byte (List.mem_flatten.2 ⟨part, among, inside⟩)
  · rw [ElementType.encode_length, widths part member]

theorem elements?_self (tensor : Tensor) : tensor.elements? tensor.type =
    some ((pieces tensor.type.size tensor.count tensor.buffer).map tensor.type.decode) := if_pos rfl

/-- Encoded elements make a tensor, which has these elements. -/
theorem ofElements_holds {shape : List Int} {values : List type.Carrier}
    (counted : Shape.elements shape = some values.length) (short : values.length * type.size < Word.limit) :
    ∃ tensor, ofElements type shape values = .ok (.ok tensor) ∧ tensor.type = type ∧
      tensor.count = values.length ∧ tensor.elements? type = some values := by
  have length := length_encoded type values
  obtain ⟨tensor, made⟩ := exists_make counted length (length ▸ short)
  obtain ⟨sameType, sameShape, bytes, -⟩ := of_make made
  have sameCount : tensor.count = values.length := by
    have elements := tensor.elements_shape
    rw [sameShape, counted] at elements
    exact (Option.some.inj elements).symm
  refine ⟨tensor, made, sameType, sameCount, ?_⟩
  subst sameType
  have decoded : (values.map tensor.type.encode).map tensor.type.decode = values := by
    rw [List.map_map]
    exact (List.map_congr_left fun value _ => tensor.type.decode_encode value).trans (List.map_id values)
  rw [elements?_self, sameCount, bytes, pieces_encoded, decoded]

/-- The elements of a tensor make a tensor of the same shape, and the same tensor if its bytes are written again as
they were read. -/
theorem ofElements_self (tensor : Tensor) (fits : tensor.buffer.length < Word.limit) :
    ∃ values again, tensor.elements? tensor.type = some values ∧ values.length = tensor.count ∧
      ofElements tensor.type tensor.shape values = .ok (.ok again) ∧
      (again = tensor ↔ (tensor.type = .i1 → ∀ byte ∈ tensor.buffer, byte = 0 ∨ byte = 1)) := by
  let values := (pieces tensor.type.size tensor.count tensor.buffer).map tensor.type.decode
  have count : values.length = tensor.count := by
    rw [List.length_map, pieces_length]
  have length : (values.flatMap tensor.type.encode).length = tensor.count * tensor.type.size := by
    rw [length_encoded, count]
  obtain ⟨again, made⟩ := exists_make tensor.elements_shape length (by rwa [length, ← tensor.length_buffer])
  refine ⟨values, again, tensor.elements?_self, count, made, ?_⟩
  -- Type and shape are the same in any case, so the two tensors differ in their bytes or not at all.
  rw [← tensor.recoded_eq_iff]
  constructor
  · rintro rfl
    exact (of_make made).2.2.1.symm
  · intro same
    rw [show values.flatMap tensor.type.encode = tensor.buffer from same, make_self tensor fits] at made
    cases made
    rfl

/-- For every element type: elements that are as many as the shape asks for make a tensor, which has just these
elements and at no other type any; and the elements of a tensor make the same tensor, but for a boolean one in which
some byte is neither zero nor one. -/
theorem elements_roundtrip (type : ElementType) :
    (∀ (shape : List Int) (values : List type.Carrier), Shape.elements shape = some values.length →
      values.length * type.size < 2 ^ 63 → ∃ tensor, ofElements type shape values = .ok (.ok tensor) ∧
        tensor.elements? type = some values ∧ tensor.count = values.length ∧
        ∀ other, other ≠ type → tensor.elements? other = none) ∧
    ∀ (shape : List Int) (buffer : Bytes) (tensor : Tensor), make type shape buffer = .ok (.ok tensor) →
      ∃ values again, tensor.elements? type = some values ∧ values.length = tensor.count ∧
        Shape.elements shape = some tensor.count ∧ ofElements type tensor.shape values = .ok (.ok again) ∧
        (again = tensor ↔ (type = .i1 → ∀ byte ∈ buffer, byte = 0 ∨ byte = 1)) := by
  constructor
  · intro shape values counted short
    -- A length that can be allocated is a word, so that it is computed without overflow.
    obtain ⟨tensor, made, rfl, count, held⟩ := ofElements_holds counted (Nat.lt_trans short (by decide))
    exact ⟨tensor, made, held, count, fun other differs => if_neg differs⟩
  · intro shape buffer tensor made
    obtain ⟨rfl, rfl, rfl, fits⟩ := of_make made
    obtain ⟨values, again, held, count, remade, same_iff⟩ := tensor.ofElements_self fits
    exact ⟨values, again, held, count, tensor.elements_shape, remade, same_iff⟩

/-- A minus one, and truths of which one is written otherwise than as the byte one. -/
theorem elements_roundtrip_truths :
    (∃ tensor, ofElements .i32 [] [(-1 : Int32)] = .ok (.ok tensor) ∧
      tensor.elements? .i32 = some [(-1 : Int32)] ∧ tensor.elements? .f32 = none) ∧
    ∃ tensor values again, make .i1 [2] [1, 7] = .ok (.ok tensor) ∧ tensor.elements? .i1 = some values ∧
      ofElements .i1 [2] values = .ok (.ok again) ∧ again ≠ tensor := by
  constructor
  · obtain ⟨tensor, made, held, -, others⟩ :=
      (elements_roundtrip .i32).1 [] [(-1 : Int32)] rfl (by decide)
    exact ⟨tensor, made, held, others .f32 (by decide)⟩
  · have made : make .i1 [2] [1, 7] = .ok (.ok ⟨.i1, [2], [1, 7], rfl⟩) := by rfl
    obtain ⟨values, again, held, -, -, remade, same_iff⟩ := (elements_roundtrip .i1).2 _ _ _ made
    exact ⟨_, values, again, made, held, remade, fun same => absurd (same_iff.1 same rfl) (by decide)⟩

end Tensor

end DeferredJit
