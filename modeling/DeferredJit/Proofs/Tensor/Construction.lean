import DeferredJit.Tensor.Dense

/-! Which buffers are tensors, what the tensor is then, and what a construction comes to otherwise. -/

set_option autoImplicit false

namespace DeferredJit.Tensor

variable {type : ElementType} {shape : List Int} {buffer : Bytes} {tensor : Tensor}

/-- A tensor has as many bytes as its elements take. -/
theorem length_buffer (tensor : Tensor) : tensor.buffer.length = tensor.count * tensor.type.size := by
  have exact := tensor.exact
  rw [tensor.elements_shape] at exact
  exact (Option.some.inj exact).symm

/-- What a construction comes to, in the order of its checks. -/
inductive Ends (type : ElementType) (shape : List Int) (buffer : Bytes) :
    Except Panic (Except TensorFault Tensor) → Prop
  | uncounted (uncounted : Shape.elements shape = none) :
      Ends type shape buffer (.ok (.error (.badShape shape)))
  | unmeasured {count : Nat} (counted : Shape.elements shape = some count)
      (beyond : Word.limit ≤ count * type.size) : Ends type shape buffer (.error .overflow)
  | mismatched {count : Nat} (counted : Shape.elements shape = some count)
      (measured : count * type.size < Word.limit) (mismatch : buffer.length ≠ count * type.size) :
      Ends type shape buffer (.ok (.error (.wrongLength type shape (count * type.size) buffer.length)))
  | made {count : Nat} {tensor : Tensor} (counted : Shape.elements shape = some count)
      (measured : count * type.size < Word.limit) (matching : buffer.length = count * type.size)
      (parts : tensor.type = type ∧ tensor.shape = shape ∧ tensor.buffer = buffer) :
      Ends type shape buffer (.ok (.ok tensor))

theorem ends_make (type : ElementType) (shape : List Int) (buffer : Bytes) :
    Ends type shape buffer (make type shape buffer) := by
  unfold make
  split
  · rename_i uncounted
    exact .uncounted uncounted
  · rename_i count counted
    unfold Word.mul?
    by_cases measured : count * type.size < Word.limit
    · rw [if_pos measured]
      dsimp only
      split
      · rename_i matching
        exact .made counted measured matching.symm ⟨rfl, rfl, rfl⟩
      · rename_i mismatch
        exact .mismatched counted measured (Ne.symm mismatch)
    · rw [if_neg measured]
      exact .unmeasured counted (Nat.le_of_not_lt measured)

/-- What is made has the parts that it is made of. Its length was compared with a product of words, so it is one. -/
theorem of_make (made : make type shape buffer = .ok (.ok tensor)) :
    tensor.type = type ∧ tensor.shape = shape ∧ tensor.buffer = buffer ∧ buffer.length < Word.limit := by
  have ends := ends_make type shape buffer
  rw [made] at ends
  cases ends with
  | made _ measured matching parts => exact ⟨parts.1, parts.2.1, parts.2.2, matching ▸ measured⟩

/-- A buffer of the right length makes a tensor. -/
theorem exists_make {count : Nat} (counted : Shape.elements shape = some count)
    (length : buffer.length = count * type.size) (fits : buffer.length < Word.limit) :
    ∃ tensor, make type shape buffer = .ok (.ok tensor) := by
  generalize result : make type shape buffer = outcome
  have ends : Ends type shape buffer outcome := result ▸ ends_make type shape buffer
  cases ends with
  | made => exact ⟨_, rfl⟩
  | uncounted uncounted => cases uncounted.symm.trans counted
  | unmeasured found beyond =>
    cases found.symm.trans counted
    exact absurd (length ▸ fits) (Nat.not_lt.2 beyond)
  | mismatched found _ mismatch =>
    cases found.symm.trans counted
    exact absurd length mismatch

/-- A tensor that a word can measure is made of its own parts. -/
theorem make_self (tensor : Tensor) (fits : tensor.buffer.length < Word.limit) :
    make tensor.type tensor.shape tensor.buffer = .ok (.ok tensor) := by
  obtain ⟨same, made⟩ := exists_make tensor.elements_shape tensor.length_buffer fits
  obtain ⟨sameType, sameShape, sameBuffer, -⟩ := of_make made
  have equal : same = tensor := by
    cases same
    cases tensor
    cases sameType
    cases sameShape
    cases sameBuffer
    rfl
  rw [made, equal]

/-! ## All shapes and buffers -/

/-- The buffer is as long as the elements of the shape take bytes, whatever number that is. -/
def Matching (type : ElementType) (shape : List Int) (buffer : Bytes) : Prop :=
  ∃ count, Shape.elements shape = some count ∧ buffer.length = count * type.size

/-- The number of elements is a word and the number of their bytes is none. -/
def Unmeasured (type : ElementType) (shape : List Int) : Prop :=
  ∃ count, Shape.elements shape = some count ∧ Word.limit ≤ count * type.size

theorem not_unmeasured {count : Nat} (counted : Shape.elements shape = some count)
    (measured : count * type.size < Word.limit) : ¬ Unmeasured type shape := by
  rintro ⟨other, found, beyond⟩
  cases found.symm.trans counted
  omega

theorem length_encoded (type : ElementType) (values : List type.Carrier) :
    (values.flatMap type.encode).length = values.length * type.size := by
  induction values with
  | nil => simp
  | cons value values ih =>
    rw [List.flatMap_cons, List.length_append, type.encode_length, ih, List.length_cons, Nat.succ_mul, Nat.add_comm]

theorem matching_encoded {values : List type.Carrier} :
    Matching type shape (values.flatMap type.encode) ↔ Shape.elements shape = some values.length := by
  constructor
  · rintro ⟨count, counted, matching⟩
    rw [length_encoded] at matching
    rw [counted, Nat.eq_of_mul_eq_mul_right type.size_pos matching]
  · intro counted
    exact ⟨values.length, counted, length_encoded type values⟩

/-- Each of the three ends, by what the shape and the buffer are. -/
theorem make_ends_iff (type : ElementType) (shape : List Int) (buffer : Bytes) :
    (make type shape buffer = .error .overflow ↔ Unmeasured type shape) ∧
    ((∃ tensor, make type shape buffer = .ok (.ok tensor) ∧
        tensor.type = type ∧ tensor.shape = shape ∧ tensor.buffer = buffer) ↔
      Matching type shape buffer ∧ ¬ Unmeasured type shape) ∧
    ((∃ fault, make type shape buffer = .ok (.error fault) ∧
        fault.failure = .invalidTensor fault.message) ↔
      ¬ Matching type shape buffer ∧ ¬ Unmeasured type shape) := by
  generalize result : make type shape buffer = outcome
  have ends : Ends type shape buffer outcome := result ▸ ends_make type shape buffer
  cases ends with
  | uncounted uncounted => simp [Matching, Unmeasured, uncounted, TensorFault.failure]
  | unmeasured counted beyond =>
    have unmeasured : Unmeasured type shape := ⟨_, counted, beyond⟩
    simp [unmeasured]
  | mismatched counted measured mismatch =>
    have measurable := not_unmeasured counted measured
    have differs : ¬ Matching type shape buffer := by simpa [Matching, counted] using mismatch
    simp [measurable, differs, TensorFault.failure]
  | made counted measured matching parts =>
    have measurable := not_unmeasured counted measured
    have same : Matching type shape buffer := ⟨_, counted, matching⟩
    simp [measurable, same, parts]

/-- Buffers and lists of values are validated by their length, but for the shapes whose number of
elements is a word and whose number of bytes is none: those unwind, whatever is to fill them. -/
theorem construction_unwinds_iff (type : ElementType) (shape : List Int) :
    (∀ buffer,
      (make type shape buffer = .error .overflow ↔ Unmeasured type shape) ∧
      ((∃ tensor, make type shape buffer = .ok (.ok tensor) ∧
          tensor.type = type ∧ tensor.shape = shape ∧ tensor.buffer = buffer) ↔
        Matching type shape buffer ∧ ¬ Unmeasured type shape) ∧
      ((∃ fault, make type shape buffer = .ok (.error fault) ∧
          fault.failure = .invalidTensor fault.message) ↔
        ¬ Matching type shape buffer ∧ ¬ Unmeasured type shape)) ∧
    ∀ values : List type.Carrier,
      (ofElements type shape values = .error .overflow ↔ Unmeasured type shape) ∧
      ((∃ tensor, ofElements type shape values = .ok (.ok tensor)) ↔
        Shape.elements shape = some values.length ∧ ¬ Unmeasured type shape) := by
  constructor
  · exact make_ends_iff type shape
  · intro values
    obtain ⟨unwinds, made, -⟩ := make_ends_iff type shape (values.flatMap type.encode)
    rw [matching_encoded] at made
    constructor
    · exact unwinds
    · rw [← made]
      constructor
      · rintro ⟨tensor, built⟩
        obtain ⟨sameType, sameShape, sameBuffer, -⟩ := of_make built
        exact ⟨tensor, built, sameType, sameShape, sameBuffer⟩
      · rintro ⟨tensor, built, -⟩
        exact ⟨tensor, built⟩

/-- Eight bytes for each of so many elements are one more than a word counts. -/
example : make .i64 [2305843009213693952] [] = .error .overflow := by rfl

end DeferredJit.Tensor
