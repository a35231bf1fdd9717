import DeferredJit.Proofs.Memref.Contents

/-! Which views are made dense: the checks on words come to one comparison of numbers. A view of a whole
tensor always is, and gives back the tensor. -/

set_option autoImplicit false

namespace DeferredJit.Memref

variable {view : Memref} {tensor : Tensor}

/-! ## Bounds -/

theorem length_stretch (inside : (view.offset + view.count) * view.type.size ≤ view.data.length) :
    view.stretch.length = view.count * view.type.size := by
  rw [stretch, List.length_drop, List.length_take, Nat.min_eq_left inside, Nat.add_mul]
  omega

/-- Inside of its buffer a view is made dense, and the bytes that are taken make a tensor. -/
theorem toTensor_of_inside (contiguous : view.isContiguous = .ok true)
    (inside : (view.offset + view.count) * view.type.size ≤ view.data.length)
    (fits : (view.offset + view.count) * view.type.size < Word.limit) :
    ∃ tensor, Tensor.make view.type view.sizes view.stretch = .ok (.ok tensor) ∧
      view.toTensor = .ok (.ok tensor) := by
  have length := length_stretch inside
  have short : view.stretch.length < Word.limit := by
    have whole := Nat.add_mul view.offset view.count view.type.size
    omega
  obtain ⟨tensor, made⟩ := Tensor.exists_make (Option.some_get view.counted).symm length short
  refine ⟨tensor, made, ?_⟩
  unfold stretch at made
  have enough := Nat.not_lt.2 inside
  simp only [toTensor, contiguous, extent?_eq, fits, enough, made, if_true, if_false, bind, Except.bind, pure,
    Except.pure, Except.mapError]

/-- A view that is not contiguous, or reaches beyond its buffer, is refused before any bytes are taken. -/
theorem toTensor_of_amiss {contiguous : Bool} (settled : view.isContiguous = .ok contiguous)
    (amiss : ¬ (contiguous = true ∧ (view.offset + view.count) * view.type.size ≤ view.data.length)) :
    ∃ fault, view.toTensor = .ok (.error fault) ∧ ∀ cause, fault ≠ .tensor cause := by
  cases contiguous with
  | false =>
    refine ⟨.notRowMajor view.strides view.sizes, ?_, fun _ same => by cases same⟩
    simp only [toTensor, settled, bind, Except.bind, pure, Except.pure, Bool.false_eq_true, if_false]
  | true =>
    have outside : view.data.length < (view.offset + view.count) * view.type.size :=
      Nat.not_le.1 fun inside => amiss ⟨rfl, inside⟩
    -- The end of the view may be no word, and then it is not compared with the buffer.
    by_cases fits : (view.offset + view.count) * view.type.size < Word.limit
    · refine ⟨.outOfBuffer (view.offset * view.type.size) ((view.offset + view.count) * view.type.size)
        view.data.length, ?_, fun _ same => by cases same⟩
      simp only [toTensor, settled, extent?_eq, fits, outside, if_true, bind, Except.bind, pure, Except.pure]
    · refine ⟨.outOfRange view.offset view.sizes, ?_, fun _ same => by cases same⟩
      simp only [toTensor, settled, extent?_eq, fits, if_true, if_false, bind, Except.bind, pure, Except.pure]

/-- A view of a buffer whose length is a word can be made dense exactly if it is contiguous and ends inside of the
buffer, with its end as a number, which may be no word. The tensor has the bytes of the view, which always make one;
any other view is refused. No bounds are computed but the true ones. -/
theorem toTensor_bounds {type : ElementType} {data : Bytes} {offset : Nat} {sizes strides : List Int}
    {contiguous : Bool} (accepted : make type data offset sizes strides = .ok view)
    (addressable : data.length < Word.limit) (settled : view.isContiguous = .ok contiguous) :
    ∃ count, Shape.elements sizes = some count ∧
      ((∃ tensor, view.toTensor = .ok (.ok tensor)) ↔
        contiguous = true ∧ (offset + count) * type.size ≤ data.length) ∧
      (∀ tensor, view.toTensor = .ok (.ok tensor) → tensor.type = type ∧ tensor.shape = sizes ∧
        tensor.buffer = (data.take ((offset + count) * type.size)).drop (offset * type.size) ∧
        Tensor.make type sizes tensor.buffer = .ok (.ok tensor)) ∧
      ((¬ ∃ tensor, view.toTensor = .ok (.ok tensor)) → ∃ fault, view.toTensor = .ok (.error fault) ∧
        (∀ cause, fault ≠ .tensor cause) ∧ ∃ message, fault.failure = .invalidTensor message) ∧
      ∀ first last, view.extent? = some (first, last) →
        first = offset * type.size ∧ last = (offset + count) * type.size := by
  obtain ⟨rfl, rfl, rfl, rfl, rfl⟩ := make_eq_ok accepted
  have made_iff : (∃ tensor, view.toTensor = .ok (.ok tensor)) ↔
      contiguous = true ∧ (view.offset + view.count) * view.type.size ≤ view.data.length := by
    constructor
    · rintro ⟨tensor, materialized⟩
      obtain ⟨rowMajor, inside, -⟩ := toTensor_eq_ok materialized
      cases settled.symm.trans rowMajor
      exact ⟨rfl, inside⟩
    · rintro ⟨rfl, inside⟩
      -- The end of the view is not beyond the buffer, whose length is a word; so the end is one, too.
      obtain ⟨tensor, -, materialized⟩ :=
        toTensor_of_inside settled inside (Nat.lt_of_le_of_lt inside addressable)
      exact ⟨tensor, materialized⟩
  refine ⟨view.count, (Option.some_get view.counted).symm, made_iff, ?_, ?_, ?_⟩
  · intro tensor materialized
    obtain ⟨rowMajor, inside, sameType, sameShape, bytes⟩ := toTensor_eq_ok materialized
    obtain ⟨same, made, again⟩ := toTensor_of_inside rowMajor inside (Nat.lt_of_le_of_lt inside addressable)
    -- There is but one result, so the tensor is the one that is made of the stretch.
    cases materialized.symm.trans again
    exact ⟨sameType, sameShape, bytes, bytes ▸ made⟩
  · intro refused
    obtain ⟨fault, same, own⟩ := toTensor_of_amiss settled (mt made_iff.2 refused)
    exact ⟨fault, same, own, fault.message, rfl⟩
  · intro first last computed
    cases extent?_eq_some computed
    exact ⟨rfl, rfl⟩

/-- At an offset whose number of bytes is one more than the greatest word, which would wrap to the start of
the buffer. -/
theorem toTensor_bounds_wrapping : ∃ view,
    make .i32 [1, 0, 0, 0, 2, 0, 0, 0] 4611686018427387904 [2] [1] = .ok view ∧
      ([1, 0, 0, 0, 2, 0, 0, 0] : Bytes).length < Word.limit ∧ view.isContiguous = .ok true ∧
      ∃ fault, view.toTensor = .ok (.error fault) := by
  have accepted : make .i32 [1, 0, 0, 0, 2, 0, 0, 0] 4611686018427387904 [2] [1] =
      .ok ⟨.i32, [1, 0, 0, 0, 2, 0, 0, 0], 4611686018427387904, [2], [1], rfl, rfl⟩ := by rfl
  have addressable : ([1, 0, 0, 0, 2, 0, 0, 0] : Bytes).length < Word.limit := by decide
  have contiguous : isContiguous ⟨.i32, [1, 0, 0, 0, 2, 0, 0, 0], 4611686018427387904, [2], [1], rfl, rfl⟩ =
      .ok true := by rfl
  obtain ⟨count, counted, made, -, refused, -⟩ := toTensor_bounds accepted addressable contiguous
  cases counted
  have outside : ¬ (4611686018427387904 + 2) * ElementType.i32.size ≤ ([1, 0, 0, 0, 2, 0, 0, 0] : Bytes).length := by
    decide
  obtain ⟨fault, same, -⟩ := refused fun materialized => outside (made.1 materialized).2
  exact ⟨_, accepted, addressable, contiguous, fault, same⟩

/-! ## Views whose strides are no words -/

/-- Strides matter for it, and those that its sizes ask for are no words. -/
def Stumbles (view : Memref) : Prop := 1 < view.count ∧ ¬ Layout.Representable view.sizes

theorem isContiguous_eq (view : Memref) : view.isContiguous =
    if view.count ≤ 1 then .ok true
    else if Layout.Representable view.sizes then .ok (view.strides == Layout.spans view.sizes)
    else .error .overflow := by
  unfold isContiguous
  rw [Layout.rowMajor_eq]
  split
  · rfl
  · split <;> rfl

theorem isContiguous_unwinds_iff {cause : Panic} :
    view.isContiguous = .error cause ↔ cause = .overflow ∧ view.Stumbles := by
  rw [isContiguous_eq, Stumbles, ← Nat.not_le]
  split
  · simp [*]
  · split <;> simp [*, eq_comm]

/-- A view is made dense or refused, unless its strides have to be compared with some that are no words. -/
theorem toTensor_unwinds_iff {cause : Panic} :
    view.toTensor = .error cause ↔ cause = .overflow ∧ view.Stumbles := by
  rw [← isContiguous_unwinds_iff]
  cases settled : view.isContiguous with
  | error panic => simp [toTensor, settled, bind, Except.bind]
  | ok contiguous =>
    -- Behind the comparison of the strides nothing unwinds.
    suffices answered : ∃ made, view.toTensor = .ok made by
      obtain ⟨made, same⟩ := answered
      simp [same]
    by_cases inside : contiguous = true ∧ (view.offset + view.count) * view.type.size ≤ view.data.length
    · obtain ⟨rfl, inside⟩ := inside
      by_cases fits : (view.offset + view.count) * view.type.size < Word.limit
      · obtain ⟨tensor, -, made⟩ := toTensor_of_inside settled inside fits
        exact ⟨_, made⟩
      · refine ⟨.error (.outOfRange view.offset view.sizes), ?_⟩
        simp only [toTensor, settled, extent?_eq, fits, if_true, if_false, bind, Except.bind, pure, Except.pure]
    · obtain ⟨fault, refused, -⟩ := toTensor_of_amiss settled inside
      exact ⟨_, refused⟩

/-! ## Views of whole tensors -/

/-- The view of a whole tensor has its parts, and the strides that its shape asks for. -/
theorem ofTensor_of_rowMajor {strides : List Int} (laid : Layout.rowMajor tensor.shape = .ok strides) :
    ∃ view, ofTensor tensor = .ok view ∧ view.type = tensor.type ∧ view.data = tensor.buffer ∧
      view.offset = 0 ∧ view.sizes = tensor.shape ∧ view.strides = strides := by
  unfold ofTensor
  split
  · rename_i panic unwound
    cases unwound.symm.trans laid
  · rename_i computed
    cases computed.symm.trans laid
    exact ⟨_, rfl, rfl, rfl, rfl, rfl, rfl⟩

/-- A view is accepted again when it is made of its own parts. -/
theorem make_self (view : Memref) :
    make view.type view.data view.offset view.sizes view.strides = .ok view := by
  rw [make, dif_pos view.sameRank, dif_pos view.counted]

theorem isContiguous_of_rowMajor (laid : Layout.rowMajor view.sizes = .ok view.strides) :
    view.isContiguous = .ok true := by
  unfold isContiguous
  split
  · rfl
  · simp [laid, bind, Except.bind, pure, Except.pure]

/-- A tensor whose strides are words has a view, which is contiguous, has as many elements, is accepted when it is
made of its own parts, and is made dense as the same tensor. -/
theorem ofTensor_roundtrip {type : ElementType} {shape strides : List Int} {buffer : Bytes}
    (made : Tensor.make type shape buffer = .ok (.ok tensor))
    (laid : Layout.rowMajor shape = .ok strides) :
    ∃ view, ofTensor tensor = .ok view ∧ view.isContiguous = .ok true ∧ view.count = tensor.count ∧
      make view.type view.data view.offset view.sizes view.strides = .ok view ∧
      view.toTensor = .ok (.ok tensor) := by
  obtain ⟨rfl, rfl, rfl, addressable⟩ := Tensor.of_make made
  obtain ⟨view, viewed, sameType, sameData, atStart, sameSizes, rfl⟩ := ofTensor_of_rowMajor laid
  have contiguous : view.isContiguous = .ok true := isContiguous_of_rowMajor (sameSizes ▸ laid)
  have sameCount : view.count = tensor.count := by
    have counted := view.count_eq_volume
    rw [sameSizes, ← tensor.count_eq_volume] at counted
    exact Int.ofNat.inj counted
  -- The view ends where its buffer does, so what is taken is the buffer.
  have whole : (view.offset + view.count) * view.type.size = view.data.length := by
    rw [atStart, Nat.zero_add, sameCount, sameType, sameData, tensor.length_buffer]
  have bytes : view.stretch = tensor.buffer := by
    rw [stretch, whole, List.take_length, atStart, Nat.zero_mul, List.drop_zero, sameData]
  obtain ⟨again, remade, materialized⟩ :=
    toTensor_of_inside contiguous whole.le (whole.trans_lt (sameData ▸ addressable))
  rw [sameType, sameSizes, bytes, made] at remade
  cases remade
  exact ⟨view, viewed, contiguous, sameCount, view.make_self, materialized⟩

/-- A tensor without elements, whose stride is much larger than its buffer. -/
theorem ofTensor_roundtrip_empty : ∃ tensor view,
    Tensor.make .i64 [0, 4611686018427387904] [] = .ok (.ok tensor) ∧
      Layout.rowMajor [0, 4611686018427387904] = .ok [4611686018427387904, 1] ∧
      ofTensor tensor = .ok view ∧ view.toTensor = .ok (.ok tensor) := by
  have made : Tensor.make .i64 [0, 4611686018427387904] [] =
      .ok (.ok ⟨.i64, [0, 4611686018427387904], [], rfl⟩) := by rfl
  have laid : Layout.rowMajor [0, 4611686018427387904] = .ok [4611686018427387904, 1] := by rfl
  obtain ⟨view, viewed, -, -, -, materialized⟩ := ofTensor_roundtrip made laid
  exact ⟨_, view, made, laid, viewed, materialized⟩

end DeferredJit.Memref
