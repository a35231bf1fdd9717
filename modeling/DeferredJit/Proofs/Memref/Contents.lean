import DeferredJit.Proofs.Memref.Extents
import DeferredJit.Proofs.Memref.Spans
import Mathlib.Data.List.Range
import Mathlib.Tactic.Linarith
import Mathlib.Tactic.Ring

/-! What a dense tensor made from a strided view contains: element by element, the bytes at the
address that the offset and the strides of the view give. -/

set_option autoImplicit false

namespace DeferredJit

/-! ## Multi-indices -/

namespace Layout

/-- One step along each axis, none of them beyond its extent. -/
def Within (sizes : List Int) (index : List Nat) : Prop :=
  List.Forall₂ (fun (size : Int) (step : Nat) => step < size) sizes index

/-- How far from the first element that of a multi-index lies. -/
def dot : (strides : List Int) → (index : List Nat) → Int
  | stride :: strides, step :: index => step * stride + dot strides index
  | _, _ => 0

/-- The place of a multi-index when the last axis moves fastest. -/
def position : (sizes : List Int) → (index : List Nat) → Nat
  | _ :: sizes, step :: index => step * (Shape.volume sizes).toNat + position sizes index
  | _, _ => 0

/-- All multi-indices, with the last axis moving fastest. -/
def indices : (sizes : List Int) → List (List Nat)
  | [] => [[]]
  | size :: sizes => (List.range size.toNat).flatMap fun step => (indices sizes).map (step :: ·)

@[simp] theorem within_nil {index : List Nat} : Within [] index ↔ index = [] := by
  constructor
  · rintro ⟨⟩
    rfl
  · rintro rfl
    exact .nil

@[simp] theorem within_cons {size : Int} {sizes : List Int} {step : Nat} {index : List Nat} :
    Within (size :: sizes) (step :: index) ↔ (step : Int) < size ∧ Within sizes index :=
  List.forall₂_cons

theorem mem_indices {sizes : List Int} {index : List Nat} :
    index ∈ indices sizes ↔ Within sizes index := by
  induction sizes generalizing index with
  | nil => simp [indices]
  | cons size sizes ih =>
    cases index with
    | nil => simp [indices, Within]
    | cons step index => simp [indices, ih]

namespace Within

variable {sizes : List Int} {index : List Nat}

/-- Where there is a multi-index no axis is empty. -/
theorem extents_pos (within : Within sizes index) : ∀ size ∈ sizes, 0 < size := by
  induction within with
  | nil => simp
  | cons below _ ih =>
    rw [List.forall_mem_cons]
    exact ⟨by omega, ih⟩

theorem volume_pos (within : Within sizes index) : 0 < Shape.volume sizes := by
  induction within with
  | nil => exact Int.one_pos
  | cons below _ ih => exact Int.mul_pos (by omega) ih

theorem position_lt (within : Within sizes index) : (position sizes index : Int) < Shape.volume sizes := by
  induction within with
  | nil => exact Int.one_pos
  | @cons size step sizes index below within ih =>
    have positive : 0 < Shape.volume sizes := volume_pos within
    have stepped : ((step : Int) + 1) * Shape.volume sizes ≤ size * Shape.volume sizes :=
      Int.mul_le_mul_of_nonneg_right (by omega) positive.le
    rw [position, Nat.cast_add, Nat.cast_mul, Int.toNat_of_nonneg positive.le, Shape.volume_cons]
    linarith

/-- The first element is the same for all strides. -/
theorem dot_eq_zero (within : Within sizes index) (first : position sizes index = 0)
    (strides : List Int) : dot strides index = 0 := by
  induction within generalizing strides with
  | nil => cases strides <;> rfl
  | @cons size step sizes index below within ih =>
    have positive : 0 < Shape.volume sizes := volume_pos within
    obtain ⟨stays, rest⟩ := Nat.add_eq_zero_iff.1 first
    have still : step = 0 := by
      rcases Nat.mul_eq_zero.1 stays with still | empty
      · exact still
      · omega
    cases strides with
    | nil => rfl
    | cons stride strides => simp [dot, still, ih rest]

end Within

/-- Row-major strides of extents that are not empty: behind an axis lie as many elements as the other
axes have together. -/
theorem rowMajor_cons {size : Int} {sizes strides : List Int}
    (positive : ∀ extent ∈ sizes, 0 < extent) (computed : rowMajor (size :: sizes) = .ok strides) :
    ∃ inner, rowMajor sizes = .ok inner ∧ strides = Shape.volume sizes :: inner := by
  obtain ⟨fits, rfl⟩ := rowMajor_eq_ok_iff.1 computed
  refine ⟨spans sizes, rowMajor_eq_ok_iff.2 ⟨fits.tail, rfl⟩, ?_⟩
  rw [spans, span_eq_volume positive]

/-- Row-major strides lead to row-major positions. -/
theorem dot_rowMajor {sizes strides : List Int} {index : List Nat} (within : Within sizes index)
    (computed : rowMajor sizes = .ok strides) : dot strides index = position sizes index := by
  induction within generalizing strides with
  | nil =>
    cases computed
    rfl
  | @cons size step sizes index below within ih =>
    have positive : 0 < Shape.volume sizes := Within.volume_pos within
    obtain ⟨inner, computedInner, rfl⟩ := rowMajor_cons (Within.extents_pos within) computed
    rw [dot, position, ih computedInner, Nat.cast_add, Nat.cast_mul, Int.toNat_of_nonneg positive.le]

theorem volume_nonneg {sizes : List Int} (nonnegative : ∀ size ∈ sizes, 0 ≤ size) :
    0 ≤ Shape.volume sizes := by
  induction sizes with
  | nil => exact Int.one_nonneg
  | cons size sizes ih =>
    rw [List.forall_mem_cons] at nonnegative
    exact Int.mul_nonneg nonnegative.1 (ih nonnegative.2)

/-- Positions count the multi-indices through, in their order. -/
theorem map_position_indices {sizes : List Int} (nonnegative : ∀ size ∈ sizes, 0 ≤ size) :
    (indices sizes).map (position sizes) = List.range (Shape.volume sizes).toNat := by
  induction sizes with
  | nil => rfl
  | cons size sizes ih =>
    rw [List.forall_mem_cons] at nonnegative
    have behind (step : Nat) : ((indices sizes).map (step :: ·)).map (position (size :: sizes)) =
        (List.range (Shape.volume sizes).toNat).map (step * (Shape.volume sizes).toNat + ·) := by
      rw [← ih nonnegative.2, List.map_map, List.map_map]
      rfl
    rw [Shape.volume_cons, Int.toNat_mul nonnegative.1 (volume_nonneg nonnegative.2)]
    simp only [indices, List.map_flatMap, behind]
    -- One more step along the first axis goes through the positions of one more slice.
    generalize size.toNat = steps
    induction steps with
    | zero => simp
    | succ steps sliced =>
      rw [List.range_succ, List.flatMap_append, sliced, List.flatMap_singleton, Nat.succ_mul, List.range_add]

end Layout

/-! ## Elements as pieces of a buffer -/

namespace Tensor

theorem getElem?_pieces (size count place : Nat) (bytes : Bytes) :
    (pieces size count bytes)[place]? =
      if place < count then some ((bytes.drop (place * size)).take size) else none := by
  induction count generalizing place bytes with
  | zero => simp [pieces]
  | succ count ih =>
    cases place with
    | zero => simp [pieces]
    | succ place => simp [pieces, ih, List.drop_drop, Nat.succ_mul, Nat.add_comm size]

theorem count_eq_volume (tensor : Tensor) : (tensor.count : Int) = Shape.volume tensor.shape :=
  Shape.elements_eq_volume tensor.elements_shape

end Tensor

namespace Memref

/-- Steps that may unwind come to a result when each of them does. -/
theorem bind_eq_ok {α β : Type} {attempt : Except Panic α} {next : α → Except Panic β} {result : β} :
    (attempt >>= next) = .ok result ↔ ∃ value, attempt = .ok value ∧ next value = .ok result := by
  cases attempt <;> simp [bind, Except.bind]

variable {view : Memref} {tensor : Tensor}

/-- The bytes at an address that is counted in elements. -/
def bytesAt (type : ElementType) (data : Bytes) (address : Nat) : Bytes :=
  (data.drop (address * type.size)).take type.size

theorem count_eq_volume (view : Memref) : (view.count : Int) = Shape.volume view.sizes :=
  Shape.elements_eq_volume (Option.some_get view.counted).symm

theorem sizes_nonneg (view : Memref) : ∀ size ∈ view.sizes, 0 ≤ size :=
  Shape.nonneg_of_elements (Option.some_get view.counted).symm

theorem make_eq_ok {type : ElementType} {data : Bytes} {offset : Nat} {sizes strides : List Int}
    (accepted : make type data offset sizes strides = .ok view) :
    view.type = type ∧ view.data = data ∧ view.offset = offset ∧ view.sizes = sizes ∧
      view.strides = strides := by
  unfold make at accepted
  split at accepted
  · split at accepted
    · cases accepted
      exact ⟨rfl, rfl, rfl, rfl, rfl⟩
    · contradiction
  · contradiction

theorem isContiguous_eq_true (contiguous : view.isContiguous = .ok true) :
    view.count ≤ 1 ∨ Layout.rowMajor view.sizes = .ok view.strides := by
  unfold isContiguous at contiguous
  split at contiguous
  · rename_i few
    exact .inl few
  · obtain ⟨strides, computed, compared⟩ := bind_eq_ok.1 contiguous
    have same : view.strides = strides := by simpa [pure, Except.pure] using compared
    exact .inr (computed.trans (by rw [same]))

/-- The checked products and their checked sum are there as long as the end of the view is a word. -/
theorem extent?_eq (view : Memref) : view.extent? =
    if (view.offset + view.count) * view.type.size < Word.limit then
      some (view.offset * view.type.size, (view.offset + view.count) * view.type.size)
    else none := by
  have split := Nat.add_mul view.offset view.count view.type.size
  unfold extent? Word.mul? Word.add?
  by_cases fits : (view.offset + view.count) * view.type.size < Word.limit
  · have start : view.offset * view.type.size < Word.limit := by omega
    have length : view.count * view.type.size < Word.limit := by omega
    simp [start, length, fits, ← split]
  · rw [if_neg fits]
    by_cases start : view.offset * view.type.size < Word.limit
    · by_cases length : view.count * view.type.size < Word.limit
      · simp [start, length, fits, ← split]
      · simp [start, length]
    · simp [start]

theorem extent?_eq_some {ends : Nat × Nat} (computed : view.extent? = some ends) :
    ends = (view.offset * view.type.size, (view.offset + view.count) * view.type.size) := by
  rw [extent?_eq] at computed
  split at computed
  · exact (Option.some.inj computed).symm
  · cases computed

/-- The bytes of as many elements as the view has, from its first one on. -/
def stretch (view : Memref) : Bytes :=
  (view.data.take ((view.offset + view.count) * view.type.size)).drop (view.offset * view.type.size)

/-- A dense tensor is made of a stretch of the view's buffer. -/
theorem toTensor_eq_ok (materialized : view.toTensor = .ok (.ok tensor)) :
    view.isContiguous = .ok true ∧ (view.offset + view.count) * view.type.size ≤ view.data.length ∧
      tensor.type = view.type ∧ tensor.shape = view.sizes ∧ tensor.buffer = view.stretch := by
  unfold toTensor at materialized
  obtain ⟨rowMajor, contiguous, taken⟩ := bind_eq_ok.1 materialized
  cases rowMajor with
  | false => cases taken
  | true =>
    rw [if_pos rfl] at taken
    cases computed : view.extent? with
    | none => simp [computed, pure, Except.pure] at taken
    | some ends =>
      obtain rfl := extent?_eq_some computed
      rw [computed] at taken
      dsimp only at taken
      split at taken
      · cases taken
      · rename_i inside
        obtain ⟨made, built, same⟩ := bind_eq_ok.1 taken
        cases made with
        | error fault => cases same
        | ok result =>
          cases same
          obtain ⟨sameType, sameShape, sameBuffer, -⟩ := Tensor.of_make built
          exact ⟨contiguous, Nat.le_of_not_lt inside, sameType, sameShape, sameBuffer⟩

/-- A piece of the stretch is what the buffer holds so far behind the offset. -/
theorem piece_of_stretch {place : Nat} (below : place < view.count) :
    (view.stretch.drop (place * view.type.size)).take view.type.size =
      bytesAt view.type view.data (view.offset + place) := by
  have enough : (view.offset + place + 1) * view.type.size ≤ (view.offset + view.count) * view.type.size :=
    Nat.mul_le_mul_right _ (by omega)
  rw [Nat.succ_mul] at enough
  rw [stretch, List.drop_drop, ← Nat.add_mul, List.drop_take, List.take_take, bytesAt]
  congr 1
  omega

/-- Where the strides of a contiguous view lead to. -/
theorem dot_eq_position (contiguous : view.isContiguous = .ok true) {index : List Nat}
    (within : Layout.Within view.sizes index) :
    Layout.dot view.strides index = Layout.position view.sizes index := by
  rcases isContiguous_eq_true contiguous with few | computed
  · -- There is but one element; no stride is looked at and none counts.
    have counted := view.count_eq_volume
    have below := within.position_lt
    have first : Layout.position view.sizes index = 0 := by omega
    rw [first, within.dot_eq_zero first]
    rfl
  · exact Layout.dot_rowMajor within computed

theorem count_of_toTensor (materialized : view.toTensor = .ok (.ok tensor)) :
    tensor.count = view.count := by
  obtain ⟨-, -, -, sameShape, -⟩ := toTensor_eq_ok materialized
  have counted := tensor.count_eq_volume
  rw [sameShape, ← view.count_eq_volume] at counted
  exact Int.ofNat.inj counted

/-- The elements of the tensor, one after the other. -/
theorem pieces_toTensor (materialized : view.toTensor = .ok (.ok tensor)) :
    Tensor.pieces tensor.type.size tensor.count tensor.buffer =
      (List.range view.count).map fun place => bytesAt view.type view.data (view.offset + place) := by
  obtain ⟨-, -, sameType, -, buffer⟩ := toTensor_eq_ok materialized
  apply List.ext_getElem?
  intro place
  rw [Tensor.getElem?_pieces, count_of_toTensor materialized, sameType, buffer]
  split
  · rename_i below
    rw [piece_of_stretch below]
    simp [below]
  · rename_i beyond
    simp [beyond]

/-- The tensor lists the elements of the view by multi-index, the last axis moving fastest. -/
theorem pieces_toTensor_indices (materialized : view.toTensor = .ok (.ok tensor)) :
    Tensor.pieces tensor.type.size tensor.count tensor.buffer =
      (Layout.indices view.sizes).map fun index =>
        bytesAt view.type view.data (view.offset + Layout.dot view.strides index).toNat := by
  have counted : view.count = (Shape.volume view.sizes).toNat := by
    rw [← view.count_eq_volume, Int.toNat_natCast]
  rw [pieces_toTensor materialized, counted, ← Layout.map_position_indices view.sizes_nonneg, List.map_map]
  apply List.map_congr_left
  intro index member
  rw [dot_eq_position (toTensor_eq_ok materialized).1 (Layout.mem_indices.1 member)]
  rfl

/-- A dense tensor has the type and the sizes of the view that it comes from, and at the row-major
position of every multi-index it has the bytes that the strides of the view lead to, all of them
inside of the buffer. -/
theorem toTensor_contains_view {type : ElementType} {data : Bytes} {offset : Nat}
    {sizes strides : List Int} (accepted : make type data offset sizes strides = .ok view)
    (materialized : view.toTensor = .ok (.ok tensor)) :
    tensor.type = type ∧ tensor.shape = sizes ∧
      ∀ index, Layout.Within sizes index → ∃ address : Nat,
        (address : Int) = offset + Layout.dot strides index ∧
        (address + 1) * type.size ≤ data.length ∧
        (Tensor.pieces tensor.type.size tensor.count tensor.buffer)[Layout.position sizes index]? =
          some (bytesAt type data address) := by
  obtain ⟨rfl, rfl, rfl, rfl, rfl⟩ := make_eq_ok accepted
  obtain ⟨contiguous, inside, sameType, sameShape, -⟩ := toTensor_eq_ok materialized
  refine ⟨sameType, sameShape, fun index within => ?_⟩
  have below : Layout.position view.sizes index < view.count := by
    have bound := within.position_lt
    rw [← view.count_eq_volume] at bound
    exact Int.ofNat_lt.1 bound
  refine ⟨view.offset + Layout.position view.sizes index, ?_, ?_, ?_⟩
  · rw [dot_eq_position contiguous within, Nat.cast_add]
  · exact (Nat.mul_le_mul_right _ (by omega)).trans inside
  · simp [pieces_toTensor materialized, below]

/-- Two rows behind the first element of a buffer, and the first element of the second of them. -/
theorem toTensor_contains_view_matrix :
    ∃ view tensor, make .i8 [1, 2, 3, 4, 5] 1 [2, 2] [2, 1] = .ok view ∧
      view.toTensor = .ok (.ok tensor) ∧ Layout.Within [2, 2] [1, 0] ∧
      ∃ address : Nat, (address : Int) = (1 : Nat) + Layout.dot [2, 1] [1, 0] ∧
        (address + 1) * ElementType.i8.size ≤ ([1, 2, 3, 4, 5] : Bytes).length ∧
        (Tensor.pieces tensor.type.size tensor.count tensor.buffer)[Layout.position [2, 2] [1, 0]]? =
          some (bytesAt .i8 [1, 2, 3, 4, 5] address) := by
  have accepted : make .i8 [1, 2, 3, 4, 5] 1 [2, 2] [2, 1] =
      .ok ⟨.i8, [1, 2, 3, 4, 5], 1, [2, 2], [2, 1], rfl, rfl⟩ := by rfl
  have materialized : toTensor ⟨.i8, [1, 2, 3, 4, 5], 1, [2, 2], [2, 1], rfl, rfl⟩ =
      .ok (.ok ⟨.i8, [2, 2], [2, 3, 4, 5], rfl⟩) := by rfl
  have within : Layout.Within [2, 2] [1, 0] := by simp
  exact ⟨_, _, accepted, materialized, within,
    (toTensor_contains_view accepted materialized).2.2 [1, 0] within⟩

/-- Of a single element the strides do not count. -/
example : (make .i8 [7, 8] 1 [1, 1] [9, -4]).map toTensor =
    .ok (.ok (.ok ⟨.i8, [1, 1], [8], rfl⟩)) := by rfl

end Memref

end DeferredJit
