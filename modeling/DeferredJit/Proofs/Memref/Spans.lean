import DeferredJit.Memref.Layout

/-! Row-major strides in closed form: each is the room that the axes behind take together, and all of
them are there as long as the greatest, that of the first axis, is a word. -/

set_option autoImplicit false

namespace DeferredJit.Layout

/-- How many elements axes take the room of together. -/
def span : List Int → Int
  | [] => 1
  | size :: sizes => span sizes * room size

/-- The strides of axes as integers, no matter how large. -/
def spans : List Int → List Int
  | [] => []
  | _ :: sizes => span sizes :: spans sizes

/-- No stride is beyond the words. -/
def Representable (sizes : List Int) : Prop := span sizes.tail < Word.signedLimit

instance (sizes : List Int) : Decidable (Representable sizes) := inferInstanceAs (Decidable (_ < _))

theorem one_le_room (size : Int) : 1 ≤ room size := Int.le_max_right size 1

theorem span_pos (sizes : List Int) : 0 < span sizes := by
  induction sizes with
  | nil => decide
  | cons size sizes ih =>
    have present := one_le_room size
    exact Int.mul_pos ih (by omega)

theorem span_le_cons (size : Int) (sizes : List Int) : span sizes ≤ span (size :: sizes) := by
  have grown := Int.mul_le_mul_of_nonneg_left (one_le_room size) (Int.le_of_lt (span_pos sizes))
  rwa [Int.mul_one] at grown

theorem span_tail_le (sizes : List Int) : span sizes.tail ≤ span sizes := by
  cases sizes with
  | nil => exact Int.le_refl _
  | cons size sizes => exact span_le_cons size sizes

theorem Representable.tail {size : Int} {sizes : List Int} (fits : Representable (size :: sizes)) :
    Representable sizes :=
  Int.lt_of_le_of_lt (span_tail_le sizes) fits

/-- Without empty axes the room is that of the elements. -/
theorem span_eq_volume {sizes : List Int} (positive : ∀ size ∈ sizes, 0 < size) :
    span sizes = Shape.volume sizes := by
  induction sizes with
  | nil => rfl
  | cons size sizes ih =>
    rw [List.forall_mem_cons] at positive
    have present : room size = size := Int.max_eq_left positive.1
    rw [span, ih positive.2, present, Int.mul_comm]
    rfl

theorem product_eq {left right : Int} (positive : 0 < left * right) : product left right =
    if left * right < Word.signedLimit then .ok (left * right) else .error .overflow := by
  unfold product Word.signedMul?
  by_cases fits : left * right < Word.signedLimit
  · have signed : Word.IsSigned (left * right) := ⟨by omega, fits⟩
    rw [if_pos signed, if_pos fits]
  · have unsigned : ¬ Word.IsSigned (left * right) := fun signed => fits signed.2
    rw [if_neg unsigned, if_neg fits]

/-- The stride in front of axes is their room, if that is a word. -/
theorem outer_spans (sizes : List Int) : outer sizes (spans sizes) =
    if span sizes < Word.signedLimit then .ok (span sizes) else .error .overflow := by
  cases sizes with
  | nil => rfl
  | cons size sizes => exact product_eq (span_pos (size :: sizes))

/-- The strides, or an overflow because the first of them is no word. -/
theorem rowMajor_eq (sizes : List Int) :
    rowMajor sizes = if Representable sizes then .ok (spans sizes) else .error .overflow := by
  induction sizes with
  | nil => rfl
  | cons size sizes ih =>
    unfold rowMajor
    -- The strides behind the first axis come first; when they are words, only the stride in front of them may fail.
    by_cases inner : Representable sizes
    · rw [ih, if_pos inner]
      change (outer sizes (spans sizes) >>= fun stride => pure (stride :: spans sizes)) = _
      rw [outer_spans]
      by_cases fits : span sizes < Word.signedLimit
      · rw [if_pos fits, if_pos (show Representable (size :: sizes) from fits)]
        rfl
      · rw [if_neg fits, if_neg (show ¬ Representable (size :: sizes) from fits)]
        rfl
    · rw [ih, if_neg inner, if_neg fun fits => inner (Representable.tail fits)]
      rfl

theorem rowMajor_eq_ok_iff {sizes strides : List Int} :
    rowMajor sizes = .ok strides ↔ Representable sizes ∧ spans sizes = strides := by
  rw [rowMajor_eq]
  split <;> simp [*]

theorem rowMajor_unwinds_iff {sizes : List Int} :
    (∃ panic, rowMajor sizes = .error panic) ↔ ¬ Representable sizes := by
  rw [rowMajor_eq]
  split <;> simp [*]

end DeferredJit.Layout
