import DeferredJit.Memref.View
import DeferredJit.Proofs.Tensor.Construction
import Mathlib.Algebra.BigOperators.Ring.List
import Mathlib.Algebra.Order.Ring.Int
import Mathlib.Data.List.TakeWhile

/-! The number of elements as a product of extents. The product is taken from the first extent on and
each product on the way has to be a word; once there is an empty axis all products are zero. -/

set_option autoImplicit false

namespace DeferredJit

namespace Shape

variable {shape other : List Int} {start count : Nat} {extent : Int}

@[simp] theorem volume_nil : volume [] = 1 := rfl

@[simp] theorem volume_cons (extent : Int) (shape : List Int) :
    volume (extent :: shape) = extent * volume shape := rfl

theorem volume_perm (same : other.Perm shape) : volume other = volume shape := same.prod_eq

theorem volume_eq_zero (empty : 0 ∈ shape) : volume shape = 0 := List.prod_eq_zero empty

theorem one_le_volume (positive : ∀ extent ∈ shape, 1 ≤ extent) : 1 ≤ volume shape := by
  induction shape with
  | nil => exact Int.le_refl 1
  | cons extent shape ih =>
    rw [List.forall_mem_cons] at positive
    exact Int.mul_pos positive.1 (ih positive.2)

/-- The product of the extents in front of the first empty axis. -/
def leading (shape : List Int) : Int := volume (shape.takeWhile (· ≠ 0))

@[simp] theorem leading_nil : leading [] = 1 := rfl

@[simp] theorem leading_cons_zero (shape : List Int) : leading (0 :: shape) = 1 := rfl

theorem leading_cons (present : extent ≠ 0) (shape : List Int) :
    leading (extent :: shape) = extent * leading shape := by
  rw [leading, List.takeWhile_cons_of_pos (by simpa using present), volume_cons, leading]

theorem leading_eq_volume (full : 0 ∉ shape) : leading shape = volume shape := by
  rw [leading, List.takeWhile_eq_self_iff.2]
  intro extent member
  simpa using ne_of_mem_of_not_mem member full

/-- No extent is negative. -/
def Nonnegative (shape : List Int) : Prop := ∀ extent ∈ shape, 0 ≤ extent

theorem nonnegative_cons : Nonnegative (extent :: shape) ↔ 0 ≤ extent ∧ Nonnegative shape := List.forall_mem_cons

theorem Nonnegative.perm (nonnegative : Nonnegative shape) (same : other.Perm shape) : Nonnegative other :=
  fun extent member => nonnegative extent (same.mem_iff.1 member)

theorem Nonnegative.one_le_leading (nonnegative : Nonnegative shape) : 1 ≤ leading shape := by
  apply one_le_volume
  intro extent member
  have present : extent ≠ 0 := by simpa using List.mem_takeWhile_imp member
  have sign := nonnegative extent (List.takeWhile_subset _ member)
  omega

/-- One more axis in front: the count behind it has to be a word, as all later ones. -/
theorem mul_leading_cons_lt (fits : start < Word.limit) (nonnegative : Nonnegative (extent :: shape)) :
    start * leading (extent :: shape) < Word.limit ↔
      start * extent < Word.limit ∧ start * extent * leading shape < Word.limit := by
  obtain ⟨sign, signs⟩ := nonnegative_cons.1 nonnegative
  by_cases empty : extent = 0
  · subst empty
    have measured : (start : Int) < Word.limit := Int.ofNat_lt.2 fits
    simpa using measured
  · have later : start * extent ≤ start * extent * leading shape :=
      le_mul_of_one_le_right (Int.mul_nonneg (Int.natCast_nonneg start) sign) signs.one_le_leading
    rw [leading_cons empty, ← mul_assoc]
    constructor
    · intro within
      exact ⟨lt_of_le_of_lt later within, within⟩
    · exact And.right

/-- Counting from some number of elements on; from zero on all products are zero. -/
theorem foldlM_countStep_eq_some_iff (fits : start < Word.limit) :
    shape.foldlM countStep start = some count ↔
      Nonnegative shape ∧ start * leading shape < Word.limit ∧ start * volume shape = count := by
  induction shape generalizing start with
  | nil =>
    have measured : (start : Int) * leading [] < Word.limit := by simpa using fits
    simp only [measured, true_and, volume_nil, mul_one, List.foldlM_nil]
    simp [pure, Nonnegative]
  | cons extent shape ih =>
    rw [List.foldlM_cons, Option.bind_eq_bind, Option.bind_eq_some_iff]
    constructor
    · rintro ⟨next, stepped, rest⟩
      obtain ⟨sign, measured, rfl⟩ := countStep_eq_some_iff.1 stepped
      obtain ⟨signs, within, counted⟩ := (ih measured).1 rest
      have nonnegative : Nonnegative (extent :: shape) := nonnegative_cons.2 ⟨sign, signs⟩
      rw [← Int.ofNat_lt, Nat.cast_mul, Int.toNat_of_nonneg sign] at measured
      rw [Nat.cast_mul, Int.toNat_of_nonneg sign] at within counted
      rw [mul_leading_cons_lt fits nonnegative, volume_cons, ← mul_assoc]
      exact ⟨nonnegative, ⟨measured, within⟩, counted⟩
    · rintro ⟨nonnegative, within, counted⟩
      obtain ⟨sign, signs⟩ := nonnegative_cons.1 nonnegative
      rw [mul_leading_cons_lt fits nonnegative] at within
      rw [volume_cons, ← mul_assoc] at counted
      have product : ((start * extent.toNat : Nat) : Int) = start * extent := by
        rw [Nat.cast_mul, Int.toNat_of_nonneg sign]
      rw [← product] at within counted
      have measured := Int.ofNat_lt.1 within.1
      exact ⟨_, countStep_eq_some_iff.2 ⟨sign, measured, rfl⟩, (ih measured).2 ⟨signs, within.2, counted⟩⟩

/-- A shape has a number of elements if no extent is negative and the extents in front of the first
empty axis have a product that is a word; it is then the product of all of them. -/
theorem elements_eq_some_iff : elements shape = some count ↔
    Nonnegative shape ∧ leading shape < Word.limit ∧ volume shape = count := by
  rw [elements, foldlM_countStep_eq_some_iff (by decide), Nat.cast_one, one_mul, one_mul]

theorem elements_eq_volume (counted : elements shape = some count) : (count : Int) = volume shape :=
  (elements_eq_some_iff.1 counted).2.2.symm

theorem nonneg_of_elements (counted : elements shape = some count) : Nonnegative shape :=
  (elements_eq_some_iff.1 counted).1

/-! ## Empty axes behind large extents -/

/-- An empty axis stands behind extents whose product is no word. -/
def Masked (shape : List Int) : Prop := 0 ∈ shape ∧ Word.limit ≤ leading shape

instance (shape : List Int) : Decidable (Masked shape) := inferInstanceAs (Decidable (_ ∧ _))

theorem leading_lt_iff : leading shape < Word.limit ↔ volume shape < Word.limit ∧ ¬ Masked shape := by
  by_cases empty : 0 ∈ shape
  · have nothing : volume shape < Word.limit := by
      rw [volume_eq_zero empty]
      decide
    simp only [Masked, empty, nothing, true_and, not_le]
  · simp [Masked, empty, leading_eq_volume empty]

/-- A shape has a number of elements if no extent is negative, the product of the extents is a word
and no empty axis hides a larger one. -/
theorem elements_eq_some_iff_unmasked : elements shape = some count ↔
    Nonnegative shape ∧ volume shape = count ∧ volume shape < Word.limit ∧ ¬ Masked shape := by
  rw [elements_eq_some_iff, leading_lt_iff]
  tauto

theorem elements_eq_zero_iff (nonnegative : Nonnegative shape) (empty : 0 ∈ shape) :
    elements shape = some 0 ↔ ¬ Masked shape := by
  have nothing := volume_eq_zero empty
  simp [elements_eq_some_iff_unmasked, nonnegative, nothing]

theorem isSome_elements_iff (nonnegative : Nonnegative shape) (empty : 0 ∈ shape) :
    (elements shape).isSome = true ↔ ¬ Masked shape := by
  rw [← elements_eq_zero_iff nonnegative empty, Option.isSome_iff_exists]
  constructor
  · rintro ⟨count, counted⟩
    have product := elements_eq_volume counted
    rw [volume_eq_zero empty, Int.natCast_eq_zero] at product
    rw [counted, product]
  · intro counted
    exact ⟨0, counted⟩

/-! ## The order of the extents -/

/-- The extents of the axes that are not empty. -/
def occupied (shape : List Int) : List Int := shape.filter (· ≠ 0)

theorem not_mem_occupied : 0 ∉ occupied shape := by simp [occupied]

theorem volume_occupied_perm (same : other.Perm shape) : volume (occupied other) = volume (occupied shape) :=
  volume_perm (same.filter _)

theorem Nonnegative.occupied (nonnegative : Nonnegative shape) : Nonnegative (occupied shape) :=
  fun extent member => nonnegative extent (List.mem_of_mem_filter member)

/-- In any order the extents in front of the first empty axis are some of those that are not zero. -/
theorem Nonnegative.leading_le (nonnegative : Nonnegative shape) :
    leading shape ≤ volume (Shape.occupied shape) := by
  induction shape with
  | nil => exact Int.le_refl 1
  | cons extent shape ih =>
    obtain ⟨sign, signs⟩ := nonnegative_cons.1 nonnegative
    by_cases empty : extent = 0
    · subst empty
      have positive := nonnegative.occupied.one_le_leading
      rwa [leading_eq_volume not_mem_occupied] at positive
    · rw [leading_cons empty, Shape.occupied, List.filter_cons_of_pos (by simpa using empty), volume_cons]
      exact Int.mul_le_mul_of_nonneg_left (ih signs) sign

theorem leading_append (full : 0 ∉ shape) (behind : List Int) :
    leading (shape ++ behind) = volume shape * leading behind := by
  have passed : ∀ extent ∈ shape, decide (extent ≠ 0) = true :=
    fun extent member => decide_eq_true (ne_of_mem_of_not_mem member full)
  rw [leading, List.takeWhile_append_of_pos passed]
  exact List.prod_append

theorem leading_zeros {zeros : List Int} (empty : ∀ extent ∈ zeros, extent = 0) : leading zeros = 1 := by
  cases zeros with
  | nil => rfl
  | cons extent zeros =>
    rw [empty extent List.mem_cons_self]
    rfl

/-- Some order has the empty axes last. -/
theorem exists_perm_leading (shape : List Int) :
    ∃ other, other.Perm shape ∧ leading other = volume (occupied shape) := by
  refine ⟨_, List.filter_append_perm (fun extent => decide (extent ≠ 0)) shape, ?_⟩
  have zeros : leading (shape.filter fun extent => !decide (extent ≠ 0)) = 1 := leading_zeros (by simp)
  change leading (occupied shape ++ _) = _
  rw [leading_append not_mem_occupied, zeros, mul_one]

/-- Some order has an empty axis first. -/
theorem exists_perm_unmasked (empty : 0 ∈ shape) : ∃ other, other.Perm shape ∧ ¬ Masked other := by
  refine ⟨0 :: shape.erase 0, (List.perm_cons_erase empty).symm, ?_⟩
  rintro ⟨-, large⟩
  rw [leading_cons_zero] at large
  exact Int.not_lt.2 large (by decide)

/-- The order of the extents matters exactly when there is an empty axis and the other extents have a
product that is no word. -/
theorem elements_perm_iff : (∀ other, other.Perm shape → elements other = elements shape) ↔
    ¬ (Nonnegative shape ∧ 0 ∈ shape ∧ Word.limit ≤ volume (occupied shape)) := by
  constructor
  · rintro same ⟨nonnegative, empty, large⟩
    obtain ⟨late, lateOrder, product⟩ := exists_perm_leading shape
    obtain ⟨early, earlyOrder, unmasked⟩ := exists_perm_unmasked empty
    have counted : elements early = some 0 :=
      (elements_eq_zero_iff (nonnegative.perm earlyOrder) (earlyOrder.mem_iff.2 empty)).2 unmasked
    rw [same early earlyOrder, ← same late lateOrder,
      elements_eq_zero_iff (nonnegative.perm lateOrder) (lateOrder.mem_iff.2 empty)] at counted
    exact counted ⟨lateOrder.mem_iff.2 empty, product ▸ large⟩
  · intro ordinary other same
    have signs : Nonnegative other ↔ Nonnegative shape := ⟨fun signs => signs.perm same.symm, fun signs => signs.perm same⟩
    have fits (nonnegative : Nonnegative shape) : leading other < Word.limit ↔ leading shape < Word.limit := by
      by_cases empty : 0 ∈ shape
      · -- In both orders the product of all other extents bounds the one in front of an empty axis.
        have small : volume (occupied shape) < Word.limit :=
          Int.not_le.1 fun large => ordinary ⟨nonnegative, empty, large⟩
        have bound := (nonnegative.perm same).leading_le
        rw [volume_occupied_perm same] at bound
        exact iff_of_true (bound.trans_lt small) (nonnegative.leading_le.trans_lt small)
      · have full : 0 ∉ other := fun member => empty (same.mem_iff.1 member)
        rw [leading_eq_volume empty, leading_eq_volume full, volume_perm same]
    apply Option.ext
    intro count
    rw [elements_eq_some_iff, elements_eq_some_iff, signs, volume_perm same]
    apply and_congr_right
    intro nonnegative
    rw [fits nonnegative]

end Shape

/-! ## Tensors and views without elements -/

theorem Tensor.exists_make_empty {type : ElementType} {shape : List Int} :
    (∃ tensor, make type shape [] = .ok (.ok tensor)) ↔ Shape.elements shape = some 0 := by
  constructor
  · rintro ⟨tensor, made⟩
    obtain ⟨-, rfl, sameBuffer, -⟩ := of_make made
    have nothing : tensor.count = 0 := by rw [count, sameBuffer, List.length_nil, Nat.zero_div]
    rw [tensor.elements_shape, nothing]
  · intro counted
    exact exists_make counted (by simp) (by decide)

theorem Memref.exists_make {type : ElementType} {data : Bytes} {offset : Nat} {sizes strides : List Int}
    (sameRank : strides.length = sizes.length) :
    (∃ view, make type data offset sizes strides = .ok view) ↔ (Shape.elements sizes).isSome = true := by
  unfold make
  rw [dif_pos sameRank.symm]
  split
  · rename_i counted
    exact iff_of_true ⟨_, rfl⟩ counted
  · rename_i uncounted
    exact iff_of_false (fun ⟨_, made⟩ => nomatch made) uncounted

/-- The number of elements is the product of the extents, and it is there for all shapes without a
negative extent whose product is a word, except where an empty axis hides a larger product in front of
it. The order matters to the shapes that have an empty axis and otherwise extents whose product is no
word; of the orders of such a shape, tensors and views take those in which nothing is hidden. -/
theorem Shape.elements_exact_unless_masked (shape : List Int) :
    (∀ count, elements shape = some count ↔
      Nonnegative shape ∧ volume shape = count ∧ volume shape < Word.limit ∧ ¬ Masked shape) ∧
    ((∀ other, other.Perm shape → elements other = elements shape) ↔
      ¬ (Nonnegative shape ∧ 0 ∈ shape ∧ Word.limit ≤ volume (occupied shape))) ∧
    (Nonnegative shape → 0 ∈ shape →
      (∀ type, (∃ tensor, Tensor.make type shape [] = .ok (.ok tensor)) ↔ ¬ Masked shape) ∧
      ∀ type data offset strides, strides.length = shape.length →
        ((∃ view, Memref.make type data offset shape strides = .ok view) ↔ ¬ Masked shape)) := by
  refine ⟨fun count => elements_eq_some_iff_unmasked, elements_perm_iff, fun nonnegative empty => ⟨?_, ?_⟩⟩
  · intro type
    rw [Tensor.exists_make_empty, elements_eq_zero_iff nonnegative empty]
  · intro type data offset strides sameRank
    rw [Memref.exists_make sameRank, isSome_elements_iff nonnegative empty]

/-- The same three extents, with the empty axis first and last. -/
example : Shape.elements [0, 4294967296, 4294967296] = some 0 ∧
    Shape.elements [4294967296, 4294967296, 0] = none := by decide

end DeferredJit
