import DeferredJit.Word

/-! Shapes: lists of signed extents, and the number of elements they stand for. -/

set_option autoImplicit false

namespace DeferredJit.Shape

/-- One more extent; nothing for a negative extent or a count that is no word. -/
def countStep (count : Nat) (extent : Int) : Option Nat :=
  if extent < 0 then none else Word.mul? count extent.toNat

/-- The number of elements, counted from the first extent on. Every count on the way has to be a
word, also when a later extent is zero. -/
def elements (shape : List Int) : Option Nat := shape.foldlM countStep 1

/-- The product of the extents as integers. -/
def volume (shape : List Int) : Int := shape.foldr (· * ·) 1

theorem countStep_eq_some_iff {count next : Nat} {extent : Int} :
    countStep count extent = some next ↔
      0 ≤ extent ∧ count * extent.toNat < Word.limit ∧ count * extent.toNat = next := by
  unfold countStep
  split
  · simp; omega
  · rw [Word.mul?_eq_some_iff]; omega

end DeferredJit.Shape
