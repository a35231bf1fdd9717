/-! Machine words of 64 bits: bounds, and products and sums that refuse to leave them. -/

set_option autoImplicit false

namespace DeferredJit.Word

/-- One more than the largest unsigned word. -/
abbrev limit : Nat := 0x10000000000000000

def mul? (left right : Nat) : Option Nat :=
  if left * right < limit then some (left * right) else none

def add? (left right : Nat) : Option Nat :=
  if left + right < limit then some (left + right) else none

/-- One more than the largest signed word; its negative is the smallest one. -/
abbrev signedLimit : Int := 0x8000000000000000

def IsSigned (value : Int) : Prop := -signedLimit ≤ value ∧ value < signedLimit

instance (value : Int) : Decidable (IsSigned value) := inferInstanceAs (Decidable (_ ∧ _))

def signedMul? (left right : Int) : Option Int :=
  if IsSigned (left * right) then some (left * right) else none

theorem mul?_eq_some_iff {left right product : Nat} :
    mul? left right = some product ↔ left * right < limit ∧ left * right = product := by
  simp [mul?]

end DeferredJit.Word
